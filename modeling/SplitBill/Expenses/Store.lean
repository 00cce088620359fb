import SplitBill.Expenses.WellFormed

/-!
# The expense table over whole runs

Any number of `createExpense`, `updateExpense` and `deleteExpense` calls side by side, on bodies
that the schemas accept. Groups, memberships and users may change in any way between two operations,
and a deleted group may take its expenses along. Every reachable table is well formed, so the
balances computed from its expenses sum to zero.
-/

namespace SplitBill

open Interleave

/-- The expense calls. -/
inductive ExpenseCall
  | createExpense (requesterId : Id) (input : CreateExpenseInput)
  | updateExpense (requesterId expenseId : Id) (input : UpdateExpenseInput)
  | deleteExpense (requesterId expenseId : Id)

namespace ExpenseCall

/-- The program of a call. -/
def body : ExpenseCall → Act Unit
  | createExpense requesterId input => do
    let _ ← ExpenseService.createExpense requesterId input
    return ()
  | updateExpense requesterId expenseId input => do
    let _ ← ExpenseService.updateExpense requesterId expenseId input
    return ()
  | deleteExpense requesterId expenseId => ExpenseService.deleteExpense requesterId expenseId

/-- The body of the request is accepted by its schema. -/
def Accepted : ExpenseCall → Prop
  | createExpense _ input => input.Accepted
  | updateExpense _ _ input => input.Accepted
  | deleteExpense _ _ => True

instance : DecidablePred Accepted
  | createExpense _ input => inferInstanceAs (Decidable input.Accepted)
  | updateExpense _ _ input => inferInstanceAs (Decidable input.Accepted)
  | deleteExpense _ _ => isTrue trivial

end ExpenseCall

/-- Expense calls side by side. The surroundings create and change no expense. -/
def expenseSystem (lib : Lib) : System backend Err Unit World where
  machine := machine lib
  Call := ExpenseCall
  body := ExpenseCall.body
  valid := ExpenseCall.Accepted
  env w w' := ∀ e ∈ w'.db.expenses, e ∈ w.db.expenses

instance (lib : Lib) : DecidablePred (expenseSystem lib).valid :=
  inferInstanceAs (DecidablePred ExpenseCall.Accepted)

/-- Every expense of the table satisfies `P`. -/
def Table (P : Expense → Prop) (db : Db) : Prop := ∀ e ∈ db.expenses, P e

/-- Every expense of the table is well formed. -/
def WellFormedTable (db : Db) : Prop := ∀ e ∈ db.expenses, e.WellFormed

/-- The amount of the expense, its way of splitting and its split rows are these. -/
def Expense.WrittenFrom (e : Expense) (amount : ℤ) (splitType : SplitType)
    (splits : List Prisma.SplitAmount) : Prop :=
  e.amountMinorUnits = amount ∧ e.splitType = splitType ∧
    ∃ now firstId, e.splits = Prisma.newSplits now firstId splits

/-- What the calls on accepted bodies make of expenses that satisfy `P` satisfies `P` again. -/
structure Storable (P : Expense → Prop) : Prop where
  created : ∀ {input : CreateExpenseInput} {memberIds splits}, input.Accepted →
    ExpenseService.reconcileSplits input.splitType input.amountMinorUnits input.participants
      memberIds = .ok splits →
    ∀ e : Expense, e.WrittenFrom input.amountMinorUnits input.splitType splits → P e
  updated : ∀ {old : Expense} {c db} {input : UpdateExpenseInput} {memberIds splits}, P old →
    input.Accepted →
    ExpenseService.nextSplits (old.details c db byCreatedAt) input memberIds = .ok splits →
    ∀ e : Expense, e.WrittenFrom (input.amountMinorUnits.getD old.amountMinorUnits)
      (input.splitType.getD old.splitType) splits → P e

/-- A well-formed expense is stored as it is. -/
theorem storable_wellFormed : Storable Expense.WellFormed where
  created := by
    intro input memberIds splits hacc hsplits e he
    obtain ⟨hamount, -, now, firstId, hrows⟩ := he
    have hwell := ExpenseService.reconcileSplits_wellSplit hacc.1.1 hacc.2.1 hacc.2.2 hsplits
    exact Expense.wellFormed_of_newSplits hrows (hamount ▸ hwell)
  updated := by
    intro old c db input memberIds splits hold hacc hsplits e he
    obtain ⟨hamount, -, now, firstId, hrows⟩ := he
    have hwell := ExpenseService.nextSplits_wellSplit hold hacc hsplits
    exact Expense.wellFormed_of_newSplits hrows (hamount ▸ hwell)

/-! ## What one transaction keeps -/

section Transactions

variable {P : Expense → Prop} {db db' : Db}

/-- A new expense in the table. -/
theorem table_create {c : Choice} {now : Time} {data : Prisma.CreateExpenseData}
    {activity : ActivityEventInput} {r : ExpenseWithDetails} (hdb : Table P db)
    (hdata : ∀ e : Expense, e.WrittenFrom data.amountMinorUnits data.splitType data.splits → P e)
    (h : (createExpenseWithSplits c now data activity).eval db = .ok (r, db')) : Table P db' := by
  obtain ⟨e, db₁, event, hcreate, -, rfl, -⟩ := createExpenseWithSplits_eq_ok h
  obtain ⟨-, rfl, rfl⟩ := Prisma.expenseCreate_eq_ok hcreate
  rintro e (- | ⟨-, he⟩)
  · exact hdata _ ⟨rfl, rfl, _, _, rfl⟩
  · exact hdb e he

/-- An updated expense in the table. -/
theorem table_update {c : Choice} {now : Time} {expenseId : Id} {data : Prisma.UpdateExpenseData}
    {activity : ActivityEventInput} {r : ExpenseWithDetails} (hdb : Table P db)
    (hdata : ∀ e : Expense, e.WrittenFrom data.amountMinorUnits data.splitType data.splits → P e)
    (h : (updateExpenseWithSplits c now expenseId data activity).eval db = .ok (r, db')) :
    Table P db' := by
  obtain ⟨e, db₁, event, hupdate, -, rfl, -⟩ := updateExpenseWithSplits_eq_ok h
  obtain ⟨old, -, -, -, -, rfl⟩ := Prisma.expenseUpdate_eq_ok hupdate
  intro e he
  obtain ⟨x, hx, ⟨-, rfl⟩ | ⟨-, rfl⟩⟩ := mem_updateWhere.mp he
  · exact hdata _ ⟨rfl, rfl, _, _, rfl⟩
  · exact hdb x hx

/-- A deleted expense leaves the others. -/
theorem table_delete {now : Time} {expenseId : Id} {activity : ActivityEventInput} {r : Unit}
    (hdb : Table P db) (h : (deleteExpenseWithEvent now expenseId activity).eval db = .ok (r, db')) :
    Table P db' := by
  obtain ⟨e, event, -, -, rfl⟩ := deleteExpenseWithEvent_eq_ok h
  intro e he
  exact hdb e (List.mem_of_mem_filter he)

end Transactions

/-! ## What one call keeps -/

/-- The member ids that a query returns are the stored ones in some order. -/
theorem mem_findGroupMemberIds {c : Choice} {db : Db} {groupId u : Id} :
    u ∈ (c.arrange (·.id) unordered (db.membersOf groupId)).map (·.userId) ↔
      u ∈ db.memberIds groupId :=
  ((c.arrange_perm (·.id) unordered (db.membersOf groupId)).map (·.userId)).mem_iff

section Calls

variable {lib : Lib} {X : Type} {D : Discipline backend Err X} {db : X → Db}

/-- A call that goes on after the membership check saw the requester among the members. -/
theorem assertMemberOfGroup_wp {J : X → Prop} {strict : Prop} (hs : Stable lib D db J strict)
    {requesterId groupId : Id} {Q : Except Err Unit → X → Prop} {x : X} (hx : J x)
    (hok : ∀ y, J y → requesterId ∈ (db y).memberIds groupId → Q (.ok ()) y)
    (hno : ∀ y, J y → requesterId ∉ (db y).memberIds groupId →
      Q (.error ExpenseService.notGroupMember) y)
    (herr : ∀ y, J y → ¬strict → Q (.error (.prisma .unavailable)) y) :
    wp D Q (ExpenseService.assertMemberOfGroup requesterId groupId) x := by
  unfold ExpenseService.assertMemberOfGroup
  refine wp_bind.mpr (hs.read (.expense (.findGroupMemberIds _)) rfl hx ?_ herr)
  intro c y hy
  refine wp_ensure.mpr ⟨fun hmem => hok y hy ?_, fun hmem => hno y hy fun h => hmem ?_⟩
  · exact mem_findGroupMemberIds.mp hmem
  · exact mem_findGroupMemberIds.mpr h

/-- The transactions of the expense calls keep `J`, if the row that they write satisfies `P`. -/
structure KeepsWrites (D : Discipline backend Err X) (db : X → Db) (J : X → Prop)
    (P : Expense → Prop) : Prop where
  table : ∀ {x}, J x → Table P (db x)
  create : ∀ {x y : X} {data activity c now r seen}, J x →
    D.answer (.db (.expense (.createExpenseWithSplits data activity))) x seen y →
    (createExpenseWithSplits c now data activity).eval (db x) = .ok (r, db y) →
    (∀ e : Expense, e.WrittenFrom data.amountMinorUnits data.splitType data.splits → P e) →
    D.guar x y ∧ J y
  update : ∀ {x y : X} {id data activity c now r seen}, J x →
    D.answer (.db (.expense (.updateExpenseWithSplits id data activity))) x seen y →
    (updateExpenseWithSplits c now id data activity).eval (db x) = .ok (r, db y) →
    (∀ e : Expense, e.WrittenFrom data.amountMinorUnits data.splitType data.splits → P e) →
    D.guar x y ∧ J y
  delete : ∀ {x y : X} {id activity now r seen}, J x →
    D.answer (.db (.expense (.deleteExpenseWithEvent id activity))) x seen y →
    (deleteExpenseWithEvent now id activity).eval (db x) = .ok (r, db y) → D.guar x y ∧ J y

variable {J : X → Prop} {P : Expense → Prop}

/-- `createExpense` writes what the service has checked. -/
theorem createExpense_keeps (hP : Storable P) (hs : Stable lib D db J)
    (hwrites : KeepsWrites D db J P) {requesterId : Id} {input : CreateExpenseInput}
    (hacc : input.Accepted) {x : X} (hx : J x) :
    wp D (fun _ _ => True) (ExpenseService.createExpense requesterId input) x := by
  unfold ExpenseService.createExpense
  refine wp_bind.mpr (hs.read (.expense (.findGroupById _)) rfl hx ?_ fun _ _ _ => trivial)
  intro _ x₁ hx₁
  refine wp_expect_bind.mpr ⟨fun _ _ => ?_, fun _ => trivial⟩
  refine wp_bind.mpr (hs.read (.expense (.findGroupMemberIds _)) rfl hx₁ ?_ fun _ _ _ => trivial)
  intro _ x₂ hx₂
  refine wp_ensure_bind.mpr ⟨fun _ => ?_, fun _ => trivial⟩
  refine wp_ensure_bind.mpr ⟨fun _ => ?_, fun _ => trivial⟩
  refine wp_ofExcept_bind.mpr ⟨fun splits hsplits => ?_, fun _ _ => trivial⟩
  -- The splits have passed the check, which is what the new row needs.
  have hdata := hP.created hacc hsplits
  refine wp_bind.mpr (hs.dateOrNow hx₂ ?_)
  rintro (_ | _) x₃ hx₃
  · trivial
  refine wp_bind.mpr (hs.write_answered (.expense (.createExpenseWithSplits _ _)) rfl hx₃ ?_
    fun _ _ _ => trivial)
  intro x₄ x₅ _ _ _ _ hx₄ hans heval
  obtain ⟨hguar, hx₅⟩ := hwrites.create hx₄ hans heval hdata
  refine ⟨hguar, ?_, fun _ => trivial⟩
  refine wp_bind.mpr (hs.quiet (.metric _) (by rintro d ⟨⟩) hx₅ ?_)
  rintro (_ | _) _ _ <;> trivial

/-- `updateExpense` writes what the service has checked. -/
theorem updateExpense_keeps (hP : Storable P) (hs : Stable lib D db J)
    (hwrites : KeepsWrites D db J P) {requesterId expenseId : Id} {input : UpdateExpenseInput}
    (hacc : input.Accepted) {x : X} (hx : J x) :
    wp D (fun _ _ => True) (ExpenseService.updateExpense requesterId expenseId input) x := by
  unfold ExpenseService.updateExpense
  refine wp_bind.mpr (hs.read (.expense (.findExpenseById _)) rfl hx ?_ fun _ _ _ => trivial)
  intro c x₁ hx₁
  refine wp_expect_bind.mpr ⟨fun expense hexpense => ?_, fun _ => trivial⟩
  -- What was read satisfies `P`, and does so whatever happens to the table.
  obtain ⟨e, hfind, rfl⟩ := Option.map_eq_some_iff.mp hexpense
  have he : P e := hwrites.table hx₁ e (List.mem_of_find?_eq_some hfind)
  refine wp_bind.mpr (hs.read (.expense (.findGroupMemberIds _)) rfl hx₁ ?_ fun _ _ _ => trivial)
  intro _ x₂ hx₂
  refine wp_ensure_bind.mpr ⟨fun _ => ?_, fun _ => trivial⟩
  refine wp_ensure_bind.mpr ⟨fun _ => ?_, fun _ => trivial⟩
  refine wp_ofExcept_bind.mpr ⟨fun splits hsplits => ?_, fun _ _ => trivial⟩
  have hdata := hP.updated he hacc hsplits
  refine wp_bind.mpr (hs.write_answered (.expense (.updateExpenseWithSplits _ _ _)) rfl hx₂ ?_
    fun _ _ _ => trivial)
  intro x₄ x₅ _ _ _ _ hx₄ hans heval
  obtain ⟨hguar, hx₅⟩ := hwrites.update hx₄ hans heval hdata
  refine ⟨hguar, ?_, fun _ => trivial⟩
  refine wp_bind.mpr (hs.quiet (.metric _) (by rintro d ⟨⟩) hx₅ ?_)
  rintro (_ | _) _ _ <;> trivial

/-- `deleteExpense` writes no expense. -/
theorem deleteExpense_keeps (hs : Stable lib D db J) (hwrites : KeepsWrites D db J P)
    {requesterId expenseId : Id} {x : X} (hx : J x) :
    wp D (fun _ _ => True) (ExpenseService.deleteExpense requesterId expenseId) x := by
  unfold ExpenseService.deleteExpense
  refine wp_bind.mpr (hs.read (.expense (.findExpenseById _)) rfl hx ?_ fun _ _ _ => trivial)
  intro _ x₁ hx₁
  refine wp_expect_bind.mpr ⟨fun _ _ => ?_, fun _ => trivial⟩
  refine wp_bind.mpr (assertMemberOfGroup_wp hs hx₁ ?_ (fun _ _ _ => trivial) fun _ _ _ => trivial)
  intro x₂ hx₂ _
  refine wp_bind.mpr (hs.write_answered (.expense (.deleteExpenseWithEvent _ _)) rfl hx₂ ?_
    fun _ _ _ => trivial)
  intro x₃ x₄ _ _ _ _ hx₃ hans heval
  obtain ⟨hguar, hx₄⟩ := hwrites.delete hx₃ hans heval
  exact ⟨hguar, hs.quiet (.metric _) (by rintro d ⟨⟩) hx₄ fun _ _ _ => trivial, fun _ => trivial⟩

/-- A call on an accepted body keeps the tables, whatever the others do meanwhile. -/
theorem body_keeps (hP : Storable P) (hs : Stable lib D db J) (hwrites : KeepsWrites D db J P)
    {c : ExpenseCall} (hc : c.Accepted) {x : X} (hx : J x) :
    wp D (fun _ _ => True) c.body x := by
  cases c with
  | createExpense requesterId input =>
    refine wp_bind.mpr (wp_mono ?_ (createExpense_keeps hP hs hwrites hc hx))
    rintro (_ | _) _ _ <;> trivial
  | updateExpense requesterId expenseId input =>
    refine wp_bind.mpr (wp_mono ?_ (updateExpense_keeps hP hs hwrites hc hx))
    rintro (_ | _) _ _ <;> trivial
  | deleteExpense requesterId expenseId => exact deleteExpense_keeps hs hwrites hx

/-- The transactions keep the table, and nothing else is asked of them. -/
theorem keepsWrites_table (hguar : ∀ x y, Table P (db y) → D.guar x y) :
    KeepsWrites D db (fun x => Table P (db x)) P where
  table := id
  create := fun hx _ heval hdata => by
    have hy := table_create hx hdata heval
    exact ⟨hguar _ _ hy, hy⟩
  update := fun hx _ heval hdata => by
    have hy := table_update hx hdata heval
    exact ⟨hguar _ _ hy, hy⟩
  delete := fun hx _ heval => by
    have hy := table_delete hx heval
    exact ⟨hguar _ _ hy, hy⟩

end Calls

/-! ## Runs -/

/-- What is storable holds of every expense of every reachable table. -/
theorem table_of_reachable {P : Expense → Prop} (hP : Storable P) {lib : Lib}
    {cfg : (expenseSystem lib).Config}
    (h : (expenseSystem lib).Reachable (fun w => w.db.expenses = []) cfg) :
    Table P cfg.hist.world.db := by
  -- The table relies on nothing but that the others keep it.
  let out : (expenseSystem lib).Outline (OnTables fun d d' => Table P d → Table P d')
      (fun w => w.db.expenses = []) :=
    { I := fun h => Table P h.world.db
      refl := fun _ h => h
      trans := fun h₁ h₂ h => h₂ (h₁ h)
      init := fun w hw e he => by
        rw [hw] at he
        cases he
      inv := fun _ _ h hR => hR h
      env := fun h w hI henv _ e he => hI e (henv e he)
      begins := fun _ _ _ _ _ => trivial
      steps := fun _ _ _ _ _ _ _ => trivial
      ends := fun _ _ _ _ _ _ _ _ => trivial
      body := fun pid c h hI hc _ =>
        body_keeps hP (stable_relation (R := fun d d' => Table P d → Table P d') rfl
          (fun _ h => h) (fun _ _ h hR => hR h) pid)
          (keepsWrites_table fun _ _ hy => ⟨fun _ => hy, trivial⟩) hc hI }
  exact out.holds h

/-- Every reachable table is well formed. -/
theorem wellFormedTable_of_reachable {lib : Lib} {cfg : (expenseSystem lib).Config}
    (h : (expenseSystem lib).Reachable (fun w => w.db.expenses = []) cfg) :
    WellFormedTable cfg.hist.world.db := table_of_reachable storable_wellFormed h

/-- A well-formed expense is balanced, as the computation of the balances needs it. -/
theorem Expense.WellFormed.balanced {e : Expense} (h : e.WellFormed) : e.forBalance.Balanced := by
  unfold ExpenseForBalance.Balanced Expense.forBalance
  rw [List.map_map]
  exact h.sum_eq

/-- Every stored expense of every reachable state is well formed, and the balances of any of these
expenses, in any order, and of any settlements sum to zero. -/
theorem expense_table_invariant {lib : Lib} {cfg : (expenseSystem lib).Config}
    (h : (expenseSystem lib).Reachable (fun w => w.db.expenses = []) cfg) :
    (∀ e ∈ cfg.hist.world.db.expenses, e.WellFormed) ∧
      ∀ (expenses : List Expense) (settlements : List SettlementForBalance),
        (∀ e ∈ expenses, e ∈ cfg.hist.world.db.expenses) →
          (calculateBalances (expenses.map (·.forBalance)) settlements).values.sum = 0 := by
  have htable := wellFormedTable_of_reachable h
  refine ⟨htable, fun expenses settlements hsub => sum_calculateBalances ?_ settlements⟩
  intro x hx
  obtain ⟨e, he, rfl⟩ := List.mem_map.mp hx
  exact (htable e (hsub e he)).balanced

/-- Three users, all of them members of one group. -/
def threeMembers : World where
  db :=
    { users := [⟨1, "A", "a@x.io", none, none⟩, ⟨2, "B", "b@x.io", none, none⟩,
        ⟨3, "C", "c@x.io", none, none⟩]
      groups := [⟨10, "Trip", 1, 0, 0⟩]
      groupMembers := [⟨11, 10, 1, 0⟩, ⟨12, 10, 2, 0⟩, ⟨13, 10, 3, 0⟩]
      nextId := 20 }

/-- An equal split, and then an update of its amount that overlaps with a switch to an exact one. -/
def overlappingUpdates : List (System.Action (expenseSystem .plain)) :=
  .spawn (.createExpense 1
    ⟨10, "Dinner", 1000, 1, .equal, [⟨1, none⟩, ⟨2, none⟩, ⟨3, none⟩], none⟩) ::
    List.replicate 5 (.op 0 {}) ++
  [.spawn (.updateExpense 2 20 { amountMinorUnits := some 100 }),
    .spawn (.updateExpense 3 20 { splitType := some .exact }),
    .op 1 {}, .op 2 {}, .op 1 {}, .op 2 {}, .op 2 {}, .op 1 {}]

/-- Two updates that overlap leave splits that add up. -/
theorem expense_table_invariant_overlapping : ∃ cfg,
    (expenseSystem .plain).play overlappingUpdates ((expenseSystem .plain).start threeMembers) =
      some cfg ∧
    (cfg.hist.world.db.expenses.map fun e => e.splits.map (·.amountMinorUnits)) = [[34, 33, 33]] ∧
    ∀ e ∈ cfg.hist.world.db.expenses, e.WellFormed := by
  have hrun : ((expenseSystem .plain).play overlappingUpdates
      ((expenseSystem .plain).start threeMembers)).map (fun cfg =>
        cfg.hist.world.db.expenses.map fun e => e.splits.map (·.amountMinorUnits)) =
      some [[34, 33, 33]] := by decide
  obtain ⟨cfg, h, hsplits⟩ := Option.map_eq_some_iff.mp hrun
  have hreach : (expenseSystem .plain).Reachable (fun w => w.db.expenses = []) cfg :=
    System.reachable_of_play (fun _ _ _ => trivial) (.start rfl) h
  exact ⟨cfg, h, hsplits, (expense_table_invariant hreach).1⟩

end SplitBill
