import SplitBill.Expenses.UpdateAlone
import SplitBill.Pages

/-!
# Updates that change no money

An update of the description or the date alone writes all splits anew. Those of an equal split it
computes from the stored rows in the order of their `createdAt`, and gives the remainder to the
first ones. Rows of one write have one `createdAt`, so that another participant may be first this
time.
-/

namespace SplitBill

open Interleave
open Prisma (SplitAmount newSplits)

/-- The update gives neither an amount, nor a payer, nor a way of splitting, nor participants. -/
def UpdateExpenseInput.Cosmetic (input : UpdateExpenseInput) : Prop :=
  input.amountMinorUnits = none ∧ input.payerId = none ∧ input.splitType = none ∧
    input.participants = none

/-- The user's split of the expense has this amount. -/
def Expense.Owes (e : Expense) (u : Id) (amount : ℤ) : Prop :=
  ∃ s ∈ e.splits, s.userId = u ∧ s.amountMinorUnits = amount

instance (e : Expense) (u : Id) (amount : ℤ) : Decidable (e.Owes u amount) :=
  inferInstanceAs (Decidable (∃ s ∈ e.splits, _))

/-- After the update by itself everyone's split has the amount that it had, and everyone has the
balance that they had. -/
def KeepsMoney (lib : Lib) (w : World) (requesterId : Id) (e : Expense)
    (input : UpdateExpenseInput) :
    Prop :=
  ∀ r w',
    Exec (machine lib) World.Later (ExpenseService.updateExpense requesterId e.id input) w r w' →
    (∃ e' ∈ w'.db.expense? e.id, ∀ u amount, e'.Owes u amount ↔ e.Owes u amount) ∧
      ∀ groupId u, position w'.db groupId u = position w.db groupId u

/-! ## Equal splits as they are stored -/

/-- The split rows of an expense as amounts. -/
def Expense.shares (e : Expense) : List SplitAmount :=
  e.splits.map fun s => ⟨s.userId, s.amountMinorUnits⟩

/-- An equal split is stored as it was computed. -/
def Expense.EquallySplit (e : Expense) : Prop :=
  e.splitType = .equal →
    e.shares = calculateEqualSplits e.amountMinorUnits (e.splits.map (·.userId))

/-- Splits that `calculateEqualSplits` has just computed. -/
theorem Expense.equallySplit_of_newSplits {e : Expense} {now : Time} {firstId : Id} {ids : List Id}
    (h : e.splits = newSplits now firstId (calculateEqualSplits e.amountMinorUnits ids)) :
    e.EquallySplit := by
  intro _
  have hids : e.splits.map (·.userId) = ids := by
    rw [h, userIds_newSplits, userIds_calculateEqualSplits]
  rw [hids]
  unfold Expense.shares
  rw [h, map_newSplits]

/-- What `calculateEqualSplits` computes is stored as it is. -/
theorem storable_equallySplit : Storable Expense.EquallySplit where
  created := by
    rintro input memberIds splits _ hsplits e ⟨hamount, htype, now, firstId, hrows⟩ hequal
    -- An equal split is computed, whether for a new expense or for an old one.
    rw [← htype, hequal] at hsplits
    simp only [ExpenseService.reconcileSplits, ite_error_eq_ok, not_not, Except.ok.injEq] at hsplits
    obtain ⟨-, -, rfl⟩ := hsplits
    exact Expense.equallySplit_of_newSplits (hamount ▸ hrows) hequal
  updated := by
    rintro old c db input memberIds splits _ _ hsplits e ⟨hamount, htype, now, firstId, hrows⟩
      hequal
    cases hparticipants : input.participants with
    | none =>
      rw [nextSplits_equal hparticipants (htype.symm.trans hequal), Except.ok.injEq] at hsplits
      subst hsplits
      exact Expense.equallySplit_of_newSplits (hamount ▸ hrows) hequal
    | some participants =>
      have htype' : input.splitType.getD (old.details c db byCreatedAt).splitType = .equal :=
        htype.symm.trans hequal
      unfold ExpenseService.nextSplits at hsplits
      simp only [hparticipants, htype', ExpenseService.reconcileSplits, ite_error_eq_ok, not_not,
        Except.ok.injEq] at hsplits
      obtain ⟨-, -, rfl⟩ := hsplits
      exact Expense.equallySplit_of_newSplits (hamount ▸ hrows) hequal

/-! ## The order of the rows -/

/-- Whoever owes more has an older row. -/
def Expense.LargerOlder (e : Expense) : Prop :=
  ∀ a ∈ e.splits, ∀ b ∈ e.splits, b.amountMinorUnits < a.amountMinorUnits →
    a.createdAt < b.createdAt

instance : DecidablePred Expense.LargerOlder := fun e =>
  inferInstanceAs (Decidable (∀ a ∈ e.splits, ∀ b ∈ e.splits, _ → _))

/-- A larger share is not handed out after a smaller one. -/
theorem pairwise_calculateEqualSplits {total : ℤ} (htotal : 0 < total) (ids : List Id) :
    ((calculateEqualSplits total ids).map (·.amountMinorUnits)).Pairwise (· ≥ ·) := by
  by_cases hids : ids = []
  · subst hids
    exact List.Pairwise.nil
  · exact (calculateEqualSplits_fair htotal hids).2.2.2.2.1

/-- The amounts of an equal split depend on the number of participants only. -/
theorem amounts_congr {total : ℤ} {ids ids' : List Id} (h : ids.length = ids'.length) :
    (calculateEqualSplits total ids).map (·.amountMinorUnits) =
      (calculateEqualSplits total ids').map (·.amountMinorUnits) := by
  by_cases hids : ids = []
  · subst hids
    obtain rfl := List.length_eq_zero_iff.mp h.symm
    rfl
  · have hids' : ids' ≠ [] := by
      rwa [Ne, ← List.length_eq_zero_iff, ← h, List.length_eq_zero_iff]
    rw [amounts_calculateEqualSplits total hids, amounts_calculateEqualSplits total hids', h]

/-- Splits are determined by their users and their amounts. -/
theorem splits_ext {xs ys : List SplitAmount} (husers : xs.map (·.userId) = ys.map (·.userId))
    (hamounts : xs.map (·.amountMinorUnits) = ys.map (·.amountMinorUnits)) : xs = ys := by
  induction xs generalizing ys with
  | nil => exact (List.map_eq_nil_iff.mp husers.symm).symm
  | cons x xs ih =>
    cases ys with
    | nil => cases husers
    | cons y ys =>
      simp only [List.map_cons, List.cons.injEq] at husers hamounts
      obtain ⟨hu, husers⟩ := husers
      obtain ⟨ha, hamounts⟩ := hamounts
      cases x
      cases y
      rw [ih husers hamounts]
      exact congrArg₂ (fun u a => (⟨u, a⟩ : SplitAmount) :: ys) hu ha

/-- Of two elements of a list one stands before the other. -/
theorem pairwise_or {α : Type} {R : α → α → Prop} {l : List α} (h : l.Pairwise R) {a b : α}
    (ha : a ∈ l) (hb : b ∈ l) (hne : a ≠ b) : R a b ∨ R b a := by
  have hsymm : Std.Symm fun x y => R x y ∨ R y x := ⟨fun _ _ => Or.symm⟩
  have hor : l.Pairwise fun x y => R x y ∨ R y x := h.imp fun hxy => .inl hxy
  exact hor.forall ha hb hne

/-- Splits among distinct users that are among other ones for the same users are those. -/
theorem splits_eq_of_mem {xs ys : List SplitAmount}
    (husers : xs.map (·.userId) = ys.map (·.userId)) (hnodup : (ys.map (·.userId)).Nodup)
    (hmem : ∀ s ∈ xs, s ∈ ys) : xs = ys := by
  apply splits_ext husers
  -- Each user has one amount in `ys`.
  have hamount : ∀ s ∈ xs, ∀ t ∈ ys, s.userId = t.userId → s = t := fun s hs t ht hu =>
    List.inj_on_of_nodup_map hnodup (hmem s hs) ht hu
  clear hnodup hmem
  induction xs generalizing ys with
  | nil => rw [List.map_eq_nil_iff.mp husers.symm]
  | cons x xs ih =>
    cases ys with
    | nil => cases husers
    | cons y ys =>
      simp only [List.map_cons, List.cons.injEq] at husers ⊢
      have hxy := hamount x List.mem_cons_self y List.mem_cons_self husers.1
      refine ⟨by rw [hxy], ih husers.2 fun s hs t ht => ?_⟩
      exact hamount s (List.mem_cons_of_mem _ hs) t (List.mem_cons_of_mem _ ht)

section

variable {e : Expense}

/-- Splits that are ordered by the time are ordered by the rank at equal times. -/
theorem pairwise_byCreatedAt (c : Choice) (rows : List ExpenseSplit) :
    (c.arrange (·.id) byCreatedAt rows).Pairwise fun a b =>
      a.createdAt ≤ b.createdAt ∧ (a.createdAt = b.createdAt → c.rank a.id ≤ c.rank b.id) := by
  have hbefore : ∀ a b : ExpenseSplit, byCreatedAt a b = true ↔ a.createdAt < b.createdAt :=
    fun a b => decide_eq_true_iff
  exact pairwise_arrange hbefore c rows

/-- If whoever owes more has an older row, the shares computed anew are the stored ones. -/
theorem shares_recomputed (hwell : 0 < e.amountMinorUnits) (hequal : e.EquallySplit)
    (htype : e.splitType = .equal) (holder : e.LargerOlder) (c : Choice) :
    calculateEqualSplits e.amountMinorUnits
        ((c.arrange (·.id) byCreatedAt e.splits).map (·.userId)) =
      (c.arrange (·.id) byCreatedAt e.splits).map fun s => ⟨s.userId, s.amountMinorUnits⟩ := by
  let rows := c.arrange (·.id) byCreatedAt e.splits
  have hperm : rows.Perm e.splits := c.arrange_perm (·.id) byCreatedAt e.splits
  have hstored : e.splits.map (·.amountMinorUnits) = (calculateEqualSplits e.amountMinorUnits
      (e.splits.map (·.userId))).map (·.amountMinorUnits) := by
    rw [← hequal htype, Expense.shares, List.map_map]
    rfl
  have hlength : (rows.map (·.userId)).length = (e.splits.map (·.userId)).length := by
    rw [List.length_map, List.length_map, hperm.length_eq]
  -- Both lists of amounts hold the stored ones, from the largest to the smallest.
  have hamounts : rows.map (·.amountMinorUnits) = e.splits.map (·.amountMinorUnits) := by
    have hantisymm : ∀ a b : ℤ, a ∈ rows.map (·.amountMinorUnits) →
        b ∈ e.splits.map (·.amountMinorUnits) → a ≥ b → b ≥ a → a = b :=
      fun a b _ _ hab hba => le_antisymm hba hab
    apply List.Perm.eq_of_pairwise hantisymm
    · apply List.pairwise_map.mpr
      apply (pairwise_byCreatedAt c e.splits).imp_of_mem
      intro a b ha hb hab
      by_contra hlt
      have hlt : b.createdAt < a.createdAt :=
        holder b (hperm.mem_iff.mp hb) a (hperm.mem_iff.mp ha) (not_le.mp hlt)
      exact absurd hab.1 (Nat.not_le.mpr hlt)
    · rw [hstored]
      exact pairwise_calculateEqualSplits hwell _
    · exact hperm.map _
  apply splits_ext
  · rw [userIds_calculateEqualSplits, List.map_map]
    rfl
  · rw [amounts_congr hlength, ← hstored, List.map_map]
    exact hamounts.symm

/-- What a user owes is a share of the expense. -/
theorem Expense.owes_iff {u : Id} {amount : ℤ} : e.Owes u amount ↔ ⟨u, amount⟩ ∈ e.shares := by
  unfold Expense.Owes Expense.shares
  rw [List.mem_map]
  exact exists_congr fun s => and_congr_right fun _ => by rw [SplitAmount.mk.injEq]

/-- Who owes one amount of an expense owes no other one. -/
theorem Expense.Owes.unique (hnodup : (e.splits.map (·.userId)).Nodup) {u : Id} {a b : ℤ}
    (ha : e.Owes u a) (hb : e.Owes u b) : a = b := by
  obtain ⟨s, hs, hsu, rfl⟩ := ha
  obtain ⟨t, ht, htu, rfl⟩ := hb
  rw [List.inj_on_of_nodup_map hnodup hs ht (hsu.trans htu.symm)]

/-- The row that an update writes has the splits that it came to. -/
theorem shares_applyTo (data : Prisma.UpdateExpenseData) (now : Time) (firstId : Id) :
    (data.applyTo now firstId e).shares = data.splits := map_newSplits now firstId data.splits

/-- Expenses with the same payer, amount and splits say the same about everyone. -/
theorem netOf_congr {e' : Expense} (hpayer : e'.paidById = e.paidById)
    (hamount : e'.amountMinorUnits = e.amountMinorUnits)
    (hshares : e'.shares.Perm e.shares) (u : Id) :
    e'.forBalance.netOf u = e.forBalance.netOf u := by
  show (if e'.paidById = u then e'.amountMinorUnits else 0) - shareOf e'.shares u =
    (if e.paidById = u then e.amountMinorUnits else 0) - shareOf e.shares u
  rw [hpayer, hamount, shareOf_perm hshares]

end

/-! ## Which updates move no money -/

section

variable {lib : Lib} {w : World} {e : Expense} {requesterId : Id} {input : UpdateExpenseInput}

/-- The splits of such an update are the stored ones, if whoever owes more has an older row. -/
theorem nextSplits_cosmetic (hwell : 0 < e.amountMinorUnits) (hequal : e.EquallySplit)
    (hinput : input.Cosmetic) (hkept : e.splitType = .exact ∨ e.LargerOlder) {c : Choice} {db : Db}
    {memberIds : List Id} {splits : List SplitAmount}
    (h : ExpenseService.nextSplits (e.details c db byCreatedAt) input memberIds = .ok splits) :
    splits.Perm e.shares := by
  obtain ⟨hamount, -, htype, hnone⟩ := hinput
  have hsame : input.splitType.getD e.splitType = e.splitType := by rw [htype, Option.getD_none]
  cases ht : e.splitType with
  -- An exact split is kept, and an equal one is computed anew.
  | exact =>
    rw [nextSplits_exact hnone (hsame.trans ht), ite_error_eq_ok, Except.ok.injEq] at h
    obtain ⟨-, rfl⟩ := h
    exact ExpenseService.keptSplits_perm c db byCreatedAt e
  | equal =>
    have holder : e.LargerOlder := by
      rcases hkept with hexact | holder
      · rw [ht] at hexact
        cases hexact
      · exact holder
    rw [nextSplits_equal hnone (hsame.trans ht), hamount, Option.getD_none, Except.ok.injEq,
      shares_recomputed hwell hequal ht holder] at h
    subst h
    exact (c.arrange_perm (·.id) byCreatedAt e.splits).map _

/-- An update that comes to the stored splits, in whatever order, moves no money. -/
theorem Amends.keeps {db' : Db} (hdb : w.db.Constrained) (he : w.db.expense? e.id = some e)
    (hinput : input.Cosmetic) (hamends : Amends requesterId e.id input e w.db db')
    (hsplits : ∀ c memberIds splits,
      ExpenseService.nextSplits (e.details c w.db byCreatedAt) input memberIds = .ok splits →
        splits.Perm e.shares) :
    (∃ e' ∈ db'.expense? e.id, ∀ u amount, e'.Owes u amount ↔ e.Owes u amount) ∧
      ∀ groupId u, position db' groupId u = position w.db groupId u := by
  obtain ⟨c, memberIds, splits, now, -, hnext, hrows, hrow⟩ := hamends.rows
  obtain ⟨hamount, hpayer, -, -⟩ := hinput
  let e' := (input.over e splits).applyTo now w.db.nextId e
  -- Payer and amount are the old ones, and the shares differ in their order only.
  have hshares : e'.shares.Perm e.shares := by
    rw [shares_applyTo]
    exact hsplits c memberIds splits hnext
  constructor
  · refine ⟨e', hrow, fun u amount => ?_⟩
    rw [Expense.owes_iff, Expense.owes_iff]
    exact hshares.mem_iff
  · intro groupId u
    have hshare : e'.shareIn groupId u = e.shareIn groupId u := by
      unfold Expense.shareIn
      have hpaid : e'.paidById = e.paidById := by
        show input.payerId.getD e.paidById = e.paidById
        rw [hpayer, Option.getD_none]
      have htotal : e'.amountMinorUnits = e.amountMinorUnits := by
        show input.amountMinorUnits.getD e.amountMinorUnits = e.amountMinorUnits
        rw [hamount, Option.getD_none]
      rw [netOf_congr hpaid htotal hshares u]
      rfl
    rw [position_updateExpense hdb.expenseIds he hrows hamends.settlements, hshare, sub_add_cancel]

/-- If someone owes more than another one whose row is not younger, the database may return the rows
in an order in which the update makes them owe less, or the other one more. -/
theorem exists_moves (hdb : w.db.Constrained) (he : w.db.expense? e.id = some e)
    (hpos : 0 < e.amountMinorUnits) (htype : e.splitType = .equal) (hinput : input.Cosmetic)
    (hok : ¬RefusesUpdate w.db requesterId e input) (hnot : ¬e.LargerOlder) :
    ¬KeepsMoney lib w requesterId e input := by
  intro hkeeps
  obtain ⟨a, ha, b, hb, hlt, hage⟩ : ∃ a ∈ e.splits, ∃ b ∈ e.splits,
      b.amountMinorUnits < a.amountMinorUnits ∧ ¬a.createdAt < b.createdAt := by
    unfold Expense.LargerOlder at hnot
    push Not at hnot
    obtain ⟨a, ha, b, hb, hlt, hage⟩ := hnot
    exact ⟨a, ha, b, hb, hlt, Nat.not_lt.mpr hage⟩
  have hmem : e ∈ w.db.expenses := List.mem_of_find?_eq_some he
  obtain ⟨hamount, -, hsame, hnone⟩ := hinput
  -- The database returns the row of `b` as early as it may.
  let c : Choice := { rank := fun id => if id = b.id then 0 else 1 }
  let rows := c.arrange (·.id) byCreatedAt e.splits
  have hperm : rows.Perm e.splits := c.arrange_perm (·.id) byCreatedAt e.splits
  obtain ⟨splits, r, w', hsplits, hexec, hrow⟩ := @exists_updateExpense lib w requesterId e.id input
    e hdb he hnone hok c rfl
  rw [nextSplits_equal hnone (by rw [hsame, Option.getD_none, htype]), hamount, Option.getD_none,
    Except.ok.injEq] at hsplits
  -- If everyone owed what they owed before, the new splits would be those of the rows.
  obtain ⟨⟨e', he', howes⟩, -⟩ := hkeeps _ w' hexec
  obtain rfl := Option.some.inj (hrow.symm.trans he')
  have hkept : splits = rows.map fun s => ⟨s.userId, s.amountMinorUnits⟩ := by
    apply splits_eq_of_mem
    · rw [← hsplits, userIds_calculateEqualSplits, List.map_map]
      rfl
    · rw [List.map_map]
      exact (hperm.map (·.userId)).nodup_iff.mpr (hdb.splitUsers e hmem)
    · intro s hs
      have hs : e.Owes s.userId s.amountMinorUnits := by
        rw [← howes, Expense.owes_iff, shares_applyTo]
        exact hs
      exact (hperm.map _).mem_iff.mpr (Expense.owes_iff.mp hs)
  -- Then the amounts of the rows would not increase, although `b` comes before `a`.
  have hsorted : rows.Pairwise fun x y => y.amountMinorUnits ≤ x.amountMinorUnits := by
    have h := pairwise_calculateEqualSplits hpos (rows.map (·.userId))
    rw [hsplits, hkept, List.map_map] at h
    exact List.pairwise_map.mp h
  have hne : a ≠ b := by
    rintro rfl
    exact lt_irrefl _ hlt
  rcases pairwise_or (hsorted.and (pairwise_byCreatedAt c e.splits)) (hperm.mem_iff.mpr ha)
    (hperm.mem_iff.mpr hb) hne with ⟨-, hle, hrank⟩ | ⟨hle, -⟩
  · have hrank := hrank (Nat.le_antisymm hle (Nat.not_lt.mp hage))
    have hids : a.id = b.id := by
      by_contra hids
      simp only [c, if_neg hids, if_pos] at hrank
      omega
    exact hne (List.inj_on_of_nodup_map (hdb.splitIds e hmem) ha hb hids)
  · omega

/-- An update of the description or the date alone moves no money exactly when it is refused, or the
split is an exact one, or whoever owes more has an older row. -/
theorem keepsMoney_iff {cfg : (expenseSystem lib).Config}
    (hreach : (expenseSystem lib).Reachable (fun w => w.db.expenses = []) cfg)
    (hdb : cfg.hist.world.db.Constrained) (he : cfg.hist.world.db.expense? e.id = some e)
    (hinput : input.Cosmetic) :
    KeepsMoney lib cfg.hist.world requesterId e input ↔
      requesterId ∉ cfg.hist.world.db.memberIds e.groupId ∨
        e.paidById ∉ cfg.hist.world.db.memberIds e.groupId ∨ e.splitType = .exact ∨
          e.LargerOlder := by
  have hmem : e ∈ cfg.hist.world.db.expenses := List.mem_of_find?_eq_some he
  have hwell : e.WellFormed := table_of_reachable storable_wellFormed hreach e hmem
  have hequal : e.EquallySplit := table_of_reachable storable_equallySplit hreach e hmem
  obtain ⟨-, hpayer, hsame, -⟩ := id hinput
  constructor
  · intro hkeeps
    by_contra hnot
    push Not at hnot
    obtain ⟨hrequester, hmember, hexact, hage⟩ := hnot
    have htype : e.splitType = .equal := by
      cases ht : e.splitType with
      | equal => rfl
      | exact => exact absurd ht hexact
    -- Otherwise the update goes through, and some order of ties moves an amount.
    refine exists_moves hdb he hwell.amount_pos htype hinput ?_ hage hkeeps
    rintro (hrefused | hrefused | ⟨-, ht, -⟩)
    · exact hrefused hrequester
    · rw [hpayer, Option.getD_none] at hrefused
      exact hrefused hmember
    · rw [hsame, Option.getD_none] at ht
      exact hexact ht
  · intro hcond r w' hexec
    -- A refused update changes nothing, and a kept split is computed to the same shares.
    apply hexec.sound
    apply updateExpense_alone he
    · intro err y hy
      rw [hy]
      exact ⟨⟨e, he, fun u amount => Iff.rfl⟩, fun groupId u => rfl⟩
    · intro r y hamends
      apply hamends.keeps hdb he hinput
      intro c memberIds splits hsplits
      apply nextSplits_cosmetic hwell.amount_pos hequal hinput ?_ hsplits
      rcases hcond with hrefused | hrefused | hkept
      · exact absurd hamends.requester hrefused
      · have hmember := hamends.payer
        rw [hpayer, Option.getD_none] at hmember
        exact absurd hmember hrefused
      · exact hkept

end

/-- User 1 shares an amount equally with users 2 and 3. -/
def shareAmong (amount : ℤ) : List (System.Action (expenseSystem .plain)) :=
  .spawn (.createExpense 1
    ⟨10, "Dinner", amount, 1, .equal, [⟨1, none⟩, ⟨2, none⟩, ⟨3, none⟩], none⟩) ::
    List.replicate 5 (.op 0 {})

/-- The database returns rows of one `createdAt` from the last one to the first one. -/
def latestFirst : Choice := { rank := fun id => 100 - id }

/-- Of 1000 the first user owes 334. After an update of the description the third one does. -/
theorem not_keepsMoney : ∃ cfg e,
    (expenseSystem .plain).Reachable (fun w => w.db.expenses = []) cfg ∧
    cfg.hist.world.db.expense? e.id = some e ∧
    ¬KeepsMoney .plain cfg.hist.world 2 e { description := some "Lunch" } := by
  let update := ExpenseService.updateExpense 2 20 { description := some "Lunch" }
  obtain ⟨cfg, hplay, hsome, hbefore, hafter⟩ : ∃ cfg,
      (expenseSystem .plain).play (shareAmong 1000) ((expenseSystem .plain).start threeMembers) =
        some cfg ∧
      (cfg.hist.world.db.expense? 20).isSome = true ∧
      (∀ e ∈ cfg.hist.world.db.expense? 20, e.id = 20 ∧ e.Owes 3 333) ∧
      ∀ e ∈ ((machine .plain).run latestFirst update cfg.hist.world).2.db.expense? 20,
        ¬e.Owes 3 333 := System.exists_of_play (by decide +kernel)
  obtain ⟨e, he⟩ := Option.isSome_iff_exists.mp hsome
  obtain ⟨hid, howes⟩ := hbefore e he
  refine ⟨cfg, e, System.reachable_of_play (fun _ _ _ => trivial) (.start rfl) hplay, ?_, ?_⟩
  · rw [hid]
    exact he
  intro hkeeps
  unfold KeepsMoney at hkeeps
  rw [hid] at hkeeps
  -- The play only says what the update comes to, so it is turned into an execution.
  have hexec := (machine .plain).exec_run World.later_refl latestFirst update cfg.hist.world
  obtain ⟨⟨e', he', hsame⟩, -⟩ := hkeeps _ _ hexec
  exact hafter e' he' ((hsame 3 333).mpr howes)

/-- Of 900 everyone owes 300. -/
theorem keepsMoney_even : ∃ cfg e,
    (expenseSystem .plain).play (shareAmong 900) ((expenseSystem .plain).start threeMembers) =
      some cfg ∧
    KeepsMoney .plain cfg.hist.world 2 e { description := some "Lunch" } := by
  obtain ⟨cfg, hplay, hsome, hconstrained, holder⟩ : ∃ cfg,
      (expenseSystem .plain).play (shareAmong 900) ((expenseSystem .plain).start threeMembers) =
        some cfg ∧
      (cfg.hist.world.db.expense? 20).isSome = true ∧ cfg.hist.world.db.Constrained ∧
      ∀ e ∈ cfg.hist.world.db.expense? 20, e.id = 20 ∧ e.LargerOlder :=
    System.exists_of_play (by decide +kernel)
  obtain ⟨e, he⟩ := Option.isSome_iff_exists.mp hsome
  obtain ⟨hid, holder⟩ := holder e he
  rw [← hid] at he
  have hreach : (expenseSystem .plain).Reachable (fun w => w.db.expenses = []) cfg :=
    System.reachable_of_play (fun _ _ _ => trivial) (.start rfl) hplay
  refine ⟨cfg, e, hplay, (keepsMoney_iff hreach hconstrained he ?_).mpr ?_⟩
  · exact ⟨rfl, rfl, rfl, rfl⟩
  · exact .inr (.inr (.inr holder))

end SplitBill
