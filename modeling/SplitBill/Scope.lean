import SplitBill.Calls

/-!
# The calls on groups and the tables that they reach

`GroupCall` is every service call that names a group, or an expense or a settlement of one. Any
number of them may overlap, with each other and with the creation of groups. `Sound` is what all of
them keep: the owner of a group is a member of it, and ids are those of one row. Only
`removeGroupMember` needs an argument, since it compares the member with an owner that it read
before: a group keeps its owner, and an id is never given to a second group.
-/

namespace SplitBill

open Interleave

/-- The service calls that belong to a group. -/
inductive GroupCall
  | getGroupById (userId groupId : Id)
  | updateGroup (userId groupId : Id) (name : String)
  | deleteGroup (userId groupId : Id)
  | addGroupMember (userId groupId memberId : Id)
  | removeGroupMember (userId groupId memberId : Id)
  | createExpense (requesterId : Id) (input : CreateExpenseInput)
  | getExpenseById (requesterId expenseId : Id)
  | updateExpense (requesterId expenseId : Id) (input : UpdateExpenseInput)
  | deleteExpense (requesterId expenseId : Id)
  | getGroupExpenses (requesterId groupId : Id) (pagination : Option (ℕ × ℕ))
  | getGroupBalances (requesterId groupId : Id)
  | createSettlement (requesterId : Id) (input : CreateSettlementInput)
      (idempotency : IdempotencyContext)
  | getSettlementById (requesterId settlementId : Id)
  | getGroupSettlements (requesterId groupId : Id) (pagination : Option (ℕ × ℕ))
  | getGroupActivity (requesterId groupId : Id) (page limit : ℕ)
  | getGroupSummary (requesterId groupId : Id)
  | enqueueGroupSummaryRecompute (requesterId groupId : Id) (requestId : Option String)

namespace GroupCall

/-- The program of a call. -/
def body (env : Env) (lib : Lib) : GroupCall → Act Unit
  | getGroupById userId groupId => void (GroupService.getGroupById env lib userId groupId)
  | updateGroup userId groupId name => void (GroupService.updateGroup userId groupId name)
  | deleteGroup userId groupId => void (GroupService.deleteGroup userId groupId)
  | addGroupMember userId groupId memberId =>
    void (GroupService.addGroupMember userId groupId memberId)
  | removeGroupMember userId groupId memberId =>
    void (GroupService.removeGroupMember userId groupId memberId)
  | createExpense requesterId input => void (ExpenseService.createExpense requesterId input)
  | getExpenseById requesterId expenseId =>
    void (ExpenseService.getExpenseById requesterId expenseId)
  | updateExpense requesterId expenseId input =>
    void (ExpenseService.updateExpense requesterId expenseId input)
  | deleteExpense requesterId expenseId => void (ExpenseService.deleteExpense requesterId expenseId)
  | getGroupExpenses requesterId groupId pagination =>
    void (ExpenseService.getGroupExpenses requesterId groupId pagination)
  | getGroupBalances requesterId groupId =>
    void (SettlementService.getGroupBalances requesterId groupId)
  | createSettlement requesterId input idempotency =>
    void (SettlementService.createSettlement env requesterId input idempotency)
  | getSettlementById requesterId settlementId =>
    void (SettlementService.getSettlementById requesterId settlementId)
  | getGroupSettlements requesterId groupId pagination =>
    void (SettlementService.getGroupSettlements requesterId groupId pagination)
  | getGroupActivity requesterId groupId page limit =>
    void (ActivityService.getGroupActivity requesterId groupId page limit)
  | getGroupSummary requesterId groupId =>
    void (SummaryService.getGroupSummary requesterId groupId)
  | enqueueGroupSummaryRecompute requesterId groupId requestId =>
    void (SummaryService.enqueueGroupSummaryRecompute env requesterId groupId requestId)

end GroupCall

/-! ## Sound tables -/

/-- What every call keeps: owners are members, and the ids of groups and expenses are drawn ones,
each of one row. -/
structure Sound (db : Db) : Prop where
  /-- The owner of a group is a member. -/
  owner : ∀ g ∈ db.groups, g.createdById ∈ db.memberIds g.id
  group_lt : ∀ g ∈ db.groups, g.id < db.nextId
  group_owner : ∀ g ∈ db.groups, ∀ g' ∈ db.groups, g.id = g'.id → g.createdById = g'.createdById
  expense_lt : ∀ e ∈ db.expenses, e.id < db.nextId
  expense_nodup : (db.expenses.map (·.id)).Nodup

/-- What a step may do to the tables: it draws ids, never gives a group another owner, and keeps
them sound. -/
structure Moves (d d' : Db) : Prop where
  nextId : d.nextId ≤ d'.nextId
  group : ∀ g' ∈ d'.groups, g'.id < d.nextId →
    ∃ g ∈ d.groups, g.id = g'.id ∧ g.createdById = g'.createdById
  sound : Sound d → Sound d'

/-- Doing nothing is such a step. -/
theorem Moves.refl (d : Db) : Moves d d :=
  ⟨le_refl _, fun g hg _ => ⟨g, hg, rfl, rfl⟩, fun h => h⟩

/-- Two such steps are one. -/
theorem Moves.trans {a b c : Db} (hab : Moves a b) (hbc : Moves b c) : Moves a c := by
  refine ⟨le_trans hab.nextId hbc.nextId, fun g hg hlt => ?_, fun h => hbc.sound (hab.sound h)⟩
  obtain ⟨g₁, hg₁, hid₁, howner₁⟩ := hbc.group g hg (lt_of_lt_of_le hlt hab.nextId)
  obtain ⟨g₂, hg₂, hid₂, howner₂⟩ := hab.group g₁ hg₁ (hid₁ ▸ hlt)
  exact ⟨g₂, hg₂, hid₂.trans hid₁, howner₂.trans howner₁⟩

section Moves

variable {d d' : Db}

/-- A step that leaves groups and memberships alone, and what it does to the expenses. -/
theorem Moves.of_expenses (hg : d'.groups = d.groups) (hm : d'.groupMembers = d.groupMembers)
    (hn : d.nextId ≤ d'.nextId)
    (hids : Sound d → (∀ e ∈ d'.expenses, e.id < d'.nextId) ∧ (d'.expenses.map (·.id)).Nodup) :
    Moves d d' := by
  refine ⟨hn, fun g' hg' _ => ⟨g', hg ▸ hg', rfl, rfl⟩, fun h => ?_⟩
  refine ⟨fun g hmem => ?_, fun g hmem => ?_, ?_, (hids h).1, (hids h).2⟩
  · unfold Db.memberIds Db.membersOf
    rw [hm]
    exact h.owner g (hg ▸ hmem)
  · exact lt_of_lt_of_le (h.group_lt g (hg ▸ hmem)) hn
  · rw [hg]
    exact h.group_owner

/-- A step that leaves groups, memberships and expenses alone. -/
theorem Moves.of_eq (hg : d'.groups = d.groups) (hm : d'.groupMembers = d.groupMembers)
    (he : d'.expenses = d.expenses) (hn : d.nextId ≤ d'.nextId) : Moves d d' := by
  refine .of_expenses hg hm hn fun h => ?_
  rw [he]
  exact ⟨fun e hmem => lt_of_lt_of_le (h.expense_lt e hmem) hn, h.expense_nodup⟩

/-- A member who is added. -/
theorem Moves.addMember {m : GroupMember} (hg : d'.groups = d.groups)
    (hm : d'.groupMembers = m :: d.groupMembers) (he : d'.expenses = d.expenses)
    (hn : d.nextId ≤ d'.nextId) : Moves d d' := by
  refine ⟨hn, fun g' hg' _ => ⟨g', hg ▸ hg', rfl, rfl⟩, fun h => ?_⟩
  refine ⟨fun g hmem => ?_, fun g hmem => ?_, ?_, fun e hmem => ?_, he ▸ h.expense_nodup⟩
  · obtain ⟨n, hn, huser⟩ := List.mem_map.mp (h.owner g (hg ▸ hmem))
    obtain ⟨hn, hgroup⟩ := List.mem_filter.mp hn
    refine List.mem_map.mpr ⟨n, List.mem_filter.mpr ⟨?_, hgroup⟩, huser⟩
    rw [hm]
    exact List.mem_cons_of_mem _ hn
  · exact lt_of_lt_of_le (h.group_lt g (hg ▸ hmem)) hn
  · rw [hg]
    exact h.group_owner
  · exact lt_of_lt_of_le (h.expense_lt e (he ▸ hmem)) hn

/-- `createGroup` draws the new group's id. -/
theorem createGroup_moves {now : Time} {ownerId : Id} {name : String} {a : ActivityEventInput}
    {g : Group} (heval : (createGroupWithOwner now ownerId name a).eval d = .ok (g, d')) :
    Moves d d' := by
  obtain ⟨event, hg, -, -, rfl⟩ := createGroupWithOwner_eq_ok heval
  have hid : g.id = d.nextId := by rw [hg]
  have howner : g.createdById = ownerId := by rw [hg]
  refine ⟨Nat.le_add_right _ 3, fun g' hg' hlt => ?_, fun h => ?_⟩
  · rcases List.mem_cons.mp hg' with rfl | hg'
    · exact absurd hid hlt.ne
    · exact ⟨g', hg', rfl, rfl⟩
  · refine ⟨fun g' hmem => ?_, fun g' hmem => ?_, ?_, fun e hmem => ?_, h.expense_nodup⟩
    · rcases List.mem_cons.mp hmem with rfl | hmem
      · exact List.mem_map.mpr ⟨_, List.mem_filter.mpr ⟨List.mem_cons_self, by simp⟩, howner.symm⟩
      · obtain ⟨n, hn, huser⟩ := List.mem_map.mp (h.owner g' hmem)
        obtain ⟨hn, hgroup⟩ := List.mem_filter.mp hn
        exact List.mem_map.mpr
          ⟨n, List.mem_filter.mpr ⟨List.mem_cons_of_mem _ hn, hgroup⟩, huser⟩
    · rcases List.mem_cons.mp hmem with rfl | hmem
      · exact lt_of_le_of_lt hid.le (Nat.lt_add_of_pos_right (by decide))
      · exact lt_of_lt_of_le (h.group_lt g' hmem) (Nat.le_add_right _ 3)
    · -- The new group's id is no old group's.
      intro g₁ h₁ g₂ h₂ heq
      rcases List.mem_cons.mp h₁ with rfl | hold₁ <;> rcases List.mem_cons.mp h₂ with rfl | hold₂
      · rfl
      · exact absurd (heq.symm.trans hid) (h.group_lt g₂ hold₂).ne
      · exact absurd (heq.trans hid) (h.group_lt g₁ hold₁).ne
      · exact h.group_owner g₁ hold₁ g₂ hold₂ heq
    · exact lt_of_lt_of_le (h.expense_lt e hmem) (Nat.le_add_right _ 3)

/-- A rename keeps the owner. -/
theorem UpdatesGroup.moves {groupId : Id} {name : String} (hc : UpdatesGroup groupId name d d') :
    Moves d d' := by
  obtain ⟨now, a, g, heval⟩ := hc
  obtain ⟨old, event, -, -, -, rfl⟩ := updateGroupWithEvent_eq_ok heval
  -- A renamed group has its old id and owner.
  have hold : ∀ g' ∈ updateWhere (·.id = groupId)
      (fun g : Group => { g with name, updatedAt := now }) d.groups,
      ∃ g ∈ d.groups, g.id = g'.id ∧ g.createdById = g'.createdById := by
    intro g' hg'
    obtain ⟨x, hx, ⟨-, rfl⟩ | ⟨-, rfl⟩⟩ := mem_updateWhere.mp hg'
    · exact ⟨x, hx, rfl, rfl⟩
    · exact ⟨x, hx, rfl, rfl⟩
  refine ⟨Nat.le_succ _, fun g' hg' _ => hold g' hg', fun h => ?_⟩
  refine ⟨fun g' hmem => ?_, fun g' hmem => ?_, ?_, fun e hmem => ?_, h.expense_nodup⟩
  · obtain ⟨g, hg, hid, howner⟩ := hold g' hmem
    rw [← howner, ← hid]
    exact h.owner g hg
  · obtain ⟨g, hg, hid, -⟩ := hold g' hmem
    exact hid ▸ lt_of_lt_of_le (h.group_lt g hg) (Nat.le_succ _)
  · intro g₁ h₁ g₂ h₂ heq
    obtain ⟨x₁, hx₁, hid₁, howner₁⟩ := hold g₁ h₁
    obtain ⟨x₂, hx₂, hid₂, howner₂⟩ := hold g₂ h₂
    rw [← howner₁, ← howner₂]
    exact h.group_owner x₁ hx₁ x₂ hx₂ (hid₁.trans (heq.trans hid₂.symm))
  · exact lt_of_lt_of_le (h.expense_lt e hmem) (Nat.le_succ _)

/-- A deletion takes the rows of the group along. -/
theorem DeletesGroup.moves {groupId : Id} (hc : DeletesGroup groupId d d') : Moves d d' := by
  obtain rfl := Prisma.groupDelete_eq_ok hc
  refine ⟨le_refl _, fun g' hg' _ => ⟨g', (List.mem_filter.mp hg').1, rfl, rfl⟩, fun h => ?_⟩
  refine ⟨fun g hmem => ?_, fun g hmem => h.group_lt g (List.mem_filter.mp hmem).1,
    fun g₁ h₁ g₂ h₂ => h.group_owner g₁ (List.mem_filter.mp h₁).1 g₂ (List.mem_filter.mp h₂).1,
    fun e hmem => h.expense_lt e (List.mem_filter.mp hmem).1,
    h.expense_nodup.sublist (List.filter_sublist.map _)⟩
  -- The memberships of another group stay.
  obtain ⟨hmem, hne⟩ := List.mem_filter.mp hmem
  obtain ⟨n, hn, huser⟩ := List.mem_map.mp (h.owner g hmem)
  obtain ⟨hn, hgroup⟩ := List.mem_filter.mp hn
  refine List.mem_map.mpr ⟨n, List.mem_filter.mpr ⟨List.mem_filter.mpr ⟨hn, ?_⟩, hgroup⟩, huser⟩
  rw [of_decide_eq_true hgroup]
  exact hne

/-- The member who is removed is not the owner. -/
theorem removeGroupMember_moves {now : Time} {groupId memberId : Id} {a : ActivityEventInput}
    {r : Unit} (hne : ∀ g ∈ d.groups, g.id = groupId → memberId ≠ g.createdById)
    (heval : (removeGroupMemberWithEvent now groupId memberId a).eval d = .ok (r, d')) :
    Moves d d' := by
  obtain ⟨event, -, -, rfl⟩ := removeGroupMemberWithEvent_eq_ok heval
  refine ⟨Nat.le_succ _, fun g' hg' _ => ⟨g', hg', rfl, rfl⟩, fun h => ?_⟩
  refine ⟨fun g hmem => ?_, fun g hmem => lt_of_lt_of_le (h.group_lt g hmem) (Nat.le_succ _),
    h.group_owner, fun e hmem => lt_of_lt_of_le (h.expense_lt e hmem) (Nat.le_succ _),
    h.expense_nodup⟩
  obtain ⟨n, hn, huser⟩ := List.mem_map.mp (h.owner g hmem)
  obtain ⟨hn, hgroup⟩ := List.mem_filter.mp hn
  refine List.mem_map.mpr ⟨n, List.mem_filter.mpr ⟨List.mem_filter.mpr ⟨hn, ?_⟩, hgroup⟩, huser⟩
  rw [decide_eq_true_eq, not_and]
  rintro hid rfl
  exact hne g hmem ((of_decide_eq_true hgroup).symm.trans hid) huser

/-- A new expense gets an id that no other has. -/
theorem createExpense_moves {c : Choice} {now : Time} {data : Prisma.CreateExpenseData}
    {a : ActivityEventInput} {r : ExpenseWithDetails}
    (heval : (createExpenseWithSplits c now data a).eval d = .ok (r, d')) : Moves d d' := by
  obtain ⟨e, db₁, event, hcreate, -, rfl, -⟩ := createExpenseWithSplits_eq_ok heval
  obtain ⟨-, he, rfl⟩ := Prisma.expenseCreate_eq_ok hcreate
  have hid : e.id = d.nextId := by rw [he]
  have hlt : d.nextId < d.nextId + 1 + data.splits.length + 1 :=
    Nat.lt_succ_of_le (le_trans (Nat.le_succ _) (Nat.le_add_right _ _))
  refine .of_expenses rfl rfl hlt.le fun h => ⟨fun e' hmem => ?_, ?_⟩
  · rcases List.mem_cons.mp hmem with rfl | hmem
    · exact hid ▸ hlt
    · exact (h.expense_lt e' hmem).trans hlt
  · rw [List.map_cons, List.nodup_cons]
    refine ⟨fun hmem => ?_, h.expense_nodup⟩
    obtain ⟨e', he', heq⟩ := List.mem_map.mp hmem
    exact absurd (heq.trans hid) (h.expense_lt e' he').ne

/-- A changed expense keeps its id and its group. -/
theorem updateExpense_moves {c : Choice} {now : Time} {expenseId : Id}
    {data : Prisma.UpdateExpenseData} {a : ActivityEventInput} {r : ExpenseWithDetails}
    (heval : (updateExpenseWithSplits c now expenseId data a).eval d = .ok (r, d')) :
    Moves d d' := by
  obtain ⟨e, db₁, event, hupdate, -, rfl, -⟩ := updateExpenseWithSplits_eq_ok heval
  obtain ⟨-, -, -, -, -, rfl⟩ := Prisma.expenseUpdate_eq_ok hupdate
  have hle : d.nextId ≤ d.nextId + data.splits.length + 1 :=
    le_trans (Nat.le_add_right _ _) (Nat.le_succ _)
  refine .of_expenses rfl rfl hle fun h => ⟨fun e' hmem => ?_, ?_⟩
  · obtain ⟨x, hx, ⟨-, rfl⟩ | ⟨-, rfl⟩⟩ := mem_updateWhere.mp hmem
    · exact lt_of_lt_of_le (h.expense_lt x hx) hle
    · exact lt_of_lt_of_le (h.expense_lt x hx) hle
  · have hid : ∀ e, (data.applyTo now d.nextId e).id = e.id := fun _ => rfl
    have hids : (updateWhere (·.id = expenseId) (data.applyTo now d.nextId) d.expenses).map (·.id) =
        d.expenses.map (·.id) := map_updateWhere hid _
    exact hids ▸ h.expense_nodup

/-- A deletion leaves fewer expenses. -/
theorem deleteExpense_moves {now : Time} {expenseId : Id} {a : ActivityEventInput} {r : Unit}
    (heval : (deleteExpenseWithEvent now expenseId a).eval d = .ok (r, d')) : Moves d d' := by
  obtain ⟨e, event, -, -, rfl⟩ := deleteExpenseWithEvent_eq_ok heval
  refine .of_expenses rfl rfl (Nat.le_succ _) fun h =>
    ⟨fun e' hmem => ?_, h.expense_nodup.sublist (List.filter_sublist.map _)⟩
  exact lt_of_lt_of_le (h.expense_lt e' (List.mem_filter.mp hmem).1) (Nat.le_succ _)

/-- A settlement leaves groups, members and expenses. -/
theorem ClaimsAndSettles.moves {input : CreateSettlementInput} (hc : ClaimsAndSettles input d d') :
    Moves d d' := by
  obtain ⟨existing, data, context, a, expiresAt, now, s, -, -, -, heval⟩ := hc
  obtain ⟨-, -, event, records, -, -, rfl⟩ := claimAndSettle_eq_ok heval
  exact .of_eq rfl rfl rfl (Nat.le_add_right _ 3)

end Moves

/-! ## Calls side by side -/

/-- The transactions of the calls, each with the event that it records, but for the removal of a
member. -/
inductive Transaction : DbOp → Prop
  | createGroup {ownerId : Id} {name : String} {a : ActivityEventInput}
      (ha : a.type = .groupCreated) :
      Transaction (.group (.createGroupWithOwner ownerId name a))
  | updateGroup {id : Id} {name : String} {a : ActivityEventInput} (ha : a.type = .groupUpdated) :
      Transaction (.group (.updateGroup id name a))
  | deleteGroup {id : Id} : Transaction (.group (.deleteGroup id))
  | addGroupMember {groupId memberId : Id} {a : ActivityEventInput} (ha : a.type = .memberAdded) :
      Transaction (.group (.addGroupMember groupId memberId a))
  | createExpense {data : Prisma.CreateExpenseData} {a : ActivityEventInput}
      (ha : a.type = .expenseAdded) : Transaction (.expense (.createExpenseWithSplits data a))
  | updateExpense {id : Id} {data : Prisma.UpdateExpenseData} {a : ActivityEventInput}
      (ha : a.type = .expenseUpdated) :
      Transaction (.expense (.updateExpenseWithSplits id data a))
  | deleteExpense {id : Id} {a : ActivityEventInput} (ha : a.type = .expenseDeleted) :
      Transaction (.expense (.deleteExpenseWithEvent id a))
  | settle {existing : Option Id} {data : Prisma.SettlementCreateData}
      {context : IdempotencyContext} {a : ActivityEventInput} {expiresAt : Time}
      (ha : a.type = .settlementAdded) :
      Transaction (.settlement (.claimAndSettle existing data context a expiresAt))

/-- The removal of a member. -/
inductive Removal : DbOp → Prop
  | removeGroupMember {groupId memberId : Id} {a : ActivityEventInput}
      (ha : a.type = .memberRemoved) :
      Removal (.group (.removeGroupMember groupId memberId a))

/-- What each of these transactions may do to the tables. -/
theorem Transaction.moves {o : DbOp} (ho : Transaction o)
    {t : Choice → Time → Tx Db Err Metric o.Res} (ht : o.access = .write t) {c : Choice}
    {now : Time} {d d' : Db} {r : o.Res} (heval : (t c now).eval d = .ok (r, d')) :
    Moves d d' := by
  cases ho <;> obtain rfl := Access.write.inj ht
  case createGroup => exact createGroup_moves heval
  case updateGroup => exact UpdatesGroup.moves ⟨now, _, r, heval⟩
  case deleteGroup => exact DeletesGroup.moves heval
  case addGroupMember =>
    obtain ⟨event, -, -, -, -, rfl⟩ := addGroupMemberWithEvent_eq_ok heval
    exact .addMember rfl rfl rfl (Nat.le_add_right _ 2)
  case createExpense => exact createExpense_moves heval
  case updateExpense => exact updateExpense_moves heval
  case deleteExpense => exact deleteExpense_moves heval
  case settle =>
    obtain ⟨-, -, event, records, -, -, rfl⟩ := claimAndSettle_eq_ok heval
    exact .of_eq rfl rfl rfl (Nat.le_add_right _ 3)

/-- The program issues queries and these transactions only. -/
abbrev Issuing {α : Type} (p : Act α) : Prop := p.Issues (Op.OnDb (ReadsOr Transaction))

section Issuing

variable {α β : Type}

/-- A query, and what follows it. -/
theorem issuing_read {o : DbOp} {f : Choice → Db → o.Res} (ho : o.access = .read f)
    {g : o.Res → Act α} (hg : ∀ r, Issuing (g r)) : Issuing ((Op.perform (.db o)).bind g) :=
  .bind (issues_op (.inl ⟨f, ho⟩)) hg

/-- One of these transactions, and what follows it. -/
theorem issuing_write {o : DbOp} (ho : Transaction o) {g : o.Res → Act α}
    (hg : ∀ r, Issuing (g r)) : Issuing ((Op.perform (.db o)).bind g) :=
  .bind (issues_op (.inr ho)) hg

/-- A check of an optional value, and what follows it. -/
theorem issuing_expect {a : Option β} {e : Err} {g : β → Act α} (hg : ∀ b, Issuing (g b)) :
    Issuing ((Prog.expect a e).bind g) :=
  .bind (Prog.issues_expect _ _ _) hg

/-- A check, and what follows it. -/
theorem issuing_ensure {p : Prop} [Decidable p] {e : Err} {g : Unit → Act α}
    (hg : Issuing (g ())) : Issuing ((Prog.ensure p e).bind g) :=
  .bind (Prog.issues_ensure _ _ _) fun _ => hg

end Issuing

section Calls

variable {lib : Lib} {env : Env}

/-- `createGroup` writes in one transaction. -/
theorem createGroup_issuing (userId : Id) (name : String) :
    Issuing (GroupService.createGroup userId name) :=
  issuing_write (.createGroup rfl) fun _ =>
    .bind (issues_op trivial) fun _ => trivial

/-- `getGroupById` writes nothing to the database. -/
theorem getGroupById_issuing (userId groupId : Id) :
    Issuing (GroupService.getGroupById env lib userId groupId) := by
  refine .bind (.bind (.attempt (issues_op trivial)) fun r => ?_) fun cached => ?_
  · rcases r with e | _ | raw
    · exact .bind (issues_op trivial) fun _ => trivial
    · trivial
    · trivial
  · cases cached with
    | some cached => exact issuing_read rfl fun _ => issuing_ensure trivial
    | none =>
      refine issuing_read rfl fun _ => issuing_expect fun group => issuing_read rfl fun _ =>
        issuing_ensure (.bind (.bind (.attempt (issues_op trivial)) fun r => ?_) fun _ => trivial)
      cases r
      · exact issues_op trivial
      · trivial

/-- `updateGroup` writes in one transaction. -/
theorem updateGroup_issuing (userId groupId : Id) (name : String) :
    Issuing (GroupService.updateGroup userId groupId name) := by
  refine issuing_read rfl fun _ => issuing_expect fun _ => issuing_ensure ?_
  refine .bind (issuing_read rfl fun existing => ?_) fun updated => issuing_expect fun _ =>
    .bind (GroupCache.issues_invalidateGroupCache _ _) fun _ => trivial
  split
  · exact issuing_write (.updateGroup rfl) fun _ => trivial
  · trivial

/-- `deleteGroup` writes in one transaction. -/
theorem deleteGroup_issuing (userId groupId : Id) :
    Issuing (GroupService.deleteGroup userId groupId) :=
  issuing_read rfl fun _ => issuing_expect fun _ => issuing_ensure
    (issuing_write .deleteGroup fun _ => GroupCache.issues_invalidateGroupCache _ _)

/-- `addGroupMember` writes in one transaction. -/
theorem addGroupMember_issuing (userId groupId memberId : Id) :
    Issuing (GroupService.addGroupMember userId groupId memberId) :=
  issuing_read rfl fun _ => issuing_expect fun _ => issuing_ensure <| issuing_read rfl fun _ =>
    issuing_expect fun _ => issuing_read rfl fun _ => issuing_ensure <|
      issuing_write (.addGroupMember rfl) fun _ =>
        .bind (GroupCache.issues_invalidateGroupCache _ _) fun _ => trivial

/-- `createExpense` writes in one transaction. -/
theorem createExpense_issuing (requesterId : Id) (input : CreateExpenseInput) :
    Issuing (ExpenseService.createExpense requesterId input) := by
  refine issuing_read rfl fun _ => issuing_expect fun _ => issuing_read rfl fun _ =>
    issuing_ensure (issuing_ensure (.bind (Prog.issues_ofExcept _ _) fun _ => .bind ?_ fun date =>
      issuing_write (.createExpense rfl) fun _ =>
        .bind (issues_op trivial) fun _ => trivial))
  cases input.expenseDate with
  | none => exact issues_op trivial
  | some date => trivial

/-- The check of the membership is a query. -/
theorem assertMemberOfGroup_issuing (requesterId groupId : Id) :
    Issuing (ExpenseService.assertMemberOfGroup requesterId groupId) :=
  issuing_read rfl fun _ => Prog.issues_ensure _ _ _

/-- `getExpenseById` writes nothing. -/
theorem getExpenseById_issuing (requesterId expenseId : Id) :
    Issuing (ExpenseService.getExpenseById requesterId expenseId) :=
  issuing_read rfl fun _ => issuing_expect fun _ =>
    .bind (assertMemberOfGroup_issuing _ _) fun _ => trivial

/-- `updateExpense` writes in one transaction. -/
theorem updateExpense_issuing (requesterId expenseId : Id) (input : UpdateExpenseInput) :
    Issuing (ExpenseService.updateExpense requesterId expenseId input) :=
  issuing_read rfl fun _ => issuing_expect fun _ => issuing_read rfl fun _ => issuing_ensure <|
    issuing_ensure <| .bind (Prog.issues_ofExcept _ _) fun _ =>
      issuing_write (.updateExpense rfl) fun _ =>
        .bind (issues_op trivial) fun _ => trivial

/-- `deleteExpense` writes in one transaction. -/
theorem deleteExpense_issuing (requesterId expenseId : Id) :
    Issuing (ExpenseService.deleteExpense requesterId expenseId) :=
  issuing_read rfl fun _ => issuing_expect fun _ => .bind (assertMemberOfGroup_issuing _ _) fun _ =>
    issuing_write (.deleteExpense rfl) fun _ => issues_op trivial

/-- `getGroupExpenses` writes nothing. -/
theorem getGroupExpenses_issuing (requesterId groupId : Id) (pagination : Option (ℕ × ℕ)) :
    Issuing (ExpenseService.getGroupExpenses requesterId groupId pagination) := by
  refine issuing_read rfl fun _ => issuing_expect fun _ =>
    .bind (assertMemberOfGroup_issuing _ _) fun _ =>
      .bind (ExpenseRepository.issues_findExpensesByGroupId (.inl ⟨_, rfl⟩) (.inl ⟨_, rfl⟩)
        trivial) fun r => ?_
  cases pagination <;> trivial

/-- `getGroupBalances` writes nothing. -/
theorem getGroupBalances_issuing (requesterId groupId : Id) :
    Issuing (SettlementService.getGroupBalances requesterId groupId) :=
  issuing_read rfl fun _ => issuing_expect fun _ => issuing_read rfl fun _ => issuing_ensure <|
    issuing_read rfl fun _ => issuing_read rfl fun _ => trivial

/-- `createSettlement` writes in one transaction. -/
theorem createSettlement_issuing (requesterId : Id) (input : CreateSettlementInput)
    (idempotency : IdempotencyContext) :
    Issuing (SettlementService.createSettlement env requesterId input idempotency) := by
  refine issuing_read rfl fun _ => issuing_expect fun _ => issuing_read rfl fun _ =>
    issuing_ensure <| issuing_ensure <| issuing_ensure <| issuing_ensure <|
      .tryCatch ?_ fun e => ?_
  · refine .bind (DistributedLock.issues_withLock (.bind (issues_op trivial) fun settledAt => ?_))
      fun s => .bind (issues_op trivial) fun _ => trivial
    exact SettlementRepository.issues_createSettlement (fun _ => .inl ⟨_, rfl⟩)
      (fun _ => .inl ⟨_, rfl⟩)
      fun existing expiresAt => .inr (.settle rfl)
  · split <;> trivial

/-- `getSettlementById` writes nothing. -/
theorem getSettlementById_issuing (requesterId settlementId : Id) :
    Issuing (SettlementService.getSettlementById requesterId settlementId) :=
  issuing_read rfl fun _ => issuing_expect fun _ =>
    .bind (issuing_read rfl fun _ => Prog.issues_ensure _ _ _) fun _ => trivial

/-- `getGroupSettlements` writes nothing. -/
theorem getGroupSettlements_issuing (requesterId groupId : Id) (pagination : Option (ℕ × ℕ)) :
    Issuing (SettlementService.getGroupSettlements requesterId groupId pagination) := by
  refine issuing_read rfl fun _ => issuing_expect fun _ =>
    .bind (issuing_read rfl fun _ => Prog.issues_ensure _ _ _) fun _ =>
      .bind (SettlementRepository.issues_findSettlementsByGroupId (.inl ⟨_, rfl⟩) (.inl ⟨_, rfl⟩)
        trivial) fun r => ?_
  cases pagination <;> trivial

/-- `getGroupActivity` writes nothing. -/
theorem getGroupActivity_issuing (requesterId groupId : Id) (page limit : ℕ) :
    Issuing (ActivityService.getGroupActivity requesterId groupId page limit) :=
  issuing_read rfl fun _ => issuing_expect fun _ => issuing_read rfl fun _ => issuing_ensure <|
    .bind (issues_promiseAll (issues_op (.inl ⟨_, rfl⟩)) (issues_op (.inl ⟨_, rfl⟩)) trivial)
      fun _ => trivial

/-- `getGroupSummary` writes nothing. -/
theorem getGroupSummary_issuing (requesterId groupId : Id) :
    Issuing (SummaryService.getGroupSummary requesterId groupId) :=
  issuing_read rfl fun _ => issuing_expect fun _ => issuing_read rfl fun _ => issuing_ensure <|
    issuing_read rfl fun _ => issuing_expect fun _ => trivial

/-- A request to recompute the summary writes nothing to the database. -/
theorem enqueueGroupSummaryRecompute_issuing (requesterId groupId : Id)
    (requestId : Option String) :
    Issuing (SummaryService.enqueueGroupSummaryRecompute env requesterId groupId requestId) := by
  refine issuing_read rfl fun _ => issuing_expect fun _ => issuing_read rfl fun _ =>
    issuing_ensure <|
    .bind (.attempt (.bind (JobQueue.issues_enqueue _ _ _ _ _ _) fun _ => trivial)) fun r => ?_
  rcases r with e | job
  · exact .bind (issues_op trivial) fun _ => trivial
  · trivial

end Calls

/-- A call beside others: a call on a group, or the creation of one. -/
inductive StoreCall
  | createGroup (userId : Id) (name : String)
  | group (c : GroupCall)

/-- The program of a call. -/
def StoreCall.body (env : Env) (lib : Lib) : StoreCall → Act Unit
  | createGroup userId name => void (GroupService.createGroup userId name)
  | group c => c.body env lib

/-- What else may happen to the tables: anything that leaves groups, memberships, expenses,
settlements and events alone. -/
structure Elsewhere (d d' : Db) : Prop where
  groups : d'.groups = d.groups
  members : d'.groupMembers = d.groupMembers
  expenses : d'.expenses = d.expenses
  settlements : d'.settlements = d.settlements
  events : d'.activityEvents = d.activityEvents
  nextId : d.nextId ≤ d'.nextId

/-- Any number of calls side by side. -/
def groupSystem (lib : Lib) (env : Env) : System backend Err Unit World where
  machine := machine lib
  Call := StoreCall
  body := StoreCall.body env lib
  valid := fun _ => True
  env := fun w w' => Elsewhere w.db w'.db

instance (lib : Lib) (env : Env) : DecidablePred (groupSystem lib env).valid :=
  fun _ => isTrue trivial

/-- What is left of `removeGroupMember` after its checks. -/
theorem removal_issues {P : DbOp → Prop} {userId groupId memberId : Id}
    (hP : ∀ a : ActivityEventInput, a.type = .memberRemoved →
      P (.group (.removeGroupMember groupId memberId a))) :
    Prog.Issues (Op.OnDb (ReadsOr P)) (do
      let member ← GroupRepository.findGroupMember groupId memberId
      let _ ← Prog.expect member (notFoundError .notGroupMember "Member not found in this group.")
      let targetUser ← GroupRepository.findUserById memberId
      let targetUser ← Prog.expect targetUser (notFoundError .userNotFound "User not found.")
      GroupRepository.removeGroupMember groupId memberId
        { userId, type := .memberRemoved,
          message := "removed " ++ targetUser.name ++ " from the group" }
      GroupCache.invalidateGroupCache groupId) := by
  refine .bind (issues_op (.inl ⟨_, rfl⟩)) fun _ => .bind (Prog.issues_expect _ _ _) fun _ => ?_
  refine .bind (issues_op (.inl ⟨_, rfl⟩)) fun _ => .bind (Prog.issues_expect _ _ _) fun _ => ?_
  exact .bind (issues_op (.inr (hP _ rfl))) fun _ => GroupCache.issues_invalidateGroupCache _ _

/-- The member whom a call removes was compared with the owner of the group, whom it still has. -/
theorem removeGroupMember_moves_wp {lib : Lib} {sys : System backend Err Unit World}
    (hm : sys.machine = machine lib) {pid : ℕ} {h : Hist backend Err World}
    (hsound : Sound h.world.db) (userId groupId memberId : Id) :
    wp (sys.discipline (OnTables Moves) (fun _ => True) pid) (fun _ _ => True)
      (GroupService.removeGroupMember userId groupId memberId) h := by
  have hs := stable_relation (R := Moves) hm Moves.refl (J := Sound)
    (fun _ _ hd hR => hR.sound hd) pid
  unfold GroupService.removeGroupMember
  refine wp_bind.mpr (hs.read (.group (.findGroupById _)) rfl hsound ?_ fun _ _ _ => trivial)
  intro c x₁ hx₁
  refine wp_expect_bind.mpr ⟨fun g hg => ?_, fun _ => trivial⟩
  refine wp_ensure_bind.mpr ⟨fun _ => ?_, fun _ => trivial⟩
  refine wp_ensure_bind.mpr ⟨fun hne => ?_, fun _ => trivial⟩
  have hmem : g ∈ x₁.world.db.groups := List.mem_of_find?_eq_some hg
  have hid : g.id = groupId := by simpa using List.find?_some hg
  -- From here on the tables are sound, and no group with this id has the member as its owner.
  let J : Db → Prop := fun d => Sound d ∧ groupId < d.nextId ∧
    ∀ g' ∈ d.groups, g'.id = groupId → memberId ≠ g'.createdById
  have hJ : ∀ d d', J d → Moves d d' → J d' := by
    rintro d d' ⟨hd, hlt, howner⟩ hR
    refine ⟨hR.sound hd, lt_of_lt_of_le hlt hR.nextId, fun g' hg' hid' => ?_⟩
    obtain ⟨g₀, hg₀, hid₀, howner₀⟩ := hR.group g' hg' (hid' ▸ hlt)
    exact howner₀ ▸ howner g₀ hg₀ (hid₀.trans hid')
  have hx₁' : J x₁.world.db := by
    refine ⟨hx₁, hid ▸ hx₁.group_lt g hmem, fun g' hg' hid' => ?_⟩
    exact hx₁.group_owner g hmem g' hg' (hid.trans hid'.symm) ▸ hne
  refine wp_mono (fun _ _ _ => trivial) ((stable_relation hm Moves.refl hJ pid).run
    (T := fun o => ∃ a, o = .group (.removeGroupMember groupId memberId a)) ?_
    (removal_issues fun a _ => ⟨a, rfl⟩) hx₁')
  rintro _ ⟨a, rfl⟩ t ht x y c now r hx heval
  obtain rfl := Access.write.inj ht
  have hR : Moves x.world.db y.world.db := removeGroupMember_moves hx.2.2 heval
  exact ⟨⟨hR, trivial⟩, hJ _ _ hx hR⟩

/-- **Every call on the store issues such steps only.** -/
theorem body_moves {lib : Lib} {env : Env} {pid : ℕ} {h : Hist backend Err World}
    (hsound : Sound h.world.db) (c : StoreCall) :
    wp ((groupSystem lib env).discipline (OnTables Moves) (fun _ => True) pid) (fun _ _ => True)
      (c.body env lib) h := by
  -- All calls but one issue these transactions and queries.
  have hissuing : ∀ {α : Type} {p : Act α}, Issuing p →
      wp ((groupSystem lib env).discipline (OnTables Moves) (fun _ => True) pid) (fun _ _ => True)
        (void p) h := by
    intro α p hp
    have hs : Stable lib ((groupSystem lib env).discipline (OnTables Moves) (fun _ => True) pid)
        (fun h => h.world.db) (fun _ => True) False :=
      stable_relation rfl Moves.refl (J := fun _ => True) (fun _ _ _ _ => trivial) pid
    refine wp_mono (fun _ _ _ => trivial)
      (hs.run (T := Transaction) ?_ (.bind hp fun _ => Prog.issues_ret _ _) trivial)
    exact fun o ho t ht x y c now r _ heval => ⟨⟨ho.moves ht heval, trivial⟩, trivial⟩
  cases c with
  | createGroup userId name => exact hissuing (createGroup_issuing _ _)
  | group c =>
    cases c with
    | getGroupById => exact hissuing (getGroupById_issuing _ _)
    | updateGroup => exact hissuing (updateGroup_issuing _ _ _)
    | deleteGroup => exact hissuing (deleteGroup_issuing _ _)
    | addGroupMember => exact hissuing (addGroupMember_issuing _ _ _)
    -- The owner is never the member who is removed.
    | removeGroupMember userId groupId memberId =>
      refine wp_bind.mpr (wp_mono ?_ (removeGroupMember_moves_wp rfl hsound _ _ _))
      rintro (_ | _) _ _ <;> trivial
    | createExpense => exact hissuing (createExpense_issuing _ _)
    | getExpenseById => exact hissuing (getExpenseById_issuing _ _)
    | updateExpense => exact hissuing (updateExpense_issuing _ _ _)
    | deleteExpense => exact hissuing (deleteExpense_issuing _ _)
    | getGroupExpenses => exact hissuing (getGroupExpenses_issuing _ _ _)
    | getGroupBalances => exact hissuing (getGroupBalances_issuing _ _)
    | createSettlement => exact hissuing (createSettlement_issuing _ _ _)
    | getSettlementById => exact hissuing (getSettlementById_issuing _ _)
    | getGroupSettlements => exact hissuing (getGroupSettlements_issuing _ _ _)
    | getGroupActivity => exact hissuing (getGroupActivity_issuing _ _ _ _)
    | getGroupSummary => exact hissuing (getGroupSummary_issuing _ _)
    | enqueueGroupSummaryRecompute =>
      exact hissuing (enqueueGroupSummaryRecompute_issuing _ _ _)

/-- The tables with which the runs begin: no group, and no row that belongs to one. -/
def NoGroups (w : World) : Prop :=
  w.db.groups = [] ∧ w.db.groupMembers = [] ∧ w.db.expenses = [] ∧ w.db.settlements = [] ∧
    w.db.activityEvents = []

/-- Without groups the database is sound. -/
theorem sound_of_noGroups {w : World} (h : NoGroups w) : Sound w.db := by
  obtain ⟨hg, -, he, -⟩ := h
  constructor
  · simp [hg]
  · simp [hg]
  · simp [hg]
  · simp [he]
  · simp [he]

/-- The tables of every reachable state are sound. In particular, owners are members. -/
theorem sound_of_reachable {lib : Lib} {env : Env} {cfg : (groupSystem lib env).Config}
    (h : (groupSystem lib env).Reachable NoGroups cfg) : Sound cfg.hist.world.db := by
  let out : (groupSystem lib env).Outline (OnTables Moves) NoGroups :=
    { I := fun h => Sound h.world.db
      refl := fun h => Moves.refl _
      trans := Moves.trans
      init := fun _ => sound_of_noGroups
      inv := fun _ _ hI hR => hR.sound hI
      env := fun h w hI henv => .of_eq henv.groups henv.members henv.expenses henv.nextId
      begins := fun _ _ _ _ _ => trivial
      steps := fun _ _ _ _ _ _ _ => trivial
      ends := fun _ _ _ _ _ _ _ _ => trivial
      body := fun pid c h hI _ _ => body_moves hI c }
  exact out.holds h

end SplitBill
