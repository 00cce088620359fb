import SplitBill.Isolation
import SplitBill.Interleave.Replay

/-!
# Who may change what in a group

Which call may write which row of a group, however the calls interleave. A call checks its requester
against what it reads, and writes later, when the check may be out of date; but it never writes
without the check. So the row of a group and its memberships are changed only by a call of someone
who was its owner when the call looked, its expenses and settlements only by a call of someone who
was a member then, or by the owner who deletes the group, and no settlement is ever changed.
Whoever is never a member leaves no trace in the rows of the group.
-/

namespace SplitBill

open Interleave

variable {lib : Lib} {env : Env}

/-- The user who sends a call. -/
def StoreCall.requester : StoreCall → Id
  | createGroup userId _ => userId
  | group c => c.requester

/-! ## What entitles a call -/

section

variable {l : List BackendEntry} {groupId userId : Id}

/-- The user was a member of the group when one of the entries was made. -/
def WasMember (l : List BackendEntry) (groupId userId : Id) : Prop :=
  ∃ e ∈ l, userId ∈ e.pre.db.memberIds groupId

/-- The user owned the group when one of the entries was made. -/
def WasOwner (l : List BackendEntry) (groupId userId : Id) : Prop :=
  ∃ e ∈ l, Owns e.pre.db groupId userId

/-- Who was read as a member stays so. -/
theorem WasMember.cons (h : WasMember l groupId userId) (e : BackendEntry) :
    WasMember (e :: l) groupId userId :=
  h.imp fun _ hx => ⟨List.mem_cons_of_mem e hx.1, hx.2⟩

/-- Who was read as the owner stays so. -/
theorem WasOwner.cons (h : WasOwner l groupId userId) (e : BackendEntry) :
    WasOwner (e :: l) groupId userId :=
  h.imp fun _ hx => ⟨List.mem_cons_of_mem e hx.1, hx.2⟩

/-- The user was a member of the group of the expense, as the call read it. -/
def SawExpense (l : List BackendEntry) (expenseId userId : Id) : Prop :=
  ∃ e ∈ l, ∃ x, e.pre.db.expense? expenseId = some x ∧ WasMember l x.groupId userId

/-- An expense that was read stays so. -/
theorem SawExpense.cons {expenseId : Id} (h : SawExpense l expenseId userId) (e : BackendEntry) :
    SawExpense (e :: l) expenseId userId := by
  obtain ⟨r, hr, x, hx, hmember⟩ := h
  exact ⟨r, List.mem_cons_of_mem e hr, x, hx, hmember.cons e⟩

end

/-- What the entries of a call entitle it to write. -/
inductive Permitted (l : List BackendEntry) : StoreCall → DbOp → Prop
  | createGroup (ownerId : Id) (name : String) (a : ActivityEventInput) :
    Permitted l (.createGroup ownerId name) (.group (.createGroupWithOwner ownerId name a))
  | updateGroup {userId groupId : Id} (name : String) (a : ActivityEventInput)
    (owner : WasOwner l groupId userId) :
    Permitted l (.group (.updateGroup userId groupId name)) (.group (.updateGroup groupId name a))
  | deleteGroup {userId groupId : Id} (owner : WasOwner l groupId userId) :
    Permitted l (.group (.deleteGroup userId groupId)) (.group (.deleteGroup groupId))
  | addGroupMember {userId groupId : Id} (memberId : Id) (a : ActivityEventInput)
    (owner : WasOwner l groupId userId) :
    Permitted l (.group (.addGroupMember userId groupId memberId))
      (.group (.addGroupMember groupId memberId a))
  | removeGroupMember {userId groupId memberId : Id} (a : ActivityEventInput)
    (owner : WasOwner l groupId userId) (other : memberId ≠ userId) :
    Permitted l (.group (.removeGroupMember userId groupId memberId))
      (.group (.removeGroupMember groupId memberId a))
  | createExpense {requesterId : Id} {input : CreateExpenseInput} (data : Prisma.CreateExpenseData)
    (a : ActivityEventInput) (group : data.groupId = input.groupId)
    (member : WasMember l input.groupId requesterId) :
    Permitted l (.group (.createExpense requesterId input))
      (.expense (.createExpenseWithSplits data a))
  | updateExpense {requesterId expenseId : Id} (input : UpdateExpenseInput)
    (data : Prisma.UpdateExpenseData) (a : ActivityEventInput)
    (member : SawExpense l expenseId requesterId) :
    Permitted l (.group (.updateExpense requesterId expenseId input))
      (.expense (.updateExpenseWithSplits expenseId data a))
  | deleteExpense {requesterId expenseId : Id} (a : ActivityEventInput)
    (member : SawExpense l expenseId requesterId) :
    Permitted l (.group (.deleteExpense requesterId expenseId))
      (.expense (.deleteExpenseWithEvent expenseId a))
  | createSettlement {requesterId : Id} {input : CreateSettlementInput}
    (idempotency : IdempotencyContext) (existing : Option Id) (data : Prisma.SettlementCreateData)
    (a : ActivityEventInput) (expiresAt : Time) (group : data.groupId = input.groupId)
    (member : WasMember l input.groupId requesterId) :
    Permitted l (.group (.createSettlement requesterId input idempotency))
      (.settlement (.claimAndSettle existing data idempotency a expiresAt))

/-- An operation that a call may issue: a query, or a transaction that it is entitled to. -/
def MayIssue (c : StoreCall) (l : List BackendEntry) : Op → Prop :=
  Op.OnDb (ReadsOr (Permitted l c))

section Programs

variable {pid : ℕ} {c : StoreCall} {l : List BackendEntry} {α : Type}

/-- A part of a call that writes only what something that the call has seen entitles it to. -/
theorem permitted_wp {I : List BackendEntry → Prop} {T : DbOp → Prop} {p : Act α}
    (hp : p.Issues (Op.OnDb (ReadsOr T))) (hI : ∀ l e, I l → I (e :: l))
    (hT : ∀ l o, I l → T o → Permitted l c o) (hl : I l) :
    wp ((machine lib).ownLog pid (MayIssue c)) (fun _ _ => True) p l := by
  refine wp_ownLog_of_issues (I := I) hp ?_ (fun l _ _ _ _ _ h _ _ => hI l _ h)
    (fun _ _ _ => trivial) hl
  intro l o h ho
  cases o with
  | db o => exact ho.imp_right (hT l o h)
  | _ => trivial

/-- A call that only reads. -/
theorem reads_wp {p : Act α} (hp : p.Issues (Op.OnDb (ReadsOr NoTransaction))) :
    wp ((machine lib).ownLog pid (MayIssue c)) (fun _ _ => True) p l :=
  permitted_wp (I := fun _ => True) hp (fun _ _ _ => trivial) (fun _ _ _ h => h.elim) trivial

/-- What a query found was there. -/
theorem answer_found {o : DbOp} {f : Choice → Db → o.Res} (ho : o.access = .read f) {w w' : World}
    {did : Except Err o.Res} {r : o.Res} (h : (machine lib).Answer (.db o) w did (.ok r) w') :
    ∃ c, r = f c w.db := by
  obtain ⟨-, ⟨c, hc⟩ | hc⟩ := answer_read ho h
  · exact ⟨c, Except.ok.inj hc⟩
  · cases hc

/-- A call that begins with the check that its requester owns the group. -/
theorem owner_wp {userId groupId : Id} {denial : Err} {rest : Group → Act α}
    (hrest : ∀ (g : Group) l, g.createdById = userId → WasOwner l groupId userId →
      wp ((machine lib).ownLog pid (MayIssue c)) (fun _ _ => True) (rest g) l) :
    wp ((machine lib).ownLog pid (MayIssue c)) (fun _ _ => True)
      ((GroupRepository.findGroupById groupId).bind fun group =>
        (Prog.expect group GroupService.groupNotFound).bind fun group =>
          (Prog.ensure (group.createdById = userId) denial).bind fun _ => rest group) l := by
  refine wp_ownLog_bind (fun _ _ => trivial) (.inl ⟨_, rfl⟩) fun w did group w' hans => ?_
  refine wp_expect_bind.mpr ⟨fun g hg => ?_, fun _ => trivial⟩
  refine wp_ensure_bind.mpr ⟨fun howner => ?_, fun _ => trivial⟩
  obtain ⟨ch, hfound⟩ := answer_found (o := .group (.findGroupById groupId)) rfl hans
  have howns : Owns w.db groupId userId := ⟨g, hfound.symm.trans hg, howner⟩
  exact hrest g _ howner ⟨_, List.mem_cons_self, howns⟩

/-- `updateGroup` writes as the owner. -/
theorem updateGroup_permitted (userId groupId : Id) (name : String) :
    wp ((machine lib).ownLog pid (MayIssue (.group (.updateGroup userId groupId name))))
      (fun _ _ => True) (GroupService.updateGroup userId groupId name) [] := by
  refine owner_wp fun g l _ howner => ?_
  refine permitted_wp (I := fun l => WasOwner l groupId userId)
    (T := fun o => ∃ a, o = .group (.updateGroup groupId name a)) ?_ (fun _ e h => h.cons e) ?_
    howner
  · refine .bind (.bind (issues_op (.inl ⟨_, rfl⟩)) fun existing => ?_) fun updated =>
      .bind (Prog.issues_expect _ _ _) fun _ =>
        .bind (GroupCache.issues_invalidateGroupCache _ _) fun _ => trivial
    split
    · exact .bind (issues_op (.inr ⟨_, rfl⟩)) fun _ => trivial
    · trivial
  · rintro l _ howner ⟨a, rfl⟩
    exact .updateGroup name a howner

/-- `deleteGroup` writes as the owner. -/
theorem deleteGroup_permitted (userId groupId : Id) :
    wp ((machine lib).ownLog pid (MayIssue (.group (.deleteGroup userId groupId))))
      (fun _ _ => True) (GroupService.deleteGroup userId groupId) [] := by
  refine owner_wp fun g l _ howner => ?_
  refine permitted_wp (I := fun l => WasOwner l groupId userId)
    (T := fun o => o = .group (.deleteGroup groupId)) ?_ (fun _ e h => h.cons e) ?_ howner
  · exact .bind (issues_op (.inr rfl)) fun _ => GroupCache.issues_invalidateGroupCache _ _
  · rintro l _ howner rfl
    exact .deleteGroup howner

/-- `addGroupMember` writes as the owner. -/
theorem addGroupMember_permitted (userId groupId memberId : Id) :
    wp ((machine lib).ownLog pid (MayIssue (.group (.addGroupMember userId groupId memberId))))
      (fun _ _ => True) (GroupService.addGroupMember userId groupId memberId) [] := by
  refine owner_wp fun g l _ howner => ?_
  refine permitted_wp (I := fun l => WasOwner l groupId userId)
    (T := fun o => ∃ a, o = .group (.addGroupMember groupId memberId a)) ?_
    (fun _ e h => h.cons e) ?_ howner
  · refine .bind (issues_op (.inl ⟨_, rfl⟩)) fun _ => .bind (Prog.issues_expect _ _ _) fun _ => ?_
    refine .bind (issues_op (.inl ⟨_, rfl⟩)) fun _ => .bind (Prog.issues_ensure _ _ _) fun _ => ?_
    refine .bind (issues_op (.inr ⟨_, rfl⟩)) fun _ => ?_
    exact .bind (GroupCache.issues_invalidateGroupCache _ _) fun _ => trivial
  · rintro l _ howner ⟨a, rfl⟩
    exact .addGroupMember memberId a howner

/-- `removeGroupMember` writes as the owner. -/
theorem removeGroupMember_permitted (userId groupId memberId : Id) :
    wp ((machine lib).ownLog pid (MayIssue (.group (.removeGroupMember userId groupId memberId))))
      (fun _ _ => True) (GroupService.removeGroupMember userId groupId memberId) [] := by
  refine owner_wp fun g l hg howner => ?_
  refine wp_ensure_bind.mpr ⟨fun hne => ?_, fun _ => trivial⟩
  refine permitted_wp (I := fun l => WasOwner l groupId userId)
    (T := fun o => ∃ a, o = .group (.removeGroupMember groupId memberId a))
    (removal_issues fun a _ => ⟨a, rfl⟩) (fun _ e h => h.cons e) ?_ howner
  rintro l _ howner ⟨a, rfl⟩
  exact .removeGroupMember a howner (hg ▸ hne)

/-- The requester of `createExpense` is among the members that it reads. -/
theorem createExpense_permitted (requesterId : Id) (input : CreateExpenseInput) :
    wp ((machine lib).ownLog pid (MayIssue (.group (.createExpense requesterId input))))
      (fun _ _ => True) (ExpenseService.createExpense requesterId input) [] := by
  refine wp_ownLog_bind (fun _ _ => trivial) (.inl ⟨_, rfl⟩) fun w₁ did₁ group w₁' _ => ?_
  refine wp_expect_bind.mpr ⟨fun _ _ => ?_, fun _ => trivial⟩
  refine wp_ownLog_bind (fun _ _ => trivial) (.inl ⟨_, rfl⟩) fun w₂ did₂ memberIds w₂' hans => ?_
  refine wp_ensure_bind.mpr ⟨fun hrequester => ?_, fun _ => trivial⟩
  refine wp_ensure_bind.mpr ⟨fun _ => ?_, fun _ => trivial⟩
  refine wp_ofExcept_bind.mpr ⟨fun splits _ => ?_, fun _ _ => trivial⟩
  -- The answer of the members' query shows the requester in the group at that entry.
  obtain ⟨ch, hfound⟩ := answer_found (o := .expense (.findGroupMemberIds input.groupId)) rfl hans
  have hmember : requesterId ∈ w₂.db.memberIds input.groupId :=
    mem_findGroupMemberIds.mp (hfound ▸ hrequester)
  -- From there the membership is on the record, and only the last write needs it.
  refine permitted_wp (I := fun l => WasMember l input.groupId requesterId)
    (T := fun o => ∃ data a, o = .expense (.createExpenseWithSplits data a) ∧
      data.groupId = input.groupId) ?_ (fun _ e h => h.cons e) ?_ ⟨_, List.mem_cons_self, hmember⟩
  · refine .bind ?_ fun date => .bind (issues_op (.inr ⟨_, _, rfl, rfl⟩)) fun _ =>
      .bind (issues_op trivial) fun _ => trivial
    cases input.expenseDate with
    | none => exact issues_op trivial
    | some date => trivial
  · rintro l _ hmember ⟨data, a, rfl, hgroup⟩
    exact .createExpense data a hgroup hmember

/-- A call that begins with the search for an expense and a look at the members of its group. -/
theorem expense_wp (requesterId : Id) {expenseId : Id} {rest : ExpenseWithDetails → List Id → Act α}
    (hrest : ∀ e ids l, (requesterId ∈ ids → SawExpense l expenseId requesterId) →
      wp ((machine lib).ownLog pid (MayIssue c)) (fun _ _ => True) (rest e ids) l) :
    wp ((machine lib).ownLog pid (MayIssue c)) (fun _ _ => True)
      ((ExpenseRepository.findExpenseById expenseId).bind fun expense =>
        (Prog.expect expense ExpenseService.expenseNotFound).bind fun e =>
          (ExpenseRepository.findGroupMemberIds e.groupId).bind fun ids => rest e ids) l := by
  refine wp_ownLog_bind (fun _ _ => trivial) (.inl ⟨_, rfl⟩) fun w did expense w' hans => ?_
  refine wp_expect_bind.mpr ⟨fun e he => ?_, fun _ => trivial⟩
  refine wp_ownLog_bind (fun _ _ => trivial) (.inl ⟨_, rfl⟩) fun w₁ did₁ ids w₁' hans₁ => ?_
  obtain ⟨ch, hfound⟩ := answer_found (o := .expense (.findExpenseById expenseId)) rfl hans
  obtain ⟨ch₁, hfound₁⟩ := answer_found (o := .expense (.findGroupMemberIds e.groupId)) rfl hans₁
  refine hrest e ids _ fun hmem => ?_
  have hmember : requesterId ∈ w₁.db.memberIds e.groupId :=
    mem_findGroupMemberIds.mp (hfound₁ ▸ hmem)
  obtain ⟨x, hx, hdetails⟩ := Option.map_eq_some_iff.mp (hfound.symm.trans he)
  have hgroup : x.groupId = e.groupId := congrArg (·.groupId) hdetails
  refine ⟨_, List.mem_cons_of_mem _ List.mem_cons_self, x, hx, _, List.mem_cons_self, ?_⟩
  exact hgroup ▸ hmember

/-- `updateExpense` writes as a member who saw the expense. -/
theorem updateExpense_permitted (requesterId expenseId : Id) (input : UpdateExpenseInput) :
    wp ((machine lib).ownLog pid (MayIssue (.group (.updateExpense requesterId expenseId input))))
      (fun _ _ => True) (ExpenseService.updateExpense requesterId expenseId input) [] := by
  refine expense_wp requesterId fun e ids l hseen => ?_
  refine wp_ensure_bind.mpr ⟨fun hmem => ?_, fun _ => trivial⟩
  refine permitted_wp (I := fun l => SawExpense l expenseId requesterId)
    (T := fun o => ∃ data a, o = .expense (.updateExpenseWithSplits expenseId data a)) ?_
    (fun _ r h => h.cons r) ?_ (hseen hmem)
  · exact .bind (Prog.issues_ensure _ _ _) fun _ => .bind (Prog.issues_ofExcept _ _) fun _ =>
      .bind (issues_op (.inr ⟨_, _, rfl⟩)) fun _ => .bind (issues_op trivial) fun _ => trivial
  · rintro l _ hseen ⟨data, a, rfl⟩
    exact .updateExpense input data a hseen

/-- `deleteExpense` writes as a member who saw the expense. -/
theorem deleteExpense_permitted (requesterId expenseId : Id) :
    wp ((machine lib).ownLog pid (MayIssue (.group (.deleteExpense requesterId expenseId))))
      (fun _ _ => True) (ExpenseService.deleteExpense requesterId expenseId) [] := by
  unfold ExpenseService.deleteExpense ExpenseService.assertMemberOfGroup
  simp only [bind, Prog.bind_assoc]
  refine expense_wp requesterId fun e ids l hseen => ?_
  refine wp_ensure_bind.mpr ⟨fun hmem => ?_, fun _ => trivial⟩
  refine permitted_wp (I := fun l => SawExpense l expenseId requesterId)
    (T := fun o => ∃ a, o = .expense (.deleteExpenseWithEvent expenseId a)) ?_
    (fun _ r h => h.cons r) ?_ (hseen hmem)
  · exact .bind (issues_op (.inr ⟨_, rfl⟩)) fun _ => issues_op trivial
  · rintro l _ hseen ⟨a, rfl⟩
    exact .deleteExpense a hseen

/-- The requester of `createSettlement` is among the members that it reads. -/
theorem createSettlement_permitted (requesterId : Id) (input : CreateSettlementInput)
    (idempotency : IdempotencyContext) :
    wp ((machine lib).ownLog pid
        (MayIssue (.group (.createSettlement requesterId input idempotency))))
      (fun _ _ => True) (SettlementService.createSettlement env requesterId input idempotency)
      [] := by
  refine wp_ownLog_bind (fun _ _ => trivial) (.inl ⟨_, rfl⟩) fun w₁ did₁ group w₁' _ => ?_
  refine wp_expect_bind.mpr ⟨fun _ _ => ?_, fun _ => trivial⟩
  refine wp_ownLog_bind (fun _ _ => trivial) (.inl ⟨_, rfl⟩) fun w₂ did₂ members w₂' hans => ?_
  refine wp_ensure_bind.mpr ⟨fun hrequester => ?_, fun _ => trivial⟩
  -- The answer of the members' query shows the requester in the group at that entry.
  obtain ⟨ch, hfound⟩ := answer_found (o := .settlement (.findGroupMembers input.groupId)) rfl hans
  have hmember : requesterId ∈ w₂.db.memberIds input.groupId :=
    mem_findGroupMembers.mp (hfound ▸ hrequester)
  refine permitted_wp (I := fun l => WasMember l input.groupId requesterId)
    (T := fun o => ∃ existing data a expiresAt,
      o = .settlement (.claimAndSettle existing data idempotency a expiresAt) ∧
        data.groupId = input.groupId) ?_ (fun _ e h => h.cons e) ?_
    ⟨_, List.mem_cons_self, hmember⟩
  -- The checks, the lock and the lookup come before the one transaction that writes.
  · refine .bind (Prog.issues_ensure _ _ _) fun _ => .bind (Prog.issues_ensure _ _ _) fun _ =>
      .bind (Prog.issues_ensure _ _ _) fun _ => .tryCatch ?_ fun e => ?_
    · refine .bind (DistributedLock.issues_withLock (.bind (issues_op trivial) fun settledAt => ?_))
        fun s => .bind (issues_op trivial) fun _ => trivial
      exact SettlementRepository.issues_createSettlement (fun _ => .inl ⟨_, rfl⟩)
        (fun _ => .inl ⟨_, rfl⟩) fun existing expiresAt => .inr ⟨_, _, _, _, rfl, rfl⟩
    · split <;> trivial
  · rintro l _ hmember ⟨existing, data, a, expiresAt, rfl, hgroup⟩
    exact .createSettlement idempotency existing data a expiresAt hgroup hmember

/-- `createGroup` writes for its user. -/
theorem createGroup_permitted (userId : Id) (name : String) :
    wp ((machine lib).ownLog pid (MayIssue (.createGroup userId name)))
      (fun _ _ => True) (GroupService.createGroup userId name) [] := by
  refine permitted_wp (I := fun _ => True)
    (T := fun o => ∃ a, o = .group (.createGroupWithOwner userId name a)) ?_
    (fun _ _ h => h) ?_ trivial
  · exact .bind (issues_op (.inr ⟨_, rfl⟩)) fun _ => .bind (issues_op trivial) fun _ => trivial
  · rintro l _ - ⟨a, rfl⟩
    exact .createGroup userId name a

/-- The calls that only read. -/
theorem reads_getGroupById (userId groupId : Id) :
    (GroupService.getGroupById env lib userId groupId).Issues
      (Op.OnDb (ReadsOr NoTransaction)) := by
  refine .bind (.bind (.attempt (issues_op trivial)) fun r => ?_) fun cached => ?_
  · rcases r with e | _ | raw
    · exact .bind (issues_op trivial) fun _ => trivial
    · trivial
    · trivial
  · cases cached with
    | some cached =>
      exact .bind (issues_op (.inl ⟨_, rfl⟩)) fun _ => .bind (Prog.issues_ensure _ _ _) fun _ =>
        trivial
    | none =>
      refine .bind (issues_op (.inl ⟨_, rfl⟩)) fun _ => .bind (Prog.issues_expect _ _ _) fun _ =>
        .bind (issues_op (.inl ⟨_, rfl⟩)) fun _ => .bind (Prog.issues_ensure _ _ _) fun _ =>
          .bind (.bind (.attempt (issues_op trivial)) fun r => ?_) fun _ => trivial
      cases r
      · exact issues_op trivial
      · trivial

/-- `getExpenseById` only reads. -/
theorem reads_getExpenseById (requesterId expenseId : Id) :
    (ExpenseService.getExpenseById requesterId expenseId).Issues
      (Op.OnDb (ReadsOr NoTransaction)) :=
  .bind (issues_op (.inl ⟨_, rfl⟩)) fun _ => .bind (Prog.issues_expect _ _ _) fun _ =>
    .bind (.bind (issues_op (.inl ⟨_, rfl⟩)) fun _ => Prog.issues_ensure _ _ _) fun _ => trivial

/-- `getGroupExpenses` only reads. -/
theorem reads_getGroupExpenses (requesterId groupId : Id) (pagination : Option (ℕ × ℕ)) :
    (ExpenseService.getGroupExpenses requesterId groupId pagination).Issues
      (Op.OnDb (ReadsOr NoTransaction)) := by
  refine .bind (issues_op (.inl ⟨_, rfl⟩)) fun _ => .bind (Prog.issues_expect _ _ _) fun _ =>
    .bind (.bind (issues_op (.inl ⟨_, rfl⟩)) fun _ => Prog.issues_ensure _ _ _) fun _ =>
      .bind (ExpenseRepository.issues_findExpensesByGroupId (.inl ⟨_, rfl⟩) (.inl ⟨_, rfl⟩)
        trivial) fun _ => ?_
  cases pagination <;> trivial

/-- `getGroupBalances` only reads. -/
theorem reads_getGroupBalances (requesterId groupId : Id) :
    (SettlementService.getGroupBalances requesterId groupId).Issues
      (Op.OnDb (ReadsOr NoTransaction)) :=
  .bind (issues_op (.inl ⟨_, rfl⟩)) fun _ => .bind (Prog.issues_expect _ _ _) fun _ =>
    .bind (issues_op (.inl ⟨_, rfl⟩)) fun _ => .bind (Prog.issues_ensure _ _ _) fun _ =>
      .bind (issues_op (.inl ⟨_, rfl⟩)) fun _ => .bind (issues_op (.inl ⟨_, rfl⟩)) fun _ => trivial

/-- `getSettlementById` only reads. -/
theorem reads_getSettlementById (requesterId settlementId : Id) :
    (SettlementService.getSettlementById requesterId settlementId).Issues
      (Op.OnDb (ReadsOr NoTransaction)) :=
  .bind (issues_op (.inl ⟨_, rfl⟩)) fun _ => .bind (Prog.issues_expect _ _ _) fun _ =>
    .bind (.bind (issues_op (.inl ⟨_, rfl⟩)) fun _ => Prog.issues_ensure _ _ _) fun _ => trivial

/-- `getGroupSettlements` only reads. -/
theorem reads_getGroupSettlements (requesterId groupId : Id) (pagination : Option (ℕ × ℕ)) :
    (SettlementService.getGroupSettlements requesterId groupId pagination).Issues
      (Op.OnDb (ReadsOr NoTransaction)) := by
  refine .bind (issues_op (.inl ⟨_, rfl⟩)) fun _ => .bind (Prog.issues_expect _ _ _) fun _ =>
    .bind (.bind (issues_op (.inl ⟨_, rfl⟩)) fun _ => Prog.issues_ensure _ _ _) fun _ =>
      .bind (SettlementRepository.issues_findSettlementsByGroupId (.inl ⟨_, rfl⟩) (.inl ⟨_, rfl⟩)
        trivial) fun _ => ?_
  cases pagination <;> trivial

/-- `getGroupActivity` only reads. -/
theorem reads_getGroupActivity (requesterId groupId : Id) (page limit : ℕ) :
    (ActivityService.getGroupActivity requesterId groupId page limit).Issues
      (Op.OnDb (ReadsOr NoTransaction)) :=
  .bind (issues_op (.inl ⟨_, rfl⟩)) fun _ => .bind (Prog.issues_expect _ _ _) fun _ =>
    .bind (issues_op (.inl ⟨_, rfl⟩)) fun _ => .bind (Prog.issues_ensure _ _ _) fun _ =>
      .bind (issues_promiseAll (issues_op (.inl ⟨_, rfl⟩)) (issues_op (.inl ⟨_, rfl⟩)) trivial)
        fun _ => trivial

/-- `getGroupSummary` only reads. -/
theorem reads_getGroupSummary (requesterId groupId : Id) :
    (SummaryService.getGroupSummary requesterId groupId).Issues
      (Op.OnDb (ReadsOr NoTransaction)) :=
  .bind (issues_op (.inl ⟨_, rfl⟩)) fun _ => .bind (Prog.issues_expect _ _ _) fun _ =>
    .bind (issues_op (.inl ⟨_, rfl⟩)) fun _ => .bind (Prog.issues_ensure _ _ _) fun _ =>
      .bind (issues_op (.inl ⟨_, rfl⟩)) fun _ => .bind (Prog.issues_expect _ _ _) fun _ => trivial

/-- `enqueueGroupSummaryRecompute` only reads. -/
theorem reads_enqueueGroupSummaryRecompute (requesterId groupId : Id)
    (requestId : Option String) :
    (SummaryService.enqueueGroupSummaryRecompute env requesterId groupId requestId).Issues
      (Op.OnDb (ReadsOr NoTransaction)) := by
  refine .bind (issues_op (.inl ⟨_, rfl⟩)) fun _ => .bind (Prog.issues_expect _ _ _) fun _ =>
    .bind (issues_op (.inl ⟨_, rfl⟩)) fun _ => .bind (Prog.issues_ensure _ _ _) fun _ =>
      .bind (.attempt (.bind (JobQueue.issues_enqueue _ _ _ _ _ _) fun _ => trivial)) fun r => ?_
  rcases r with e | job
  · exact .bind (issues_op trivial) fun _ => trivial
  · trivial

/-- No call writes anything that its entries do not entitle it to. -/
theorem storeCall_permitted (c : StoreCall) :
    wp ((machine lib).ownLog pid (MayIssue c)) (fun _ _ => True) (c.body env lib) [] := by
  cases c with
  | createGroup userId name => exact wp_void (createGroup_permitted userId name)
  | group c =>
    cases c with
    | getGroupById => exact wp_void (reads_wp (reads_getGroupById _ _))
    | updateGroup => exact wp_void (updateGroup_permitted _ _ _)
    | deleteGroup => exact wp_void (deleteGroup_permitted _ _)
    | addGroupMember => exact wp_void (addGroupMember_permitted _ _ _)
    | removeGroupMember => exact wp_void (removeGroupMember_permitted _ _ _)
    | createExpense => exact wp_void (createExpense_permitted _ _)
    | getExpenseById => exact wp_void (reads_wp (reads_getExpenseById _ _))
    | updateExpense => exact wp_void (updateExpense_permitted _ _ _)
    | deleteExpense => exact wp_void (deleteExpense_permitted _ _)
    | getGroupExpenses => exact wp_void (reads_wp (reads_getGroupExpenses _ _ _))
    | getGroupBalances => exact wp_void (reads_wp (reads_getGroupBalances _ _))
    | createSettlement => exact wp_void (createSettlement_permitted _ _ _)
    | getSettlementById => exact wp_void (reads_wp (reads_getSettlementById _ _))
    | getGroupSettlements => exact wp_void (reads_wp (reads_getGroupSettlements _ _ _))
    | getGroupActivity => exact wp_void (reads_wp (reads_getGroupActivity _ _ _ _))
    | getGroupSummary => exact wp_void (reads_wp (reads_getGroupSummary _ _))
    | enqueueGroupSummaryRecompute =>
      exact wp_void (reads_wp (reads_enqueueGroupSummaryRecompute _ _ _))

end Programs

/-! ## What a step accounts for -/

section Accounts

variable (c : StoreCall) (l : List BackendEntry) (d d' : Db)

/-- A group is renamed or deleted by its owner, and founded by whom it belongs to. -/
structure AccountsGroups : Prop where
  kept : ∀ g ∈ d.groups, g ∈ d'.groups ∨ WasOwner l g.id c.requester ∧
    (c = .group (.deleteGroup c.requester g.id) ∨
      ∃ name now, c = .group (.updateGroup c.requester g.id name) ∧
        { g with name, updatedAt := now } ∈ d'.groups)
  added : ∀ g ∈ d'.groups,
    (∃ old ∈ d.groups, old.id = g.id ∧ old.createdById = g.createdById) ∨
      c = .createGroup g.createdById g.name ∧ d.nextId ≤ g.id

/-- A member is removed by the owner, who is another user, or with the group; and a member is added
by the owner, or founds the group. -/
structure AccountsMembers : Prop where
  kept : ∀ m ∈ d.groupMembers, m ∈ d'.groupMembers ∨ WasOwner l m.groupId c.requester ∧
    (c = .group (.deleteGroup c.requester m.groupId) ∨
      m.userId ≠ c.requester ∧ c = .group (.removeGroupMember c.requester m.groupId m.userId))
  added : ∀ m ∈ d'.groupMembers, m ∈ d.groupMembers ∨
    (∃ name, c = .createGroup m.userId name ∧ d.nextId ≤ m.groupId) ∨
    WasOwner l m.groupId c.requester ∧
      c = .group (.addGroupMember c.requester m.groupId m.userId)

/-- An expense is created, changed and deleted by a member of its group, which it never leaves, or
deleted with the group by the owner. -/
structure AccountsExpenses : Prop where
  kept : ∀ x ∈ d.expenses, x ∈ d'.expenses ∨
    WasOwner l x.groupId c.requester ∧ c = .group (.deleteGroup c.requester x.groupId) ∨
    WasMember l x.groupId c.requester ∧
      (c = .group (.deleteExpense c.requester x.id) ∨
        ∃ input, c = .group (.updateExpense c.requester x.id input) ∧
          ∃ x' ∈ d'.expenses, x'.id = x.id ∧ x'.groupId = x.groupId)
  added : ∀ x ∈ d'.expenses, (∃ old ∈ d.expenses, old.id = x.id ∧ old.groupId = x.groupId) ∨
    WasMember l x.groupId c.requester ∧
      ∃ input, c = .group (.createExpense c.requester input) ∧ input.groupId = x.groupId

/-- A settlement is recorded by a member, is never changed, and is deleted with the group only. -/
structure AccountsSettlements : Prop where
  kept : ∀ s ∈ d.settlements, s ∈ d'.settlements ∨
    WasOwner l s.groupId c.requester ∧ c = .group (.deleteGroup c.requester s.groupId)
  added : ∀ s ∈ d'.settlements, s ∈ d.settlements ∨ WasMember l s.groupId c.requester ∧
    ∃ input idempotency, c = .group (.createSettlement c.requester input idempotency) ∧
      input.groupId = s.groupId

/-- A step accounts for every row of a group that it changes. -/
structure Accounts : Prop where
  groups : AccountsGroups c l d d'
  members : AccountsMembers c l d d'
  expenses : AccountsExpenses c l d d'
  settlements : AccountsSettlements c l d d'

end Accounts

section Steps

variable {c : StoreCall} {l : List BackendEntry} {d d' : Db}

/-- Groups that stay need no account. -/
theorem AccountsGroups.of_eq (h : d'.groups = d.groups) : AccountsGroups c l d d' :=
  ⟨fun _ hg => .inl (h ▸ hg), fun g hg => .inl ⟨g, h ▸ hg, rfl, rfl⟩⟩

/-- Members that stay need no account. -/
theorem AccountsMembers.of_eq (h : d'.groupMembers = d.groupMembers) : AccountsMembers c l d d' :=
  ⟨fun _ hm => .inl (h ▸ hm), fun _ hm => .inl (h ▸ hm)⟩

/-- Expenses that stay need no account. -/
theorem AccountsExpenses.of_eq (h : d'.expenses = d.expenses) : AccountsExpenses c l d d' :=
  ⟨fun _ hx => .inl (h ▸ hx), fun x hx => .inl ⟨x, h ▸ hx, rfl, rfl⟩⟩

/-- Settlements that stay need no account. -/
theorem AccountsSettlements.of_eq (h : d'.settlements = d.settlements) :
    AccountsSettlements c l d d' :=
  ⟨fun _ hs => .inl (h ▸ hs), fun _ hs => .inl (h ▸ hs)⟩

/-- An expense stays in its group, and its id is given to no other. -/
def KeepsGroup (d d' : Db) : Prop :=
  ∀ x' ∈ d'.expenses, x'.id < d.nextId → ∃ x ∈ d.expenses, x.id = x'.id ∧ x.groupId = x'.groupId

/-- An expense stays in its group over two steps. -/
theorem KeepsGroup.trans {d'' : Db} (hn : d.nextId ≤ d'.nextId) (h : KeepsGroup d d')
    (h' : KeepsGroup d' d'') : KeepsGroup d d'' := by
  intro x hx hlt
  obtain ⟨x₁, hx₁, hid₁, hgroup₁⟩ := h' x hx (lt_of_lt_of_le hlt hn)
  obtain ⟨x₀, hx₀, hid₀, hgroup₀⟩ := h x₁ hx₁ (hid₁ ▸ hlt)
  exact ⟨x₀, hx₀, hid₀.trans hid₁, hgroup₀.trans hgroup₁⟩

/-- Without a new expense none changes its group. -/
theorem KeepsGroup.of_subset (h : ∀ x ∈ d'.expenses, x ∈ d.expenses) : KeepsGroup d d' :=
  fun x hx _ => ⟨x, h x hx, rfl, rfl⟩

/-- What a step does to the tables, as far as later checks depend on it. -/
structure Progress (d d' : Db) : Prop where
  moves : Moves d d'
  keepsGroup : KeepsGroup d d'

/-- Two steps forward. -/
theorem Progress.trans {d'' : Db} (h : Progress d d') (h' : Progress d' d'') : Progress d d'' :=
  ⟨h.moves.trans h'.moves, h.keepsGroup.trans h.moves.nextId h'.keepsGroup⟩

/-- No step. -/
theorem Progress.refl (d : Db) : Progress d d := ⟨.refl d, .of_subset fun _ hx => hx⟩

end Steps

/-- The tables are sound, and come from sound ones that the calls have seen. -/
structure Lineage (h : Hist backend Err World) : Prop where
  sound : Sound h.world.db
  past : ∀ e ∈ h.log, Sound e.pre.db ∧ Progress e.pre.db h.world.db

section Lineage

variable {h : Hist backend Err World} {pid : ℕ} {userId : Id}

/-- Whoever owned a group that is still there owns it. -/
theorem Lineage.owner (hl : Lineage h) {groupId : Id} (howner : WasOwner (h.own pid) groupId userId)
    {g : Group} (hg : g ∈ h.world.db.groups) (hid : g.id = groupId) : g.createdById = userId := by
  obtain ⟨e, he, g₀, hg₀, rfl⟩ := howner
  obtain ⟨hsound, hprogress⟩ := hl.past e (List.mem_of_mem_filter he)
  have hmem₀ : g₀ ∈ e.pre.db.groups := List.mem_of_find?_eq_some hg₀
  have hid₀ : g₀.id = groupId := by simpa using List.find?_some hg₀
  have hlt : g.id < e.pre.db.nextId := hid.trans hid₀.symm ▸ hsound.group_lt g₀ hmem₀
  obtain ⟨g₁, hmem₁, hid₁, howner₁⟩ := hprogress.moves.group g hg hlt
  have hsame : g₁.createdById = g₀.createdById :=
    hsound.group_owner g₁ hmem₁ g₀ hmem₀ (hid₁.trans (hid.trans hid₀.symm))
  exact howner₁.symm.trans hsame

/-- Whoever saw an expense as a member of its group was a member of the group that it is in. -/
theorem Lineage.member (hl : Lineage h) {expenseId : Id}
    (hsaw : SawExpense (h.own pid) expenseId userId) {x : Expense} (hx : x ∈ h.world.db.expenses)
    (hid : x.id = expenseId) : WasMember (h.own pid) x.groupId userId := by
  obtain ⟨e, he, x₀, hx₀, hmember⟩ := hsaw
  obtain ⟨hsound, hprogress⟩ := hl.past e (List.mem_of_mem_filter he)
  have hmem₀ : x₀ ∈ e.pre.db.expenses := List.mem_of_find?_eq_some hx₀
  have hid₀ : x₀.id = expenseId := by simpa using List.find?_some hx₀
  have hlt : x.id < e.pre.db.nextId := hid.trans hid₀.symm ▸ hsound.expense_lt x₀ hmem₀
  obtain ⟨x₁, hmem₁, hid₁, hgroup₁⟩ := hprogress.keepsGroup x hx hlt
  obtain rfl : x₁ = x₀ := expense_unique hsound.expense_nodup hx₀ hmem₁ (hid₁.trans hid)
  exact hgroup₁ ▸ hmember

end Lineage

section Transactions

variable {l : List BackendEntry} {d d' : Db} {now : Time} {a : ActivityEventInput}

/-- A new group is accounted for by its creator. -/
theorem createGroup_step {ownerId : Id} {name : String} {g : Group}
    (heval : (createGroupWithOwner now ownerId name a).eval d = .ok (g, d')) :
    Progress d d' ∧ Accounts (.createGroup ownerId name) l d d' := by
  have hmoves := createGroup_moves heval
  obtain ⟨event, rfl, -, -, rfl⟩ := createGroupWithOwner_eq_ok heval
  refine ⟨⟨hmoves, .of_subset fun _ hx => hx⟩, ⟨?_, ?_⟩, ⟨?_, ?_⟩, .of_eq rfl, .of_eq rfl⟩
  · exact fun g hg => .inl (List.mem_cons_of_mem _ hg)
  · intro g hg
    rcases List.mem_cons.mp hg with rfl | hold
    · exact .inr ⟨rfl, Nat.le_refl _⟩
    · exact .inl ⟨g, hold, rfl, rfl⟩
  · exact fun m hm => .inl (List.mem_cons_of_mem _ hm)
  · intro m hm
    rcases List.mem_cons.mp hm with rfl | hold
    · exact .inr (.inl ⟨name, rfl, Nat.le_refl _⟩)
    · exact .inl hold

/-- A new name is accounted for by the owner. -/
theorem updateGroup_step {userId groupId : Id} {name : String} {g : Group}
    (howner : WasOwner l groupId userId)
    (heval : (updateGroupWithEvent now groupId name a).eval d = .ok (g, d')) :
    Progress d d' ∧ Accounts (.group (.updateGroup userId groupId name)) l d d' := by
  have hmoves : Moves d d' := UpdatesGroup.moves ⟨now, a, g, heval⟩
  obtain ⟨old, event, hold, rfl, -, rfl⟩ := updateGroupWithEvent_eq_ok heval
  refine ⟨⟨hmoves, .of_subset fun _ hx => hx⟩, ⟨?_, ?_⟩, .of_eq rfl, .of_eq rfl, .of_eq rfl⟩
  · intro g hg
    rcases updateWhere_cases (p := (·.id = groupId))
      (fun g => { g with name, updatedAt := now }) hg with hleft | ⟨hid, hmem⟩
    · exact .inl hleft
    · obtain rfl := of_decide_eq_true hid
      exact .inr ⟨howner, .inr ⟨name, now, rfl, hmem⟩⟩
  · intro g hg
    obtain ⟨x, hx, ⟨-, rfl⟩ | ⟨-, rfl⟩⟩ := mem_updateWhere.mp hg
    · exact .inl ⟨x, hx, rfl, rfl⟩
    · exact .inl ⟨x, hx, rfl, rfl⟩

/-- Every row that is deleted with the group belongs to it. -/
theorem deleteGroup_step {userId groupId : Id} {r : Unit} (howner : WasOwner l groupId userId)
    (heval : Prisma.groupDelete groupId d = .ok (r, d')) :
    Progress d d' ∧ Accounts (.group (.deleteGroup userId groupId)) l d d' := by
  have hmoves : Moves d d' := DeletesGroup.moves heval
  obtain rfl := Prisma.groupDelete_eq_ok heval
  -- A row is kept or belongs to the group.
  have hkept : ∀ {α : Type} (groupOf : α → Id) {rows : List α} {x : α}, x ∈ rows →
      x ∈ rows.filter (groupOf · ≠ groupId) ∨ groupOf x = groupId := by
    intro α groupOf rows x hx
    by_cases hid : groupOf x = groupId
    · exact .inr hid
    · exact .inl (List.mem_filter.mpr ⟨hx, decide_eq_true hid⟩)
  refine ⟨⟨hmoves, .of_subset fun _ hx => List.mem_of_mem_filter hx⟩, ⟨?_, ?_⟩, ⟨?_, ?_⟩,
    ⟨?_, ?_⟩, ⟨?_, ?_⟩⟩
  · intro g hg
    refine (hkept Group.id hg).imp_right fun hid => ?_
    subst hid
    exact ⟨howner, .inl rfl⟩
  · exact fun g hg => .inl ⟨g, List.mem_of_mem_filter hg, rfl, rfl⟩
  · intro m hm
    refine (hkept GroupMember.groupId hm).imp_right fun hid => ?_
    subst hid
    exact ⟨howner, .inl rfl⟩
  · exact fun m hm => .inl (List.mem_of_mem_filter hm)
  · intro x hx
    refine (hkept Expense.groupId hx).imp_right fun hid => .inl ?_
    subst hid
    exact ⟨howner, rfl⟩
  · exact fun x hx => .inl ⟨x, List.mem_of_mem_filter hx, rfl, rfl⟩
  · intro s hs
    refine (hkept Settlement.groupId hs).imp_right fun hid => ?_
    subst hid
    exact ⟨howner, rfl⟩
  · exact fun s hs => .inl (List.mem_of_mem_filter hs)

/-- A new member is accounted for by the owner. -/
theorem addGroupMember_step {userId groupId memberId : Id} {m : GroupMember}
    (howner : WasOwner l groupId userId)
    (heval : (addGroupMemberWithEvent now groupId memberId a).eval d = .ok (m, d')) :
    Progress d d' ∧ Accounts (.group (.addGroupMember userId groupId memberId)) l d d' := by
  obtain ⟨event, -, -, rfl, -, rfl⟩ := addGroupMemberWithEvent_eq_ok heval
  refine ⟨⟨.addMember rfl rfl rfl (Nat.le_add_right _ 2), .of_subset fun _ hx => hx⟩, .of_eq rfl,
    ⟨fun m hm => .inl (List.mem_cons_of_mem _ hm), fun m hm => ?_⟩, .of_eq rfl, .of_eq rfl⟩
  rcases List.mem_cons.mp hm with rfl | hold
  · exact .inr (.inr ⟨howner, rfl⟩)
  · exact .inl hold

/-- A member who is removed is accounted for by the owner. -/
theorem removeGroupMember_step {userId groupId memberId : Id} {r : Unit}
    (howner : WasOwner l groupId userId) (hother : memberId ≠ userId)
    (hne : ∀ g ∈ d.groups, g.id = groupId → memberId ≠ g.createdById)
    (heval : (removeGroupMemberWithEvent now groupId memberId a).eval d = .ok (r, d')) :
    Progress d d' ∧ Accounts (.group (.removeGroupMember userId groupId memberId)) l d d' := by
  have hmoves := removeGroupMember_moves hne heval
  obtain ⟨event, -, -, rfl⟩ := removeGroupMemberWithEvent_eq_ok heval
  refine ⟨⟨hmoves, .of_subset fun _ hx => hx⟩, .of_eq rfl, ⟨fun m hm => ?_, fun m hm => ?_⟩,
    .of_eq rfl, .of_eq rfl⟩
  · by_cases hid : m.groupId = groupId ∧ m.userId = memberId
    · obtain ⟨rfl, rfl⟩ := hid
      exact .inr ⟨howner, .inr ⟨hother, rfl⟩⟩
    · exact .inl (List.mem_filter.mpr ⟨hm, decide_eq_true hid⟩)
  · exact .inl (List.mem_of_mem_filter hm)

/-- A new expense is accounted for by a member. -/
theorem createExpense_step {requesterId : Id} {input : CreateExpenseInput} {c : Choice}
    {data : Prisma.CreateExpenseData} {r : ExpenseWithDetails}
    (hgroup : data.groupId = input.groupId) (hmember : WasMember l input.groupId requesterId)
    (heval : (createExpenseWithSplits c now data a).eval d = .ok (r, d')) :
    Progress d d' ∧ Accounts (.group (.createExpense requesterId input)) l d d' := by
  have hmoves := createExpense_moves heval
  obtain ⟨e, db₁, event, hcreate, -, rfl, -⟩ := createExpenseWithSplits_eq_ok heval
  obtain ⟨-, rfl, rfl⟩ := Prisma.expenseCreate_eq_ok hcreate
  refine ⟨⟨hmoves, fun x hx hlt => ?_⟩, .of_eq rfl, .of_eq rfl,
    ⟨fun x hx => .inl (List.mem_cons_of_mem _ hx), fun x hx => ?_⟩, .of_eq rfl⟩
  · rcases List.mem_cons.mp hx with rfl | hold
    · exact absurd hlt (Nat.lt_irrefl _)
    · exact ⟨x, hold, rfl, rfl⟩
  · rcases List.mem_cons.mp hx with rfl | hold
    · exact .inr ⟨hgroup ▸ hmember, input, rfl, hgroup.symm⟩
    · exact .inl ⟨x, hold, rfl, rfl⟩

/-- A changed expense is accounted for by a member. -/
theorem updateExpense_step {requesterId expenseId : Id} {input : UpdateExpenseInput} {c : Choice}
    {data : Prisma.UpdateExpenseData} {r : ExpenseWithDetails}
    (hmember : ∀ x ∈ d.expenses, x.id = expenseId → WasMember l x.groupId requesterId)
    (heval : (updateExpenseWithSplits c now expenseId data a).eval d = .ok (r, d')) :
    Progress d d' ∧ Accounts (.group (.updateExpense requesterId expenseId input)) l d d' := by
  have hmoves := updateExpense_moves heval
  obtain ⟨e, db₁, event, hupdate, -, rfl, -⟩ := updateExpenseWithSplits_eq_ok heval
  obtain ⟨old, hold, -, -, rfl, rfl⟩ := Prisma.expenseUpdate_eq_ok hupdate
  -- Every row afterwards is one from before, with its id and its group.
  have hrow : ∀ x ∈ updateWhere (·.id = expenseId) (data.applyTo now d.nextId) d.expenses,
      ∃ x₀ ∈ d.expenses, x₀.id = x.id ∧ x₀.groupId = x.groupId := by
    intro x hx
    obtain ⟨x₀, hx₀, ⟨-, rfl⟩ | ⟨-, rfl⟩⟩ := mem_updateWhere.mp hx
    · exact ⟨x₀, hx₀, rfl, rfl⟩
    · exact ⟨x₀, hx₀, rfl, rfl⟩
  refine ⟨⟨hmoves, fun x hx _ => hrow x hx⟩, .of_eq rfl, .of_eq rfl,
    ⟨fun x hx => ?_, fun x hx => .inl (hrow x hx)⟩, .of_eq rfl⟩
  rcases updateWhere_cases (p := (·.id = expenseId)) (data.applyTo now d.nextId) hx with
    hleft | ⟨hid, hmem⟩
  · exact .inl hleft
  · have hid : x.id = expenseId := of_decide_eq_true hid
    subst hid
    exact .inr (.inr ⟨hmember x hx rfl, .inr ⟨input, rfl, _, hmem, rfl, rfl⟩⟩)

/-- An expense that is deleted is accounted for by a member. -/
theorem deleteExpense_step {requesterId expenseId : Id} {r : Unit}
    (hmember : ∀ x ∈ d.expenses, x.id = expenseId → WasMember l x.groupId requesterId)
    (heval : (deleteExpenseWithEvent now expenseId a).eval d = .ok (r, d')) :
    Progress d d' ∧ Accounts (.group (.deleteExpense requesterId expenseId)) l d d' := by
  have hmoves := deleteExpense_moves heval
  obtain ⟨e, event, -, -, rfl⟩ := deleteExpenseWithEvent_eq_ok heval
  refine ⟨⟨hmoves, .of_subset fun _ hx => List.mem_of_mem_filter hx⟩, .of_eq rfl, .of_eq rfl,
    ⟨fun x hx => ?_, fun x hx => .inl ⟨x, List.mem_of_mem_filter hx, rfl, rfl⟩⟩, .of_eq rfl⟩
  by_cases hid : x.id = expenseId
  · subst hid
    exact .inr (.inr ⟨hmember x hx rfl, .inl rfl⟩)
  · exact .inl (List.mem_filter.mpr ⟨hx, decide_eq_true hid⟩)

/-- A settlement is accounted for by a member. -/
theorem createSettlement_step {requesterId : Id} {input : CreateSettlementInput}
    {idempotency : IdempotencyContext} {existing : Option Id} {data : Prisma.SettlementCreateData}
    {expiresAt : Time} {s : SettlementRecord} (hgroup : data.groupId = input.groupId)
    (hmember : WasMember l input.groupId requesterId)
    (heval : (claimAndSettle now existing data idempotency a expiresAt).eval d = .ok (s, d')) :
    Progress d d' ∧
      Accounts (.group (.createSettlement requesterId input idempotency)) l d d' := by
  obtain ⟨-, -, event, records, -, -, rfl⟩ := claimAndSettle_eq_ok heval
  have hseen : WasMember l data.groupId requesterId := hgroup ▸ hmember
  refine ⟨⟨.of_eq rfl rfl rfl (Nat.le_add_right _ 3), .of_subset fun _ hx => hx⟩, .of_eq rfl,
    .of_eq rfl, .of_eq rfl, ⟨fun s hs => .inl (List.mem_cons_of_mem _ hs), fun s hs => ?_⟩⟩
  rcases List.mem_cons.mp hs with rfl | hold
  · exact .inr ⟨hseen, input, idempotency, rfl, hgroup.symm⟩
  · exact .inl hold

end Transactions

/-! ## Runs -/

section Runs

variable {h : Hist backend Err World} {pid : ℕ} {c : StoreCall}

/-- A transaction that a call is entitled to accounts for what it changes. -/
theorem Permitted.step (hl : Lineage h) {o : DbOp} (hp : Permitted (h.own pid) c o)
    {t : Choice → Time → Tx Db Err Metric o.Res} (ht : o.access = .write t) {ch : Choice}
    {now : Time} {r : o.Res} {d' : Db} (heval : (t ch now).eval h.world.db = .ok (r, d')) :
    Progress h.world.db d' ∧ Accounts c (h.own pid) h.world.db d' := by
  cases hp with
  | createGroup ownerId name a =>
    obtain rfl := Access.write.inj ht
    exact createGroup_step heval
  | updateGroup name a howner =>
    obtain rfl := Access.write.inj ht
    exact updateGroup_step howner heval
  | deleteGroup howner =>
    obtain rfl := Access.write.inj ht
    exact deleteGroup_step howner heval
  | addGroupMember memberId a howner =>
    obtain rfl := Access.write.inj ht
    exact addGroupMember_step howner heval
  | removeGroupMember a howner hother =>
    obtain rfl := Access.write.inj ht
    exact removeGroupMember_step howner hother
      (fun g hg hid => hl.owner howner hg hid ▸ hother) heval
  | createExpense data a hgroup hmember =>
    obtain rfl := Access.write.inj ht
    exact createExpense_step hgroup hmember heval
  | updateExpense input data a hsaw =>
    obtain rfl := Access.write.inj ht
    exact updateExpense_step (fun x hx hid => hl.member hsaw hx hid) heval
  | deleteExpense a hsaw =>
    obtain rfl := Access.write.inj ht
    exact deleteExpense_step (fun x hx hid => hl.member hsaw hx hid) heval
  | createSettlement idempotency existing data a expiresAt hgroup hmember =>
    obtain rfl := Access.write.inj ht
    exact createSettlement_step hgroup hmember heval

/-- A step that changes nothing needs no account. -/
theorem Accounts.of_eq {l : List BackendEntry} {d d' : Db} (h : d' = d) : Accounts c l d d' :=
  ⟨.of_eq (congrArg _ h), .of_eq (congrArg _ h), .of_eq (congrArg _ h), .of_eq (congrArg _ h)⟩

/-- An operation that a call may issue accounts for what it changes. -/
theorem Lineage.accounts (hl : Lineage h) {o : Op} (ho : MayIssue c (h.own pid) o)
    {did seen : Except Err (backend.Res o)} {w : World}
    (hans : (machine lib).Answer o h.world did seen w) :
    Progress h.world.db w.db ∧ Accounts c (h.own pid) h.world.db w.db := by
  rcases answer_transaction ho hans with hdb | ⟨o', t, ch, r, rfl, hp, ht, heval⟩
  · exact ⟨hdb ▸ .refl _, .of_eq hdb⟩
  · exact hp.step hl ht heval

/-- Every operation keeps the lineage. -/
theorem Lineage.record (hl : Lineage h) {o : Op} (ho : MayIssue c (h.own pid) o)
    {did seen : Except Err (backend.Res o)} {w : World}
    (hans : (machine lib).Answer o h.world did seen w) : Lineage (h.record pid o did seen w) := by
  have hprogress := (hl.accounts ho hans).1
  refine ⟨hprogress.moves.sound hl.sound, fun e he => ?_⟩
  rcases List.mem_cons.mp he with rfl | he
  · exact ⟨hl.sound, hprogress⟩
  · exact ⟨(hl.past e he).1, (hl.past e he).2.trans hprogress⟩

/-- What else may happen leaves the rows of the groups alone. -/
theorem Elsewhere.progress {d d' : Db} (he : Elsewhere d d') : Progress d d' :=
  ⟨.of_eq he.groups he.members he.expenses he.nextId, .of_subset fun _ hx => he.expenses ▸ hx⟩

/-- What happens elsewhere keeps the lineage. -/
theorem Lineage.later (hl : Lineage h) {w : World} (he : Elsewhere h.world.db w.db) :
    Lineage (h.withWorld w) :=
  ⟨he.progress.moves.sound hl.sound,
    fun e hmem => ⟨(hl.past e hmem).1, (hl.past e hmem).2.trans he.progress⟩⟩

end Runs

section Reachable

variable {w₀ : World} {cfg : (groupSystem lib env).Config}

/-- What was known of every entry of a run when it was made. -/
theorem permitted_of_reachable (hw : Sound w₀.db)
    (hr : (groupSystem lib env).Reachable (fun w => w = w₀) cfg) {e : BackendEntry}
    (he : e ∈ cfg.hist.log) : ∃ c p l, cfg.procs[e.pid]? = some (c, p) ∧ e :: l <:+ cfg.hist.log ∧
      Lineage ⟨e.pre, l⟩ ∧ MayIssue c (l.filter (·.pid = e.pid)) e.op ∧
      (machine lib).Answer e.op e.pre e.did e.seen e.post := by
  obtain ⟨⟨w₁, -, hlinked⟩, -, -⟩ := System.replays hr
  obtain ⟨later, l, hlog⟩ := List.append_of_mem he
  have hl : e :: l <:+ cfg.hist.log := ⟨later, hlog.symm⟩
  have hstart : ∀ w : World, w = w₀ → Lineage ⟨w, []⟩ := by
    rintro w rfl
    exact ⟨hw, fun e he => absurd he List.not_mem_nil⟩
  obtain ⟨hlineage, c, p, hp, hmay⟩ := (groupSystem lib env).entries_of_ownLog
    (fun _ c l o => MayIssue c l o) (fun _ _ _ _ => True) Lineage
    (fun pid c _ => storeCall_permitted c) hstart (fun h w hI he => hI.later he)
    (fun pid c o h did seen w ho hI _ hans => hI.record ho hans) hr hl
  exact ⟨c, p, l, hp, hl, hlineage, hmay, hlinked.answer he⟩

end Reachable

/-! ## Strangers -/

section Strangers

variable {h : Hist backend Err World} {pid : ℕ} {c : StoreCall} {groupId : Id}

/-- The new group's rows are its own. -/
theorem createGroup_rowsOf {now : Time} {ownerId other : Id} {name : String}
    {a : ActivityEventInput} {g : Group} {d d' : Db} (hne : d.nextId ≠ other)
    (heval : (createGroupWithOwner now ownerId name a).eval d = .ok (g, d')) :
    d'.rowsOf other = d.rowsOf other := by
  obtain ⟨event, rfl, -, hevent, rfl⟩ := createGroupWithOwner_eq_ok heval
  unfold Db.rowsOf
  congr 1
  · exact List.filter_cons_of_neg (by simpa using hne)
  · exact List.filter_cons_of_neg (by simpa using hne)
  · exact List.filter_cons_of_neg (by simpa [hevent.1] using hne)

/-- A transaction of a requester who was not a member of the group, and is not one afterwards,
leaves its rows alone. -/
theorem Permitted.rowsOf (hl : Lineage h)
    (hbefore : ∀ r ∈ h.own pid, c.requester ∉ r.pre.db.memberIds groupId) {o : DbOp}
    (hp : Permitted (h.own pid) c o) {t : Choice → Time → Tx Db Err Metric o.Res}
    (ht : o.access = .write t) {ch : Choice} {now : Time} {r : o.Res} {d' : Db}
    (heval : (t ch now).eval h.world.db = .ok (r, d'))
    (hafter : c.requester ∉ d'.memberIds groupId) :
    d'.rowsOf groupId = h.world.db.rowsOf groupId := by
  have hmember : ∀ {g : Id}, WasMember (h.own pid) g c.requester → g ≠ groupId := by
    rintro g ⟨r, hr, hmem⟩ rfl
    exact hbefore r hr hmem
  have howner : ∀ {g : Id}, WasOwner (h.own pid) g c.requester → g ≠ groupId := by
    rintro g ⟨r, hr, howns⟩ rfl
    exact hbefore r hr (mem_of_owns (hl.past r (List.mem_of_mem_filter hr)).1 howns)
  -- The expense that is written is in another group, where it was when the requester saw it.
  have hexpense : ∀ {id : Id}, SawExpense (h.own pid) id c.requester →
      ∀ x, h.world.db.expense? id = some x → x.groupId ≠ groupId := by
    intro id hsaw x hx
    have hid : x.id = id := by simpa using List.find?_some hx
    exact hmember (hl.member hsaw (List.mem_of_find?_eq_some hx) hid)
  cases hp with
  | createGroup ownerId name a =>
    obtain rfl := Access.write.inj ht
    refine createGroup_rowsOf (fun hid => hafter ?_) heval
    obtain ⟨event, rfl, -, -, rfl⟩ := createGroupWithOwner_eq_ok heval
    exact Db.mem_memberIds.mpr ⟨_, List.mem_cons_self, hid, rfl⟩
  | updateGroup name a hwas =>
    obtain rfl := Access.write.inj ht
    exact UpdatesGroup.rowsOf (howner hwas) ⟨now, a, r, heval⟩
  | deleteGroup hwas =>
    obtain rfl := Access.write.inj ht
    exact DeletesGroup.rowsOf (howner hwas) heval
  | addGroupMember memberId a hwas =>
    obtain rfl := Access.write.inj ht
    exact AddsMember.rowsOf (howner hwas) ⟨now, a, r, heval⟩
  | removeGroupMember a hwas hother =>
    obtain rfl := Access.write.inj ht
    exact removeGroupMember_rowsOf (howner hwas) heval
  | createExpense data a hgroup hwas =>
    obtain rfl := Access.write.inj ht
    exact createExpense_rowsOf (hgroup ▸ hmember hwas) heval
  | updateExpense input data a hsaw =>
    obtain rfl := Access.write.inj ht
    obtain ⟨e, db₁, event, hupdate, -, -, -⟩ := updateExpenseWithSplits_eq_ok heval
    obtain ⟨x, hx, -⟩ := Prisma.expenseUpdate_eq_ok hupdate
    exact updateExpense_rowsOf hl.sound.expense_nodup hx (hexpense hsaw x hx) heval
  | deleteExpense a hsaw =>
    obtain rfl := Access.write.inj ht
    obtain ⟨x, event, hx, -, -⟩ := deleteExpenseWithEvent_eq_ok heval
    exact DeletesExpense.rowsOf hl.sound.expense_nodup hx (hexpense hsaw x hx) ⟨now, a, r, heval⟩
  | createSettlement idempotency existing data a expiresAt hgroup hwas =>
    obtain rfl := Access.write.inj ht
    have hne : data.groupId ≠ groupId := hgroup ▸ hmember hwas
    obtain ⟨-, -, event, records, hevent, -, rfl⟩ := claimAndSettle_eq_ok heval
    unfold Db.rowsOf
    congr 1
    · exact List.filter_cons_of_neg (by rw [decide_eq_true_eq]; exact hne)
    · exact List.filter_cons_of_neg (by simpa [hevent.1.1] using hne)

/-- Whoever is a member of the group in no state of a run leaves no trace in its rows, whatever
calls of theirs there are and however they interleave with those of others. -/
theorem strangers_leave_no_trace {w₀ : World} {cfg : (groupSystem lib env).Config}
    (hw : Sound w₀.db) (hr : (groupSystem lib env).Reachable (fun w => w = w₀) cfg) {userId : Id}
    (hnever : ∀ e ∈ cfg.hist.log,
      userId ∉ e.pre.db.memberIds groupId ∧ userId ∉ e.post.db.memberIds groupId) :
    ∀ e ∈ cfg.hist.log, ∀ c p, cfg.procs[e.pid]? = some (c, p) → c.requester = userId →
      e.post.db.rowsOf groupId = e.pre.db.rowsOf groupId := by
  rintro e he c p hp rfl
  obtain ⟨c', p', l, hp', hl, hlineage, hmay, hans⟩ := permitted_of_reachable hw hr he
  obtain ⟨rfl, rfl⟩ := Prod.mk.inj (Option.some.inj (hp'.symm.trans hp))
  rcases answer_transaction hmay hans with hdb | ⟨o, t, ch, r, -, hpermitted, ht, heval⟩
  · rw [hdb]
  · refine Permitted.rowsOf hlineage (fun r hr => ?_) hpermitted ht heval (hnever e he).2
    have hmem : r ∈ e :: l := List.mem_cons_of_mem e (List.mem_of_mem_filter hr)
    exact (hnever r (hl.subset hmem)).1

end Strangers

/-! ## Two runs -/

/-- The owner adds a member and renames the group, and an expense is deleted in between. -/
def busyGroup : List (System.Action (groupSystem .plain {})) :=
  List.flatten [[.spawn (.group (.addGroupMember 1 10 2)),
      .spawn (.group (.updateGroup 1 10 "Rome")), .spawn (.group (.deleteExpense 1 12))],
    System.turns _ 0 {} 2, System.turns _ 1 {} 2, System.turns _ 2 {} 3, System.turns _ 0 {} 2,
    System.turns _ 1 {} 1]

/-- A stranger founds a group and tries to delete an expense of another one, which its owner
renames meanwhile. -/
def strangerTries : List (System.Action (groupSystem .plain {})) :=
  List.flatten [[.spawn (.group (.deleteExpense 2 12)), .spawn (.createGroup 2 "Home"),
      .spawn (.group (.updateGroup 1 10 "Rome"))],
    System.turns _ 0 {} 1, System.turns _ 2 {} 2, System.turns _ 1 {} 1, System.turns _ 0 {} 1,
    System.turns _ 2 {} 1]

/-- A stranger who tries everything. -/
theorem strangers_leave_no_trace_tries : ∃ cfg : (groupSystem .plain {}).Config,
    cfg.hist.world.db.groups.map (·.name) = ["Home", "Rome"] ∧
      ∀ e ∈ cfg.hist.log, ∀ c p, cfg.procs[e.pid]? = some (c, p) → c.requester = 2 →
        e.post.db.rowsOf 10 = e.pre.db.rowsOf 10 := by
  obtain ⟨cfg, hplay, hnames, hnever⟩ : ∃ cfg,
      (groupSystem .plain {}).play strangerTries
        ((groupSystem .plain {}).start (guardedGroup "Trip" "Dinner")) = some cfg ∧
      cfg.hist.world.db.groups.map (·.name) = ["Home", "Rome"] ∧
      ∀ e ∈ cfg.hist.log, 2 ∉ e.pre.db.memberIds 10 ∧ 2 ∉ e.post.db.memberIds 10 :=
    System.exists_of_play (by decide +kernel)
  have hr : (groupSystem .plain {}).Reachable (fun w => w = guardedGroup "Trip" "Dinner") cfg :=
    System.reachable_of_play (fun _ _ _ => trivial) (.start rfl) hplay
  exact ⟨cfg, hnames, strangers_leave_no_trace (sound_guardedGroup _ _) hr hnever⟩

end SplitBill
