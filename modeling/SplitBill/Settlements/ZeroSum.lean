import SplitBill.Calls
import SplitBill.Settlements.Ledger

/-!
# When the published balances sum to zero

`createGroup`, `addGroupMember`, `removeGroupMember`, `createExpense`, `updateExpense`,
`deleteExpense` and `createSettlement`, one after another, each run to its end with success or
failure. `getGroupBalances` lists the present members only, and `removeGroupMember` does not look at
the balance of the member whom it removes, so the list need not sum to zero. It does after runs in
which every removed member has a zero balance and no edit or deletion of an expense changes what a
former member is left with (`Harmless`), as long as a double can hold each listed balance.
-/

namespace SplitBill

open Interleave
open Prisma (SplitAmount UpdateExpenseData)

/-- The calls that change groups, memberships, expenses and settlements. -/
inductive BookCall
  | createGroup (userId : Id) (name : String)
  | addGroupMember (userId groupId memberId : Id)
  | removeGroupMember (userId groupId memberId : Id)
  | createExpense (requesterId : Id) (input : CreateExpenseInput)
  | updateExpense (requesterId expenseId : Id) (input : UpdateExpenseInput)
  | deleteExpense (requesterId expenseId : Id)
  | createSettlement (requesterId : Id) (input : CreateSettlementInput)
      (idempotency : IdempotencyContext)

namespace BookCall

/-- The program of a call. -/
def body (env : Env) : BookCall → Act Unit
  | createGroup userId name => void (GroupService.createGroup userId name)
  | addGroupMember userId groupId memberId =>
    void (GroupService.addGroupMember userId groupId memberId)
  | removeGroupMember userId groupId memberId =>
    GroupService.removeGroupMember userId groupId memberId
  | createExpense requesterId input => void (ExpenseService.createExpense requesterId input)
  | updateExpense requesterId expenseId input =>
    void (ExpenseService.updateExpense requesterId expenseId input)
  | deleteExpense requesterId expenseId => ExpenseService.deleteExpense requesterId expenseId
  | createSettlement requesterId input idempotency =>
    void (SettlementService.createSettlement env requesterId input idempotency)

/-- The body of the request is accepted by its schema. -/
def Accepted : BookCall → Prop
  | createExpense _ input => input.Accepted
  | updateExpense _ _ input => input.Accepted
  | createSettlement _ input _ => input.Accepted
  | _ => True

instance : DecidablePred Accepted
  | createGroup _ _ => isTrue trivial
  | addGroupMember _ _ _ => isTrue trivial
  | removeGroupMember _ _ _ => isTrue trivial
  | createExpense _ input => inferInstanceAs (Decidable input.Accepted)
  | updateExpense _ _ input => inferInstanceAs (Decidable input.Accepted)
  | deleteExpense _ _ => isTrue trivial
  | createSettlement _ input _ => inferInstanceAs (Decidable input.Accepted)

/-- An update that changes nothing for the user `u`, who is no longer a member: new participants
take the place of one who has no part in the expense on balance; kept ones stay with their amounts,
or with an equal share that is theirs already. -/
def UpdateSpares (e : Expense) (input : UpdateExpenseInput) (u : Id) : Prop :=
  if input.participants.isSome then e.forBalance.netOf u = 0
  else e.paidById ≠ u ∧
    (input.splitType.getD e.splitType = .equal → ∀ s ∈ e.splits, s.userId = u →
      input.amountMinorUnits.getD e.amountMinorUnits = e.splits.length * s.amountMinorUnits)

/-- The splits of an update are accepted: those of new participants are reconciled with the total,
and those of an exact split that is kept still sum to it. -/
def Reconciles (memberIds : List Id) (e : Expense) (input : UpdateExpenseInput) : Prop :=
  (∀ participants ∈ input.participants,
    (ExpenseService.reconcileSplits (input.splitType.getD e.splitType)
      (input.amountMinorUnits.getD e.amountMinorUnits) participants memberIds).toOption.isSome) ∧
  (input.participants.isNone → input.splitType.getD e.splitType = .exact →
    sumSplitAmounts e.forBalance.splits = input.amountMinorUnits.getD e.amountMinorUnits)

instance (memberIds : List Id) (e : Expense) (input : UpdateExpenseInput) :
    Decidable (Reconciles memberIds e input) :=
  inferInstanceAs (Decidable (_ ∧ _))

instance (e : Expense) (input : UpdateExpenseInput) (u : Id) :
    Decidable (UpdateSpares e input u) :=
  inferInstanceAs (Decidable (if input.participants.isSome then e.forBalance.netOf u = 0
    else e.paidById ≠ u ∧
      (input.splitType.getD e.splitType = .equal → ∀ s ∈ e.splits, s.userId = u →
        input.amountMinorUnits.getD e.amountMinorUnits = e.splits.length * s.amountMinorUnits)))

/-- A call that does not change what former members are left with: it removes only members with a
zero balance, and edits or deletes an expense only where that spares the former members whom the
expense names. Calls that the service refuses are harmless as well: because of who sent them, because
the payer is not a member, or because the splits do not fit. -/
def Harmless (db : Db) : BookCall → Prop
  | removeGroupMember userId groupId memberId => ∀ g ∈ db.group? groupId, g.createdById = userId →
    memberId ≠ g.createdById → position db groupId memberId = 0
  | updateExpense requesterId expenseId input => ∀ e ∈ db.expense? expenseId,
    requesterId ∈ db.memberIds e.groupId → input.payerId.getD e.paidById ∈ db.memberIds e.groupId →
      Reconciles (db.memberIds e.groupId) e input →
        ∀ u ∈ e.people, u ∉ db.memberIds e.groupId → UpdateSpares e input u
  | deleteExpense requesterId expenseId => ∀ e ∈ db.expense? expenseId,
    requesterId ∈ db.memberIds e.groupId →
      ∀ u ∈ e.people, u ∉ db.memberIds e.groupId → e.forBalance.netOf u = 0
  | _ => True

instance (db : Db) : DecidablePred (Harmless db)
  | createGroup _ _ => isTrue trivial
  | addGroupMember _ _ _ => isTrue trivial
  | removeGroupMember userId groupId memberId =>
    inferInstanceAs (Decidable (∀ g ∈ db.group? groupId, g.createdById = userId →
      memberId ≠ g.createdById → position db groupId memberId = 0))
  | createExpense _ _ => isTrue trivial
  | updateExpense requesterId expenseId input =>
    inferInstanceAs (Decidable (∀ e ∈ db.expense? expenseId,
      requesterId ∈ db.memberIds e.groupId →
        input.payerId.getD e.paidById ∈ db.memberIds e.groupId →
          Reconciles (db.memberIds e.groupId) e input →
            ∀ u ∈ e.people, u ∉ db.memberIds e.groupId → UpdateSpares e input u))
  | deleteExpense requesterId expenseId =>
    inferInstanceAs (Decidable (∀ e ∈ db.expense? expenseId,
      requesterId ∈ db.memberIds e.groupId →
        ∀ u ∈ e.people, u ∉ db.memberIds e.groupId → e.forBalance.netOf u = 0))
  | createSettlement _ _ _ => isTrue trivial

end BookCall

/-- The worlds from which the runs start: users, but no group yet. -/
def NoBooks (w : World) : Prop :=
  w.db.groups = [] ∧ w.db.groupMembers = [] ∧ w.db.expenses = [] ∧ w.db.settlements = []

/-- Before the first group the books are in order. -/
theorem ledger_of_noBooks {w : World} (h : NoBooks w) : Ledger w.db := by
  obtain ⟨-, hm, he, hs⟩ := h
  constructor
  case wellFormed =>
    intro e hmem
    rw [he] at hmem
    cases hmem
  case expenseIds =>
    rw [he]
    exact List.nodup_nil
  case expenseIds_lt =>
    intro e hmem
    rw [he] at hmem
    cases hmem
  case members =>
    intro groupId
    unfold Db.memberIds Db.membersOf
    rw [hm]
    exact List.nodup_nil
  case settled =>
    intro groupId u _
    unfold position
    rw [he, hs]
    rfl

/-! ## What each transaction keeps -/

section Transactions

variable {d d' : Db}

/-- A new member keeps the books in order. -/
theorem AddsMember.ledger (h : Ledger d) {groupId memberId : Id}
    (hc : AddsMember groupId memberId d d') : Ledger d' := by
  obtain ⟨now, a, m, heval⟩ := hc
  obtain ⟨event, hnone, -, rfl, -, rfl⟩ := addGroupMemberWithEvent_eq_ok heval
  exact h.addMember hnone rfl rfl rfl (Nat.le_add_right _ 2)

/-- Removing a member whose position is zero keeps the books in order. -/
theorem RemovesMember.ledger (h : Ledger d) {groupId memberId : Id}
    (hpos : position d groupId memberId = 0) (hc : RemovesMember groupId memberId d d') :
    Ledger d' := by
  obtain ⟨-, now, a, r, heval⟩ := hc
  obtain ⟨event, -, -, rfl⟩ := removeGroupMemberWithEvent_eq_ok heval
  exact h.removeMember hpos rfl rfl rfl (Nat.le_add_right _ 1)

/-- The shares of one user among the splits of an update that keeps the participants. -/
theorem shareOf_nextSplits {c : Choice} {db : Db} {before : ExpenseSplit → ExpenseSplit → Bool}
    {e : Expense} (hwell : e.WellFormed) {input : UpdateExpenseInput} {memberIds : List Id}
    {splits : List SplitAmount}
    (h : ExpenseService.nextSplits (e.details c db before) input memberIds = .ok splits) {u : Id}
    (hnone : input.participants = none)
    (hequal : input.splitType.getD e.splitType = .equal → ∀ s ∈ e.splits, s.userId = u →
      input.amountMinorUnits.getD e.amountMinorUnits = e.splits.length * s.amountMinorUnits) :
    shareOf splits u = shareOf e.forBalance.splits u := by
  have hperm : (ExpenseService.keptSplits (e.details c db before)).Perm e.forBalance.splits :=
    ExpenseService.keptSplits_perm c db before e
  unfold ExpenseService.nextSplits at h
  rw [hnone] at h
  cases ht : input.splitType.getD (e.details c db before).splitType with
  | exact =>
    simp only [ht, ite_error_eq_ok, not_not, Except.ok.injEq] at h
    obtain ⟨-, rfl⟩ := h
    exact shareOf_perm hperm u
  | equal =>
    simp only [ht, Except.ok.injEq] at h
    -- The participants of the new splits are those of the old ones.
    have hids : (splits.map (·.userId)).Perm (e.splits.map (·.userId)) := by
      rw [← h, userIds_calculateEqualSplits]
      have hids := hperm.map (·.userId)
      rw [ExpenseService.keptSplits, Expense.forBalance, List.map_map, List.map_map] at hids
      exact hids
    have hnodup : (splits.map (·.userId)).Nodup := hids.nodup_iff.mpr hwell.users_nodup
    by_cases hu : u ∈ e.splits.map (·.userId)
    · obtain ⟨s, hs, rfl⟩ := List.mem_map.mp hu
      have htotal := hequal ht s hs rfl
      obtain ⟨s', hs', hs'u⟩ := List.mem_map.mp (hids.mem_iff.mpr hu)
      have hlen : ((e.details c db before).splits.map (·.userId)).length = e.splits.length := by
        have := hids.length_eq
        rw [← h, userIds_calculateEqualSplits, @List.length_map _ _ e.splits] at this
        exact this
      have hamount : s'.amountMinorUnits = s.amountMinorUnits := by
        have hs'' : s' ∈ calculateEqualSplits (input.amountMinorUnits.getD e.amountMinorUnits)
            ((e.details c db before).splits.map (·.userId)) := h ▸ hs'
        rw [htotal, ← hlen] at hs''
        exact calculateEqualSplits_of_dvd hs''
      have hold : shareOf e.forBalance.splits s.userId = s.amountMinorUnits := by
        have hmem : (⟨s.userId, s.amountMinorUnits⟩ : SplitAmount) ∈ e.forBalance.splits :=
          List.mem_map_of_mem hs
        refine shareOf_eq ?_ hmem
        rw [Expense.forBalance, List.map_map]
        exact hwell.users_nodup
      rw [hold, ← hs'u, shareOf_eq hnodup hs', hamount]
    · rw [shareOf_eq_zero fun hmem => hu (hids.mem_iff.mp hmem), shareOf_eq_zero]
      rw [Expense.forBalance, List.map_map]
      exact hu

/-- `reconcileSplits` asks of the members only who they are, not in which order. -/
theorem reconcileSplits_congr {memberIds memberIds' : List Id}
    (hids : ∀ u, u ∈ memberIds ↔ u ∈ memberIds') (splitType : SplitType) (total : ℤ)
    (participants : List Participant) :
    ExpenseService.reconcileSplits splitType total participants memberIds =
      ExpenseService.reconcileSplits splitType total participants memberIds' := by
  unfold ExpenseService.reconcileSplits
  simp only [hids]

/-- An update that comes to splits has accepted ones. -/
theorem reconciles_of_nextSplits {c : Choice} {db : Db}
    {before : ExpenseSplit → ExpenseSplit → Bool} {e : Expense} {input : UpdateExpenseInput}
    {memberIds memberIds' : List Id} (hids : ∀ u, u ∈ memberIds ↔ u ∈ memberIds')
    {splits : List SplitAmount}
    (h : ExpenseService.nextSplits (e.details c db before) input memberIds = .ok splits) :
    BookCall.Reconciles memberIds' e input := by
  unfold ExpenseService.nextSplits at h
  cases hp : input.participants with
  | some participants =>
    simp only [hp, reconcileSplits_congr hids] at h
    refine ⟨fun ps hps => ?_, fun hnone => by rw [hp] at hnone; cases hnone⟩
    obtain rfl := Option.some.inj (hp.symm.trans hps)
    exact Option.isSome_of_mem (congrArg Except.toOption h)
  | none =>
    refine ⟨fun ps hps => (Option.some_ne_none ps (hps.symm.trans hp)).elim, fun _ ht => ?_⟩
    have ht' : input.splitType.getD (e.details c db before).splitType = .exact := ht
    -- The kept splits are those of the expense in another order, so that their sum is the same.
    have hperm : (ExpenseService.keptSplits (e.details c db before)).Perm e.forBalance.splits :=
      ExpenseService.keptSplits_perm c db before e
    simp only [hp, ht', ite_error_eq_ok, not_not] at h
    rw [sumSplitAmounts_eq, ← (hperm.map _).sum_eq, ← sumSplitAmounts_eq]
    exact h.1

/-- A harmless update changes nothing for those who are no longer members. -/
theorem netOf_update {c : Choice} {db : Db} {before : ExpenseSplit → ExpenseSplit → Bool}
    {e : Expense} (hwell : e.WellFormed) {input : UpdateExpenseInput} {memberIds : List Id}
    {splits : List SplitAmount}
    (h : ExpenseService.nextSplits (e.details c db before) input memberIds = .ok splits)
    (hpayer : input.payerId.getD e.paidById ∈ memberIds)
    (hspares : ∀ u ∈ e.people, u ∉ memberIds → BookCall.UpdateSpares e input u) {u : Id}
    (hu : u ∉ memberIds) :
    (⟨input.payerId.getD e.paidById, input.amountMinorUnits.getD e.amountMinorUnits, splits⟩ :
      ExpenseForBalance).netOf u = e.forBalance.netOf u := by
  have hne : input.payerId.getD e.paidById ≠ u := fun hp => hu (hp ▸ hpayer)
  cases hp : input.participants with
  | some participants =>
    -- The participants are replaced by members, so that nothing is left for the user.
    have hold : e.forBalance.netOf u = 0 := by
      by_cases hmem : u ∈ e.people
      · have := hspares u hmem hu
        rw [BookCall.UpdateSpares, hp] at this
        exact this
      · exact Expense.netOf_eq_zero hmem
    rw [hold]
    unfold ExpenseService.nextSplits at h
    rw [hp] at h
    exact ExpenseForBalance.netOf_eq_zero hne fun hmem => hu (reconcileSplits_members h u hmem)
  | none =>
    have hspare : e.paidById ≠ u ∧
        (input.splitType.getD e.splitType = .equal → ∀ s ∈ e.splits, s.userId = u →
          input.amountMinorUnits.getD e.amountMinorUnits =
            e.splits.length * s.amountMinorUnits) := by
      by_cases hmem : u ∈ e.people
      · have := hspares u hmem hu
        rw [BookCall.UpdateSpares, hp] at this
        exact this
      · rw [Expense.people, List.mem_cons, not_or] at hmem
        exact ⟨Ne.symm hmem.1, fun _ s hs hsu => absurd (hsu ▸ List.mem_map_of_mem hs) hmem.2⟩
    -- The user neither pays nor has another share than before.
    show (if _ = u then _ else 0) - shareOf splits u = (if e.paidById = u then _ else 0) - _
    rw [if_neg hne, if_neg hspare.1, shareOf_nextSplits hwell h hp hspare.2]

/-- A new expense keeps the books in order. -/
theorem CreatesExpense.ledger (h : Ledger d) {input : CreateExpenseInput}
    (hacc : input.Accepted) (hc : CreatesExpense input d d') : Ledger d' := by
  obtain ⟨memberIds, splits, date, hids, hpayer, hsplits, c, now, a, r, heval⟩ := hc
  have hdata := ExpenseService.reconcileSplits_wellSplit hacc.1.1 hacc.2.1 hacc.2.2 hsplits
  obtain ⟨e, db₁, event, hcreate, -, rfl, -⟩ := createExpenseWithSplits_eq_ok heval
  obtain ⟨-, rfl, rfl⟩ := Prisma.expenseCreate_eq_ok hcreate
  refine h.addExpense (Expense.wellFormed_of_newSplits rfl hdata) rfl ?_ rfl rfl rfl ?_
  · intro u hu
    show u ∈ d.memberIds input.groupId
    rcases List.mem_cons.mp hu with rfl | hu
    · exact (hids _).mp hpayer
    · refine (hids u).mp (reconcileSplits_members hsplits u ?_)
      rw [← userIds_newSplits now (d.nextId + 1)]
      exact hu
  · exact Nat.lt_succ_of_le (le_trans (Nat.le_succ _) (Nat.le_add_right _ _))

/-- A harmless change of an expense keeps the books in order. -/
theorem UpdatesExpense.ledger (h : Ledger d) {requesterId expenseId : Id}
    {input : UpdateExpenseInput} (hacc : input.Accepted)
    (hadmits : SeesExpense d expenseId requesterId)
    (hharmless : BookCall.Harmless d (.updateExpense requesterId expenseId input))
    (hc : UpdatesExpense expenseId input d d') : Ledger d' := by
  obtain ⟨e, memberIds, splits, hfind, hids, hpayer, ⟨c₀, hsplits⟩, c, now, a, r, heval⟩ := hc
  obtain ⟨e', hfind', hrequester⟩ := hadmits
  obtain rfl := Option.some.inj (hfind.symm.trans hfind')
  have hwell : e.WellFormed := h.wellFormed e (List.mem_of_find?_eq_some hfind)
  have hspares := hharmless e hfind hrequester ((hids _).mp hpayer)
    (reconciles_of_nextSplits hids hsplits)
  obtain ⟨_, db₁, event, hupdate, -, rfl, -⟩ := updateExpenseWithSplits_eq_ok heval
  obtain ⟨_, -, -, -, -, rfl⟩ := Prisma.expenseUpdate_eq_ok hupdate
  let data : UpdateExpenseData :=
    { paidById := input.payerId.getD e.paidById
      description := input.description.getD e.description
      amountMinorUnits := input.amountMinorUnits.getD e.amountMinorUnits
      splitType := input.splitType.getD e.splitType
      expenseDate := input.expenseDate.getD e.expenseDate
      splits := splits }
  have hwell' : (data.applyTo now d.nextId e).WellFormed :=
    Expense.wellFormed_of_newSplits rfl (ExpenseService.nextSplits_wellSplit hwell hacc hsplits)
  refine h.updateExpense hfind hwell' (fun _ => rfl) rfl ?_ rfl rfl rfl
    (le_trans (Nat.le_add_right _ _) (Nat.le_succ _))
  -- Whoever is no member keeps the position of the old row.
  intro u hu
  have hnet := netOf_update hwell hsplits hpayer
    (fun v hv hv' => hspares v hv fun hmem => hv' ((hids v).mpr hmem))
    (fun hmem => hu ((hids u).mp hmem))
  rw [← hnet]
  show (⟨_, _, List.map _ (Prisma.newSplits now _ splits)⟩ : ExpenseForBalance).netOf u = _
  rw [map_newSplits]
  rfl

/-- A harmless deletion keeps the books in order. -/
theorem DeletesExpense.ledger (h : Ledger d) {requesterId expenseId : Id}
    (hadmits : SeesExpense d expenseId requesterId)
    (hharmless : BookCall.Harmless d (.deleteExpense requesterId expenseId))
    (hc : DeletesExpense expenseId d d') : Ledger d' := by
  obtain ⟨now, a, r, heval⟩ := hc
  obtain ⟨e, hfind, hrequester⟩ := hadmits
  have hspares := hharmless e hfind hrequester
  obtain ⟨e', event, -, -, rfl⟩ := deleteExpenseWithEvent_eq_ok heval
  refine h.deleteExpense hfind (fun u hu => ?_) rfl rfl rfl (Nat.le_succ _)
  by_cases hpeople : u ∈ e.people
  · exact hspares u hpeople hu
  · exact Expense.netOf_eq_zero hpeople

/-- A settlement keeps the books in order. -/
theorem CreatesSettlement.ledger (h : Ledger d) {input : CreateSettlementInput}
    (hc : CreatesSettlement input d d') : Ledger d' := by
  obtain ⟨hpayer, hpayee, hclaims⟩ := hc
  have hkeeps : Ledger d' ∧ d'.memberIds = d.memberIds := by
    induction hclaims with
    | refl => exact ⟨h, rfl⟩
    | tail _ hclaim ih =>
      obtain ⟨hd, hids⟩ := ih
      obtain ⟨existing, data, context, a, expiresAt, now, s, hgroup, hp, hq, heval⟩ := hclaim
      obtain ⟨-, -, event, records, -, -, rfl⟩ := claimAndSettle_eq_ok heval
      refine ⟨hd.settle (s := newSettlement _ now data) ?_ ?_ rfl rfl rfl (Nat.le_add_right _ 3),
        hids⟩
      · show data.payerId ∈ Db.memberIds _ data.groupId
        rw [hids, hgroup, hp]
        exact hpayer
      · show data.payeeId ∈ Db.memberIds _ data.groupId
        rw [hids, hgroup, hq]
        exact hpayee
  exact hkeeps.1

end Transactions

/-! ## What each call keeps -/

section Calls

variable {lib : Lib} {w : World}

/-- A new group has no books yet. -/
theorem createGroup_keeps (h : Ledger w.db) (userId : Id) (name : String) :
    wp ((machine lib).alone World.Later) (fun _ (y : World) => Ledger y.db)
      (GroupService.createGroup userId name) w := by
  refine (sequential_alone lib).keeps
    (T := fun o => ∃ a b c, o = .group (.createGroupWithOwner a b c)) ?_ ?_ h
  · rintro _ ⟨a, b, c, rfl⟩ t ht ch now d r d' hd heval
    obtain rfl := Access.write.inj ht
    obtain ⟨event, rfl, hnone, -, rfl⟩ := createGroupWithOwner_eq_ok heval
    exact hd.addMember hnone rfl rfl rfl (Nat.le_add_right _ 3)
  · unfold GroupService.createGroup
    refine .bind (issues_op (.inr ⟨_, _, _, rfl⟩)) fun g => ?_
    exact .bind (issues_op trivial) fun _ => trivial

/-- A harmless call keeps the ledger. -/
theorem bookCall_keeps (h : Ledger w.db) (env : Env) {c : BookCall} (hacc : c.Accepted)
    (hc : c.Harmless w.db) :
    wp ((machine lib).alone World.Later) (fun _ (y : World) => Ledger y.db) (c.body env) w := by
  have hD := sequential_alone lib
  -- A call commits its transaction or leaves the tables.
  have hholds : ∀ {α : Type} {p : Act α} {admits : Prop} {denial : Err} {commits : Db → Prop},
      wp ((machine lib).alone World.Later) (Outcome False w.db admits denial commits) p w →
      (∀ d', admits → commits d' → Ledger d') →
      wp ((machine lib).alone World.Later) (fun _ (y : World) => Ledger y.db) p w :=
    fun hp hledger => wp_mono (fun _ _ hy => hy.holds h hledger) hp
  cases c with
  | createGroup userId name => exact wp_void (createGroup_keeps h userId name)
  | addGroupMember userId groupId memberId =>
    exact wp_void (hholds (addGroupMember_outcome hD userId groupId memberId)
      fun _ _ hadds => hadds.ledger h)
  | removeGroupMember userId groupId memberId =>
    refine hholds (removeGroupMember_outcome hD userId groupId memberId)
      fun _ hadmits hremoves => ?_
    obtain ⟨g, hg, howner⟩ := hadmits
    exact hremoves.ledger h (hc g hg howner (hremoves.1 g hg))
  | createExpense requesterId input =>
    exact wp_void (hholds (createExpense_outcome hD requesterId input)
      fun _ _ hcreates => hcreates.ledger h hacc)
  | updateExpense requesterId expenseId input =>
    exact wp_void (hholds (updateExpense_outcome hD requesterId expenseId input)
      fun _ hadmits hupdates => hupdates.ledger h hacc hadmits hc)
  | deleteExpense requesterId expenseId =>
    exact hholds (deleteExpense_outcome hD requesterId expenseId)
      fun _ hadmits hdeletes => hdeletes.ledger h hadmits hc
  | createSettlement requesterId input idempotency =>
    exact wp_void (hholds (createSettlement_outcome hD env requesterId input idempotency)
      fun _ _ hcreates => hcreates.ledger h)

/-- The list of a ledger's balances sums to zero, if each balance can be listed. -/
theorem sum_eq_zero_of_positions (h : Ledger w.db) {groupId : Id} {dtos : List BalanceDto}
    (hmembers : (dtos.map (·.userId)).Perm (w.db.memberIds groupId))
    (hamounts : ∀ dto ∈ dtos, dto.amountMinorUnits = Js.number (position w.db groupId dto.userId))
    (hrep : ∀ u ∈ w.db.memberIds groupId, Js.Representable (position w.db groupId u)) :
    (dtos.map (·.amountMinorUnits)).sum = 0 :=
  calc (dtos.map (·.amountMinorUnits)).sum
      = ((dtos.map (·.userId)).map (position w.db groupId)).sum := by
        rw [List.map_map]
        refine congrArg List.sum (List.map_congr_left fun dto hdto => ?_)
        have hmember : dto.userId ∈ w.db.memberIds groupId :=
          hmembers.mem_iff.mp (List.mem_map_of_mem hdto)
        exact (hamounts dto hdto).trans (hrep _ hmember)
    _ = ((w.db.memberIds groupId).map (position w.db groupId)).sum := (hmembers.map _).sum_eq
    _ = 0 := h.sum_eq_zero groupId

end Calls

/-! ## Runs -/

/-- The tables are a ledger after every run of harmless calls. -/
theorem ledger_of_sequence {lib : Lib} {env : Env} {w : World}
    (h : Sequence (machine lib) World.Later (BookCall.body env)
      (fun c w => c.Accepted ∧ c.Harmless w.db) NoBooks w) : Ledger w.db := by
  refine Sequence.invariant (fun w => Ledger w.db) (fun _ => ledger_of_noBooks) ?_ ?_ h
  · rintro w w' hw ⟨t, -, rfl⟩
    exact hw
  · rintro c w hw ⟨hacc, hc⟩
    exact bookCall_keeps hw env hacc hc

/-- After every run of harmless calls, the balances that a member is shown sum to zero, if each of
them is a number that a double can hold. -/
theorem published_balances_sum_zero {lib : Lib} {env : Env} {w : World}
    (h : Sequence (machine lib) World.Later (BookCall.body env)
      (fun c w => c.Accepted ∧ c.Harmless w.db) NoBooks w) {requesterId groupId : Id}
    (hrep : ∀ u ∈ w.db.memberIds groupId, Js.Representable (position w.db groupId u))
    {dtos : List BalanceDto} {w' : World}
    (hx : Exec (machine lib) World.Later
      (SettlementService.getGroupBalances requesterId groupId) w (.ok dtos) w') :
    (dtos.map (·.amountMinorUnits)).sum = 0 := by
  obtain ⟨hmembers, hamounts⟩ :=
    hx.sound (getGroupBalances_positions requesterId groupId) dtos rfl
  exact sum_eq_zero_of_positions (ledger_of_sequence h) hmembers hamounts hrep

/-- Three users without a group. -/
def threeUsers : World where
  db :=
    { users := [⟨1, "A", "a@x.io", none, none⟩, ⟨2, "B", "b@x.io", none, none⟩,
        ⟨3, "C", "c@x.io", none, none⟩]
      nextId := 20 }

/-- Two of three members share an expense, and the third one leaves. -/
def settledRemoval : List BookCall :=
  [.createGroup 1 "Trip", .addGroupMember 1 20 2, .addGroupMember 1 20 3,
    .createExpense 1 ⟨20, "Dinner", 1000, 1, .equal, [⟨1, none⟩, ⟨2, none⟩], none⟩,
    .removeGroupMember 1 20 3]

/-- The amounts that user 1 is shown after some calls. -/
def shownAfter (w : World) : Except Err (List ℤ) :=
  ((machine .plain).run {} (SettlementService.getGroupBalances 1 20) w).1.map fun dtos =>
    dtos.map (·.amountMinorUnits)

/-- What is shown in a world is what a run of `getGroupBalances` answers there. -/
theorem exec_of_shownAfter {w : World} {amounts : List ℤ} (h : shownAfter w = .ok amounts) :
    ∃ dtos w', Exec (machine .plain) World.Later (SettlementService.getGroupBalances 1 20) w
      (.ok dtos) w' ∧ dtos.map (·.amountMinorUnits) = amounts := by
  have hx := (machine .plain).exec_run World.later_refl {}
    (SettlementService.getGroupBalances 1 20) w
  unfold shownAfter at h
  cases hr : ((machine .plain).run {} (SettlementService.getGroupBalances 1 20) w).1 with
  | error e => rw [hr] at h; cases h
  | ok dtos =>
    rw [hr] at h hx
    exact ⟨dtos, _, hx, Except.ok.inj h⟩

/-- A member without a share leaves the group, and the balances shown still sum to zero. -/
theorem published_balances_sum_zero_settled : ∃ w dtos w',
    (machine .plain).runAll (BookCall.body {}) (fun c w => c.Accepted ∧ c.Harmless w.db) {}
      settledRemoval threeUsers = some w ∧
    Exec (machine .plain) World.Later (SettlementService.getGroupBalances 1 20) w (.ok dtos) w' ∧
    dtos.map (·.amountMinorUnits) = [500, -500] ∧ (dtos.map (·.amountMinorUnits)).sum = 0 := by
  have hrun : ((machine .plain).runAll (BookCall.body {})
      (fun c w => c.Accepted ∧ c.Harmless w.db) {} settledRemoval threeUsers).map (fun w =>
        (shownAfter w,
          decide (∀ u ∈ w.db.memberIds 20, Js.Representable (position w.db 20 u)))) =
      some (.ok [500, -500], true) := by decide
  obtain ⟨w, h, hw⟩ := Option.map_eq_some_iff.mp hrun
  obtain ⟨hshown, hrep⟩ := Prod.mk.inj hw
  obtain ⟨dtos, w', hx, hdtos⟩ := exec_of_shownAfter hshown
  have hseq : Sequence (machine .plain) World.Later (BookCall.body {})
      (fun c w => c.Accepted ∧ c.Harmless w.db) NoBooks w :=
    .of_runAll World.later_refl (.start (by simp [NoBooks, threeUsers])) h
  exact ⟨w, dtos, w', h, hx, hdtos, published_balances_sum_zero hseq (of_decide_eq_true hrep) hx⟩

/-- A member who owes their share of an expense is removed. -/
def unsettledRemoval : List BookCall :=
  [.createGroup 1 "Trip", .addGroupMember 1 20 2,
    .createExpense 1 ⟨20, "Dinner", 1000, 1, .equal, [⟨1, none⟩, ⟨2, none⟩], none⟩,
    .removeGroupMember 1 20 2]

/-- Once a member who owes 500 is removed, the only balance that is left is a credit of 500. -/
theorem published_balances_unsettled : ∃ w dtos w',
    Sequence (machine .plain) World.Later (BookCall.body {}) (fun c _ => c.Accepted) NoBooks w ∧
    Exec (machine .plain) World.Later (SettlementService.getGroupBalances 1 20) w (.ok dtos) w' ∧
    dtos.map (·.amountMinorUnits) = [500] ∧ (dtos.map (·.amountMinorUnits)).sum ≠ 0 := by
  have hrun : ((machine .plain).runAll (BookCall.body {}) (fun c _ => c.Accepted) {}
      unsettledRemoval threeUsers).map shownAfter = some (.ok [500]) := by decide
  obtain ⟨w, h, hshown⟩ := Option.map_eq_some_iff.mp hrun
  obtain ⟨dtos, w', hx, hdtos⟩ := exec_of_shownAfter hshown
  have hseq : Sequence (machine .plain) World.Later (BookCall.body {}) (fun c _ => c.Accepted)
      NoBooks w :=
    .of_runAll World.later_refl (.start (by simp [NoBooks, threeUsers])) h
  exact ⟨w, dtos, w', hseq, hx, hdtos, by rw [hdtos]; decide⟩

end SplitBill
