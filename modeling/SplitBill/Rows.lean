import SplitBill.Calls

/-!
# The rows of a group

`Db.rowsOf` are the rows that belong to one group. A transaction writes rows of its own group only,
so the rows of every other group stay as they are.
-/

namespace SplitBill

/-- The rows that belong to a group. -/
structure GroupRows where
  groups : List Group
  members : List GroupMember
  expenses : List Expense
  settlements : List Settlement
  events : List ActivityEvent
  summaries : List GroupSummary
  deriving DecidableEq

/-- The rows of a group. -/
def Db.rowsOf (db : Db) (groupId : Id) : GroupRows where
  groups := db.groups.filter (·.id = groupId)
  members := db.membersOf groupId
  expenses := db.expensesOf groupId
  settlements := db.settlementsOf groupId
  events := db.activityEvents.filter (·.groupId = groupId)
  summaries := db.groupSummaries.filter (·.groupId = groupId)

section Rows

variable {d d' : Db} {groupId other : Id}

/-- Rows that are dropped when none of them is looked for. -/
theorem filter_filter_of_imp {α : Type} {p q : α → Bool} {rows : List α}
    (h : ∀ x ∈ rows, q x = true → p x = true) : (rows.filter p).filter q = rows.filter q := by
  rw [List.filter_filter]
  refine List.filter_congr fun x hx => ?_
  cases hq : q x
  · rfl
  · simp [h x hx hq]

/-- A rename concerns one group. -/
theorem UpdatesGroup.rowsOf (hne : groupId ≠ other) {name : String}
    (hc : UpdatesGroup groupId name d d') : d'.rowsOf other = d.rowsOf other := by
  obtain ⟨now, a, g, heval⟩ := hc
  obtain ⟨old, event, hold, rfl, hevent, rfl⟩ := updateGroupWithEvent_eq_ok heval
  have hid : old.id = groupId := by simpa using List.find?_some hold
  have hother : event.groupId ≠ other := by rw [hevent.1]; exact hid ▸ hne
  unfold Db.rowsOf
  congr 1
  · refine filter_updateWhere fun x _ hx => ?_
    have hx : x.id = groupId := of_decide_eq_true hx
    simp [hx, hne]
  · exact List.filter_cons_of_neg (by simpa using hother)

/-- A deletion concerns one group. -/
theorem DeletesGroup.rowsOf (hne : groupId ≠ other) (hc : DeletesGroup groupId d d') :
    d'.rowsOf other = d.rowsOf other := by
  obtain rfl := Prisma.groupDelete_eq_ok hc
  have hdrop : ∀ {α : Type} (groupOf : α → Id) (rows : List α),
      (rows.filter (groupOf · ≠ groupId)).filter (groupOf · = other) =
        rows.filter (groupOf · = other) := by
    intro α groupOf rows
    refine filter_filter_of_imp fun x _ hx => ?_
    have hx : groupOf x = other := of_decide_eq_true hx
    simpa [hx] using hne.symm
  unfold Db.rowsOf
  congr 1
  · exact hdrop Group.id _
  · exact hdrop GroupMember.groupId _
  · exact hdrop Expense.groupId _
  · exact hdrop Settlement.groupId _
  · exact hdrop ActivityEvent.groupId _
  · exact hdrop GroupSummary.groupId _

/-- A new member concerns one group. -/
theorem AddsMember.rowsOf (hne : groupId ≠ other) {memberId : Id}
    (hc : AddsMember groupId memberId d d') : d'.rowsOf other = d.rowsOf other := by
  obtain ⟨now, a, m, heval⟩ := hc
  obtain ⟨event, -, -, rfl, hevent, rfl⟩ := addGroupMemberWithEvent_eq_ok heval
  unfold Db.rowsOf
  congr 1
  · exact List.filter_cons_of_neg (by simpa using hne)
  · exact List.filter_cons_of_neg (by simpa [hevent.1] using hne)

/-- A member's removal concerns one group. -/
theorem removeGroupMember_rowsOf (hne : groupId ≠ other) {now : Time} {memberId : Id}
    {a : ActivityEventInput} {r : Unit}
    (heval : (removeGroupMemberWithEvent now groupId memberId a).eval d = .ok (r, d')) :
    d'.rowsOf other = d.rowsOf other := by
  obtain ⟨event, -, hevent, rfl⟩ := removeGroupMemberWithEvent_eq_ok heval
  unfold Db.rowsOf
  congr 1
  · refine filter_filter_of_imp fun m _ hm => ?_
    have hm : m.groupId = other := of_decide_eq_true hm
    simp [hm, hne.symm]
  · exact List.filter_cons_of_neg (by simpa [hevent.1] using hne)

/-- A new expense concerns the group it is created in. -/
theorem createExpense_rowsOf {c : Choice} {now : Time} {data : Prisma.CreateExpenseData}
    {a : ActivityEventInput} {r : ExpenseWithDetails} (hne : data.groupId ≠ other)
    (heval : (createExpenseWithSplits c now data a).eval d = .ok (r, d')) :
    d'.rowsOf other = d.rowsOf other := by
  obtain ⟨e, db₁, event, hcreate, -, rfl, hevent⟩ := createExpenseWithSplits_eq_ok heval
  obtain ⟨-, rfl, rfl⟩ := Prisma.expenseCreate_eq_ok hcreate
  unfold Db.rowsOf
  congr 1
  · exact List.filter_cons_of_neg (by simpa using hne)
  · exact List.filter_cons_of_neg (by simpa [hevent.1] using hne)

/-- The expense with an id is the only row with it. -/
theorem expense_unique (hnodup : (d.expenses.map (·.id)).Nodup) {expenseId : Id} {e : Expense}
    (he : d.expense? expenseId = some e) {x : Expense} (hx : x ∈ d.expenses)
    (hid : x.id = expenseId) : x = e := by
  have hmem : e ∈ d.expenses := List.mem_of_find?_eq_some he
  have heid : e.id = expenseId := by simpa using List.find?_some he
  exact List.inj_on_of_nodup_map hnodup hx hmem (hid.trans heid.symm)

/-- A changed expense concerns the group it was created in. -/
theorem updateExpense_rowsOf (hnodup : (d.expenses.map (·.id)).Nodup) {expenseId : Id}
    {e : Expense} (he : d.expense? expenseId = some e) (hne : e.groupId ≠ other) {c : Choice}
    {now : Time} {data : Prisma.UpdateExpenseData} {a : ActivityEventInput} {r : ExpenseWithDetails}
    (heval : (updateExpenseWithSplits c now expenseId data a).eval d = .ok (r, d')) :
    d'.rowsOf other = d.rowsOf other := by
  obtain ⟨e', db₁, event, hupdate, -, rfl, hevent⟩ := updateExpenseWithSplits_eq_ok heval
  obtain ⟨old, hold, -, -, rfl, rfl⟩ := Prisma.expenseUpdate_eq_ok hupdate
  obtain rfl := Option.some.inj (he.symm.trans hold)
  have hgroup : event.groupId = e.groupId := hevent.1
  unfold Db.rowsOf
  congr 1
  · refine filter_updateWhere fun x hx hid => ?_
    obtain rfl := expense_unique hnodup he hx (of_decide_eq_true hid)
    exact ⟨decide_eq_false hne, decide_eq_false hne⟩
  · exact List.filter_cons_of_neg (by simpa [hgroup] using hne)

/-- An expense that is deleted concerns the group it was created in. -/
theorem DeletesExpense.rowsOf (hnodup : (d.expenses.map (·.id)).Nodup) {expenseId : Id}
    {e : Expense} (he : d.expense? expenseId = some e) (hne : e.groupId ≠ other)
    (hc : DeletesExpense expenseId d d') : d'.rowsOf other = d.rowsOf other := by
  obtain ⟨now, a, r, heval⟩ := hc
  obtain ⟨e', event, he', hevent, rfl⟩ := deleteExpenseWithEvent_eq_ok heval
  obtain rfl := Option.some.inj (he.symm.trans he')
  unfold Db.rowsOf
  congr 1
  · refine filter_filter_of_imp fun x hx hgroup => decide_eq_true fun hid => ?_
    obtain rfl := expense_unique hnodup he hx hid
    exact hne (of_decide_eq_true hgroup)
  · exact List.filter_cons_of_neg (by simpa [hevent.1] using hne)

/-- A settlement concerns the group it is made in. -/
theorem ClaimsAndSettles.rowsOf {input : CreateSettlementInput} (hne : input.groupId ≠ other)
    (hc : ClaimsAndSettles input d d') : d'.rowsOf other = d.rowsOf other := by
  obtain ⟨existing, data, context, a, expiresAt, now, s, hgroup, -, -, heval⟩ := hc
  obtain ⟨-, -, event, records, hevent, -, rfl⟩ := claimAndSettle_eq_ok heval
  unfold Db.rowsOf
  congr 1
  · exact List.filter_cons_of_neg (by simpa [newSettlement, hgroup] using hne)
  · exact List.filter_cons_of_neg (by simpa [hevent.1.1, hgroup] using hne)

end Rows

end SplitBill
