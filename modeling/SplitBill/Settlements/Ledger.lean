import SplitBill.Expenses.Store
import SplitBill.Groups.Repository
import SplitBill.Settlements.Service

/-!
# The ledger of a group

`position db g u` is what the expenses and settlements of the group `g` say about the user `u`.
`getGroupBalances` lists the positions of the present members (`getGroupBalances_positions`), and
all positions together sum to zero, so what the list sums to is the opposite of what the former
members are left with. The tables are a `Ledger` when no former member is left with anything, and
then the list sums to zero (`Ledger.sum_eq_zero`). The other lemmas say which transactions keep a
ledger.
-/

namespace SplitBill

open Interleave
open Prisma (SplitAmount CreateExpenseData UpdateExpenseData SettlementCreateData)

/-- What the rows of a group add up to for one user. -/
def totalIn {α : Type} (groupOf : α → Id) (net : α → Id → ℤ) (rows : List α) (groupId u : Id) : ℤ :=
  ((rows.filter (groupOf · = groupId)).map (net · u)).sum

section

variable {α : Type} (groupOf : α → Id) (net : α → Id → ℤ) (groupId u : Id)

/-- The total of a table with one row more. -/
theorem totalIn_cons (row : α) (rows : List α) : totalIn groupOf net (row :: rows) groupId u =
    (if groupOf row = groupId then net row u else 0) + totalIn groupOf net rows groupId u := by
  unfold totalIn
  by_cases h : groupOf row = groupId
  · rw [List.filter_cons_of_pos (by simpa using h), List.map_cons, List.sum_cons, if_pos h]
  · rw [List.filter_cons_of_neg (by simpa using h), if_neg h, zero_add]

/-- The total of two tables. -/
theorem totalIn_append (xs ys : List α) : totalIn groupOf net (xs ++ ys) groupId u =
    totalIn groupOf net xs groupId u + totalIn groupOf net ys groupId u := by
  unfold totalIn
  rw [List.filter_append, List.map_append, List.sum_append]

end

/-- The balance of a user in a group. -/
def position (db : Db) (groupId u : Id) : ℤ :=
  totalIn (·.groupId) (fun e : Expense => e.forBalance.netOf) db.expenses groupId u +
    totalIn (·.groupId) (fun s : Settlement => s.forBalance.netOf) db.settlements groupId u

/-- The payer of an expense and its participants. -/
def Expense.people (e : Expense) : List Id := e.paidById :: e.splits.map (·.userId)

/-- An expense is no concern of anyone else. -/
theorem Expense.netOf_eq_zero {e : Expense} {u : Id} (h : u ∉ e.people) :
    e.forBalance.netOf u = 0 := by
  rw [Expense.people, List.mem_cons, not_or] at h
  refine ExpenseForBalance.netOf_eq_zero (Ne.symm h.1) ?_
  rw [Expense.forBalance, List.map_map]
  exact h.2

/-- The table of `calculateBalances` has everyone's position, in whatever order the rows come. -/
theorem get?_balances {db : Db} {groupId : Id} (c c' : Choice) (u : Id) :
    ((calculateBalances ((c.arrange (·.id) unordered (db.expensesOf groupId)).map (·.forBalance))
      ((c'.arrange (·.id) unordered (db.settlementsOf groupId)).map
        (·.forBalance))).get? u).getD 0 =
      position db groupId u := by
  rw [get?_calculateBalances, netOf, List.map_map, List.map_map]
  have he := ((c.arrange_perm (·.id) unordered (db.expensesOf groupId)).map
    ((·.netOf u) ∘ fun e : Expense => e.forBalance)).sum_eq
  have hs := ((c'.arrange_perm (·.id) unordered (db.settlementsOf groupId)).map
    ((·.netOf u) ∘ fun s : Settlement => s.forBalance)).sum_eq
  rw [he, hs]
  rfl

/-- `getGroupBalances` lists every member of the group, with the position as a number. -/
theorem getGroupBalances_positions {lib : Lib} {w : World} (requesterId groupId : Id) :
    wp ((machine lib).alone World.Later) (fun r _ => ∀ dtos, r = .ok dtos →
        (dtos.map (·.userId)).Perm (w.db.memberIds groupId) ∧
        ∀ dto ∈ dtos, dto.amountMinorUnits = Js.number (position w.db groupId dto.userId))
      (SettlementService.getGroupBalances requesterId groupId) w := by
  have hs := (sequential_alone lib).stable w.db
  have hno : ∀ (e : Err) (dtos : List BalanceDto), .error e = Except.ok dtos →
      (dtos.map (·.userId)).Perm (w.db.memberIds groupId) ∧
      ∀ dto ∈ dtos, dto.amountMinorUnits = Js.number (position w.db groupId dto.userId) := by
    intro e dtos he
    cases he
  unfold SettlementService.getGroupBalances
  refine wp_bind.mpr (hs.read (.settlement (.findGroupById _)) rfl rfl ?_ fun _ _ _ => hno _)
  intro _ x₁ hx₁
  refine wp_expect_bind.mpr ⟨fun _ _ => ?_, fun _ => hno _⟩
  refine wp_bind.mpr (hs.read (.settlement (.findGroupMembers _)) rfl hx₁ ?_ fun _ _ _ => hno _)
  intro c x₂ hx₂
  refine wp_ensure_bind.mpr ⟨fun _ => ?_, fun _ => hno _⟩
  rw [hx₂]
  -- The two tables are read one after the other, and neither changes in between.
  refine wp_bind.mpr (hs.read (.settlement (.findExpensesForBalances _)) rfl hx₂ ?_
    fun _ _ _ => hno _)
  intro c₁ x₃ hx₃
  rw [hx₃]
  refine wp_bind.mpr (hs.read (.settlement (.findSettlementsForBalances _)) rfl hx₃ ?_
    fun _ _ _ => hno _)
  intro c₂ x₄ hx₄ dtos hdtos
  rw [hx₄] at hdtos
  obtain rfl := Except.ok.inj hdtos
  constructor
  · rw [SettlementService.balanceDtos, List.map_map, List.map_map]
    exact (c.arrange_perm _ _ _).map _
  · intro dto hdto
    obtain ⟨member, -, rfl⟩ := List.mem_map.mp hdto
    exact congrArg Js.number (get?_balances c₁ c₂ member.userId)

/-- The tables of groups in which no former member is left with a balance. -/
structure Ledger (db : Db) : Prop where
  wellFormed : WellFormedTable db
  expenseIds : (db.expenses.map (·.id)).Nodup
  expenseIds_lt : ∀ e ∈ db.expenses, e.id < db.nextId
  members : ∀ groupId, (db.memberIds groupId).Nodup
  /-- Only members have a balance. -/
  settled : ∀ groupId u, u ∉ db.memberIds groupId → position db groupId u = 0

/-- The positions of the members sum to zero. -/
theorem Ledger.sum_eq_zero {db : Db} (h : Ledger db) (groupId : Id) :
    ((db.memberIds groupId).map (position db groupId)).sum = 0 := by
  let balances := calculateBalances
    ((({} : Choice).arrange (·.id) unordered (db.expensesOf groupId)).map (·.forBalance))
    ((({} : Choice).arrange (·.id) unordered (db.settlementsOf groupId)).map (·.forBalance))
  have hget : ∀ u, (balances.get? u).getD 0 = position db groupId u := get?_balances {} {}
  have hzero : balances.values.sum = 0 := by
    refine sum_calculateBalances ?_ _
    intro x hx
    obtain ⟨e, he, rfl⟩ := List.mem_map.mp hx
    exact (h.wellFormed e (List.mem_of_mem_filter (Choice.mem_arrange.mp he))).balanced
  calc ((db.memberIds groupId).map (position db groupId)).sum
      = ∑ u ∈ (db.memberIds groupId).toFinset, position db groupId u :=
        (List.sum_toFinset _ (h.members groupId)).symm
    _ = ∑ u ∈ (db.memberIds groupId).toFinset, (balances.get? u).getD 0 :=
        Finset.sum_congr rfl fun u _ => (hget u).symm
    _ = balances.values.sum := by
        refine balances.sum_get?_eq _ fun u hu => ?_
        rw [hget]
        exact h.settled groupId u fun hmem => hu (List.mem_toFinset.mpr hmem)
    _ = 0 := hzero

/-! ## What keeps a ledger -/

section Keeps

variable {db db' : Db}

/-- A position depends on the expenses and the settlements only. -/
theorem position_congr (he : db'.expenses = db.expenses) (hs : db'.settlements = db.settlements) :
    position db' = position db := by
  unfold position
  rw [he, hs]

/-- What an expense contributes to the position of a user in a group. -/
def Expense.shareIn (e : Expense) (groupId u : Id) : ℤ :=
  if e.groupId = groupId then e.forBalance.netOf u else 0

/-- What a settlement contributes to the position of a user in a group. -/
def Settlement.shareIn (s : Settlement) (groupId u : Id) : ℤ :=
  if s.groupId = groupId then s.forBalance.netOf u else 0

/-- An expense concerns nobody else, and no other group. -/
theorem Expense.shareIn_eq_zero {e : Expense} {groupId u : Id}
    (h : e.groupId = groupId → u ∉ e.people) : e.shareIn groupId u = 0 := by
  unfold Expense.shareIn
  split
  · next hg => exact Expense.netOf_eq_zero (h hg)
  · rfl

/-- A settlement concerns nobody else, and no other group. -/
theorem Settlement.shareIn_eq_zero {s : Settlement} {groupId u : Id}
    (h : s.groupId = groupId → s.payerId ≠ u ∧ s.payeeId ≠ u) : s.shareIn groupId u = 0 := by
  unfold Settlement.shareIn
  split
  · next hg =>
    obtain ⟨hp, hq⟩ := h hg
    show (if s.payerId = u then s.amountMinorUnits else 0) -
      (if s.payeeId = u then s.amountMinorUnits else 0) = 0
    rw [if_neg hp, if_neg hq, sub_zero]
  · rfl

/-- A new expense moves the positions in its group. -/
theorem position_addExpense {e : Expense} (he : db'.expenses = e :: db.expenses)
    (hs : db'.settlements = db.settlements) (groupId u : Id) :
    position db' groupId u = position db groupId u + e.shareIn groupId u := by
  unfold position Expense.shareIn
  rw [he, hs, totalIn_cons]
  ring

/-- A new settlement moves the positions in its group. -/
theorem position_settle {s : Settlement} (he : db'.expenses = db.expenses)
    (hs : db'.settlements = s :: db.settlements) (groupId u : Id) :
    position db' groupId u = position db groupId u + s.shareIn groupId u := by
  unfold position Settlement.shareIn
  rw [he, hs, totalIn_cons]
  ring

/-- The row of an expense within its table. -/
theorem expenses_eq_append (hids : (db.expenses.map (·.id)).Nodup) {id : Id} {e : Expense}
    (he : db.expense? id = some e) :
    e.id = id ∧ ∃ xs ys, db.expenses = xs ++ e :: ys ∧ ∀ x ∈ xs ++ ys, x.id ≠ id := by
  obtain ⟨hid, xs, ys, heq, hxs⟩ := List.find?_eq_some_iff_append.mp he
  have hid : e.id = id := by simpa using hid
  refine ⟨hid, xs, ys, heq, fun x hx hxid => ?_⟩
  rw [heq, List.map_append, List.map_cons, List.nodup_middle, ← List.map_append, List.nodup_cons,
    hid] at hids
  exact hids.1 (hxid ▸ List.mem_map_of_mem hx)

/-- The table without one expense. -/
theorem expenses_delete (hids : (db.expenses.map (·.id)).Nodup) {id : Id} {e : Expense}
    (he : db.expense? id = some e) : ∃ xs ys, db.expenses = xs ++ e :: ys ∧
      db.expenses.filter (·.id ≠ id) = xs ++ ys := by
  obtain ⟨hid, xs, ys, heq, hne⟩ := expenses_eq_append hids he
  refine ⟨xs, ys, heq, ?_⟩
  rw [heq, List.filter_append, List.filter_cons_of_neg (by simpa using hid), ← List.filter_append]
  exact List.filter_eq_self.mpr fun x hx => by simpa using hne x hx

/-- The table with one expense replaced. -/
theorem expenses_update (hids : (db.expenses.map (·.id)).Nodup) {id : Id} {e : Expense}
    (he : db.expense? id = some e) (f : Expense → Expense) : ∃ xs ys,
      db.expenses = xs ++ e :: ys ∧ updateWhere (·.id = id) f db.expenses = xs ++ f e :: ys := by
  obtain ⟨hid, xs, ys, heq, hne⟩ := expenses_eq_append hids he
  refine ⟨xs, ys, heq, ?_⟩
  rw [heq]
  exact updateWhere_middle (decide_eq_true hid) fun x hx => decide_eq_false (hne x hx)

section

variable (net : Expense → Id → ℤ) (groupId u : Id)

/-- The total without an expense. -/
theorem totalIn_deleteExpense (hids : (db.expenses.map (·.id)).Nodup) {id : Id} {e : Expense}
    (hfind : db.expense? id = some e) :
    totalIn (·.groupId) net (db.expenses.filter (·.id ≠ id)) groupId u =
      totalIn (·.groupId) net db.expenses groupId u -
        (if e.groupId = groupId then net e u else 0) := by
  obtain ⟨xs, ys, heq, hrows⟩ := expenses_delete hids hfind
  rw [hrows, heq, totalIn_append, totalIn_append, totalIn_cons]
  ring

/-- The total with an expense changed. -/
theorem totalIn_updateExpense (hids : (db.expenses.map (·.id)).Nodup) {id : Id} {e : Expense}
    (hfind : db.expense? id = some e) (f : Expense → Expense) :
    totalIn (·.groupId) net (updateWhere (·.id = id) f db.expenses) groupId u =
      totalIn (·.groupId) net db.expenses groupId u -
        (if e.groupId = groupId then net e u else 0) +
        (if (f e).groupId = groupId then net (f e) u else 0) := by
  obtain ⟨xs, ys, heq, hrows⟩ := expenses_update hids hfind f
  rw [hrows, heq, totalIn_append, totalIn_append, totalIn_cons, totalIn_cons]
  ring

end

/-- The positions without an expense. -/
theorem position_deleteExpense (hids : (db.expenses.map (·.id)).Nodup) {id : Id} {e : Expense}
    (hfind : db.expense? id = some e) (he : db'.expenses = db.expenses.filter (·.id ≠ id))
    (hs : db'.settlements = db.settlements) (groupId u : Id) :
    position db' groupId u = position db groupId u - e.shareIn groupId u := by
  unfold position Expense.shareIn
  rw [he, hs, totalIn_deleteExpense _ groupId u hids hfind]
  ring

/-- The positions with an expense changed. -/
theorem position_updateExpense (hids : (db.expenses.map (·.id)).Nodup) {id : Id} {e : Expense}
    (hfind : db.expense? id = some e) {f : Expense → Expense}
    (he : db'.expenses = updateWhere (·.id = id) f db.expenses)
    (hs : db'.settlements = db.settlements) (groupId u : Id) :
    position db' groupId u =
      position db groupId u - e.shareIn groupId u + (f e).shareIn groupId u := by
  unfold position Expense.shareIn
  rw [he, hs, totalIn_updateExpense _ groupId u hids hfind]
  ring

/-- The members of the groups depend on their rows only. -/
theorem memberIds_congr (hm : db'.groupMembers = db.groupMembers) :
    db'.memberIds = db.memberIds := by
  unfold Db.memberIds Db.membersOf
  rw [hm]

/-- One member more. -/
theorem memberIds_cons {m : GroupMember} (hm : db'.groupMembers = m :: db.groupMembers)
    (groupId : Id) : db'.memberIds groupId =
      if m.groupId = groupId then m.userId :: db.memberIds groupId else db.memberIds groupId := by
  unfold Db.memberIds Db.membersOf
  rw [hm]
  by_cases h : m.groupId = groupId
  · rw [List.filter_cons_of_pos (by simpa using h), List.map_cons, if_pos h]
  · rw [List.filter_cons_of_neg (by simpa using h), if_neg h]

/-- A new member starts with what they were left with, which is nothing. -/
theorem Ledger.addMember (h : Ledger db) {m : GroupMember}
    (hnone : db.member? m.groupId m.userId = none)
    (hm : db'.groupMembers = m :: db.groupMembers) (he : db'.expenses = db.expenses)
    (hs : db'.settlements = db.settlements) (hnext : db.nextId ≤ db'.nextId) : Ledger db' where
  wellFormed e hmem := h.wellFormed e (he ▸ hmem)
  expenseIds := he ▸ h.expenseIds
  expenseIds_lt e hmem := lt_of_lt_of_le (h.expenseIds_lt e (he ▸ hmem)) hnext
  members groupId := by
    rw [memberIds_cons hm]
    split
    · next hg =>
      subst hg
      exact List.nodup_cons.mpr ⟨Db.member?_eq_none.mp hnone, h.members _⟩
    · exact h.members groupId
  settled groupId u hu := by
    rw [position_congr he hs]
    refine h.settled groupId u fun hmem => hu ?_
    rw [memberIds_cons hm]
    split
    · exact List.mem_cons_of_mem _ hmem
    · exact hmem

/-- A member without a balance may leave. -/
theorem Ledger.removeMember (h : Ledger db) {groupId memberId : Id}
    (hpos : position db groupId memberId = 0)
    (hm : db'.groupMembers =
      db.groupMembers.filter fun m => ¬(m.groupId = groupId ∧ m.userId = memberId))
    (he : db'.expenses = db.expenses) (hs : db'.settlements = db.settlements)
    (hnext : db.nextId ≤ db'.nextId) : Ledger db' where
  wellFormed e hmem := h.wellFormed e (he ▸ hmem)
  expenseIds := he ▸ h.expenseIds
  expenseIds_lt e hmem := lt_of_lt_of_le (h.expenseIds_lt e (he ▸ hmem)) hnext
  members g := by
    have hsub : (db'.memberIds g).Sublist (db.memberIds g) := by
      unfold Db.memberIds Db.membersOf
      rw [hm]
      exact (List.filter_sublist.filter _).map _
    exact (h.members g).sublist hsub
  settled g u hu := by
    rw [position_congr he hs]
    -- The member who goes has a zero position, and the others are members still.
    by_cases hgu : g = groupId ∧ u = memberId
    · obtain ⟨rfl, rfl⟩ := hgu
      exact hpos
    · refine h.settled g u fun hmem => hu ?_
      obtain ⟨m, hm', hmu⟩ := List.mem_map.mp hmem
      obtain ⟨hrow, hmg⟩ := List.mem_filter.mp hm'
      have hmg : m.groupId = g := by simpa using hmg
      have hkeep : m ∈ db'.groupMembers := by
        rw [hm, List.mem_filter]
        refine ⟨hrow, decide_eq_true fun hboth => hgu ⟨?_, ?_⟩⟩
        · exact hmg.symm.trans hboth.1
        · exact hmu.symm.trans hboth.2
      exact List.mem_map.mpr ⟨m, List.mem_filter.mpr ⟨hkeep, by simpa using hmg⟩, hmu⟩

/-- An expense among members. -/
theorem Ledger.addExpense (h : Ledger db) {e : Expense} (hwell : e.WellFormed)
    (hid : e.id = db.nextId) (hpeople : ∀ u ∈ e.people, u ∈ db.memberIds e.groupId)
    (he : db'.expenses = e :: db.expenses) (hs : db'.settlements = db.settlements)
    (hm : db'.groupMembers = db.groupMembers) (hnext : db.nextId < db'.nextId) : Ledger db' where
  wellFormed := by
    intro x hx
    rw [he] at hx
    rcases List.mem_cons.mp hx with rfl | hx
    · exact hwell
    · exact h.wellFormed x hx
  expenseIds := by
    rw [he, List.map_cons, List.nodup_cons]
    refine ⟨fun hmem => ?_, h.expenseIds⟩
    obtain ⟨x, hx, hxid⟩ := List.mem_map.mp hmem
    exact absurd (hxid.trans hid) (h.expenseIds_lt x hx).ne
  expenseIds_lt := by
    intro x hx
    rw [he] at hx
    rcases List.mem_cons.mp hx with rfl | hx
    · rw [hid]
      exact hnext
    · exact (h.expenseIds_lt x hx).trans hnext
  members := memberIds_congr hm ▸ h.members
  settled g u hu := by
    rw [memberIds_congr hm] at hu
    have hzero : e.shareIn g u = 0 :=
      Expense.shareIn_eq_zero fun hg hmem => hu (hg ▸ hpeople u hmem)
    rw [position_addExpense he hs, hzero, add_zero]
    exact h.settled g u hu

/-- An expense may be deleted when no former member was concerned by it. -/
theorem Ledger.deleteExpense (h : Ledger db) {id : Id} {e : Expense}
    (hfind : db.expense? id = some e)
    (hsame : ∀ u, u ∉ db.memberIds e.groupId → e.forBalance.netOf u = 0)
    (he : db'.expenses = db.expenses.filter (·.id ≠ id)) (hs : db'.settlements = db.settlements)
    (hm : db'.groupMembers = db.groupMembers) (hnext : db.nextId ≤ db'.nextId) : Ledger db' := by
  -- No row is new, so what holds of every row still holds.
  have hsub : ∀ x ∈ db'.expenses, x ∈ db.expenses := fun x hx =>
    List.mem_of_mem_filter (he ▸ hx)
  constructor
  case wellFormed =>
    exact fun x hx => h.wellFormed x (hsub x hx)
  case expenseIds =>
    rw [he]
    exact h.expenseIds.sublist (List.filter_sublist.map _)
  case expenseIds_lt =>
    exact fun x hx => lt_of_lt_of_le (h.expenseIds_lt x (hsub x hx)) hnext
  case members =>
    exact memberIds_congr hm ▸ h.members
  case settled =>
    intro g u hu
    rw [memberIds_congr hm] at hu
    -- Who is out of the group has no part in the expense that goes.
    have hzero : e.shareIn g u = 0 := by
      unfold Expense.shareIn
      split
      · next hg => exact hsame u (hg ▸ hu)
      · rfl
    rw [position_deleteExpense h.expenseIds hfind he hs, hzero, sub_zero]
    exact h.settled g u hu

/-- An expense may be updated when that changes nothing for the former members. -/
theorem Ledger.updateExpense (h : Ledger db) {id : Id} {e : Expense}
    (hfind : db.expense? id = some e) {f : Expense → Expense} (hwell : (f e).WellFormed)
    (hid : ∀ x, (f x).id = x.id) (hgroup : (f e).groupId = e.groupId)
    (hsame : ∀ u, u ∉ db.memberIds e.groupId → (f e).forBalance.netOf u = e.forBalance.netOf u)
    (he : db'.expenses = updateWhere (·.id = id) f db.expenses)
    (hs : db'.settlements = db.settlements) (hm : db'.groupMembers = db.groupMembers)
    (hnext : db.nextId ≤ db'.nextId) : Ledger db' := by
  have hids : db'.expenses.map (·.id) = db.expenses.map (·.id) := by
    rw [he]
    exact map_updateWhere hid _
  constructor
  case wellFormed =>
    intro x hx
    obtain ⟨xs, ys, heq, hrows⟩ := expenses_update h.expenseIds hfind f
    rw [he, hrows, List.mem_append, List.mem_cons] at hx
    rcases hx with hx | rfl | hx
    · exact h.wellFormed x (heq ▸ List.mem_append_left _ hx)
    · exact hwell
    · exact h.wellFormed x (heq ▸ List.mem_append_right _ (List.mem_cons_of_mem _ hx))
  case expenseIds =>
    rw [hids]
    exact h.expenseIds
  case expenseIds_lt =>
    intro x hx
    exact lt_of_lt_of_le (forall_mem_of_map_eq (· < db.nextId) hids h.expenseIds_lt x hx) hnext
  case members =>
    exact memberIds_congr hm ▸ h.members
  case settled =>
    intro g u hu
    rw [memberIds_congr hm] at hu
    -- The expense means the same as before for those who are no longer members.
    have hnet : (f e).shareIn g u = e.shareIn g u := by
      unfold Expense.shareIn
      rw [hgroup]
      split
      · next hg => exact hsame u (hg ▸ hu)
      · rfl
    rw [position_updateExpense h.expenseIds hfind he hs, hnet, sub_add_cancel]
    exact h.settled g u hu

/-- A settlement between members. -/
theorem Ledger.settle (h : Ledger db) {s : Settlement} (hpayer : s.payerId ∈ db.memberIds s.groupId)
    (hpayee : s.payeeId ∈ db.memberIds s.groupId) (hs : db'.settlements = s :: db.settlements)
    (he : db'.expenses = db.expenses) (hm : db'.groupMembers = db.groupMembers)
    (hnext : db.nextId ≤ db'.nextId) : Ledger db' where
  wellFormed e hmem := h.wellFormed e (he ▸ hmem)
  expenseIds := he ▸ h.expenseIds
  expenseIds_lt e hmem := lt_of_lt_of_le (h.expenseIds_lt e (he ▸ hmem)) hnext
  members := memberIds_congr hm ▸ h.members
  settled g u hu := by
    rw [memberIds_congr hm] at hu
    have hzero : s.shareIn g u = 0 := by
      refine Settlement.shareIn_eq_zero fun hg => ⟨fun hp => hu ?_, fun hp => hu ?_⟩
      · exact hg ▸ hp ▸ hpayer
      · exact hg ▸ hp ▸ hpayee
    rw [position_settle he hs, hzero, add_zero]
    exact h.settled g u hu

end Keeps

end SplitBill
