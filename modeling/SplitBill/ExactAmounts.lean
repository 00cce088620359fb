import Mathlib.Algebra.Order.BigOperators.Group.List
import SplitBill.Alone
import SplitBill.Calls
import SplitBill.Settlements.Ledger

/-!
# Amounts that leave the API

Every amount of a request is a safe integer, and so is every stored amount of an expense, a split or
a settlement. Balances and totals are sums of such amounts, and nothing bounds these: `Number` may
round them. In runs in which every write stays in the range of safe integers, all amounts leave the
API exactly.
-/

namespace SplitBill

open Interleave
open Prisma (SplitAmount)

/-- An amount whose absolute value is at most the largest safe integer. -/
def InRange (amount : ℤ) : Prop := |amount| ≤ Js.maxSafeInteger

instance : DecidablePred InRange := fun amount =>
  inferInstanceAs (Decidable (|amount| ≤ Js.maxSafeInteger))

/-- `Number` is exact on the range. -/
theorem InRange.number_eq {amount : ℤ} (h : InRange amount) : Js.number amount = amount := by
  apply Js.representable_of_abs_le
  unfold InRange Js.maxSafeInteger at h
  omega

/-- A safe amount is in range. -/
theorem SafeAmount.inRange {amount : ℤ} (h : SafeAmount amount) : InRange amount := by
  obtain ⟨hpos, hle⟩ := h
  exact abs_le.mpr ⟨by unfold Js.maxSafeInteger at *; omega, hle⟩

/-! ## Calls that write amounts -/

/-- The calls that write expenses, settlements and summaries. -/
inductive AmountCall
  | expense (call : ExpenseCall)
  | createSettlement (requesterId : Id) (input : CreateSettlementInput)
    (idempotency : IdempotencyContext)
  | recomputeGroupSummary (order : List Aggregate) (groupId : Id)

namespace AmountCall

/-- The program of a call. -/
def body (env : Env) : AmountCall → Act Unit
  | expense call => call.body
  | createSettlement requesterId input idempotency =>
    void (SettlementService.createSettlement env requesterId input idempotency)
  | recomputeGroupSummary order groupId =>
    void (SummaryService.recomputeGroupSummary order groupId)

/-- The body of the request is accepted by its schema. -/
def Accepted : AmountCall → Prop
  | expense call => call.Accepted
  | createSettlement _ input _ => input.Accepted
  | recomputeGroupSummary _ _ => True

instance : DecidablePred Accepted
  | expense call => inferInstanceAs (Decidable call.Accepted)
  | createSettlement _ input _ => inferInstanceAs (Decidable input.Accepted)
  | recomputeGroupSummary _ _ => isTrue trivial

end AmountCall

/-- Whole groups may disappear, with their expenses and settlements; the others keep theirs. -/
structure SparesGroups (d d' : Db) : Prop where
  rows : ∃ stays : Id → Bool, d'.expenses = d.expenses.filter (fun e => stays e.groupId) ∧
    d'.settlements = d.settlements.filter fun s => stays s.groupId
  summaries : ∀ s ∈ d'.groupSummaries, s ∈ d.groupSummaries
  nextId : d.nextId ≤ d'.nextId

/-- The calls side by side. The surroundings may change users, groups and memberships, and delete
whole groups. -/
abbrev amountSystem (lib : Lib) (env : Env) : System backend Err Unit World where
  machine := machine lib
  Call := AmountCall
  body := AmountCall.body env
  valid := AmountCall.Accepted
  env w w' := SparesGroups w.db w'.db

instance (lib : Lib) (env : Env) : DecidablePred (amountSystem lib env).valid :=
  inferInstanceAs (DecidablePred AmountCall.Accepted)

/-- No expense, settlement or summary is stored. -/
def NoAmounts (w : World) : Prop :=
  w.db.expenses = [] ∧ w.db.settlements = [] ∧ w.db.groupSummaries = []

/-! ## Writes that stay in range -/

/-- What the expenses of a group come to. -/
def spent (db : Db) (groupId : Id) : ℤ := ((db.expensesOf groupId).map (·.amountMinorUnits)).sum

/-- In the tables of the group the expenses `old` may be replaced by `new` and the settlements
`settled` added: the sum of the expenses and the balances of everyone concerned stay in range. -/
def Room (db : Db) (groupId : Id) (old new : List ExpenseForBalance)
    (settled : List SettlementForBalance) : Prop :=
  spent db groupId - (old.map (·.amountMinorUnits)).sum + (new.map (·.amountMinorUnits)).sum ≤
    Js.maxSafeInteger ∧
  (∀ e ∈ old ++ new, ∀ u ∈ e.paidById :: e.splits.map (·.userId),
    InRange (position db groupId u - netOf old [] u + netOf new settled u)) ∧
  ∀ s ∈ settled, ∀ u ∈ [s.payerId, s.payeeId],
    InRange (position db groupId u - netOf old [] u + netOf new settled u)

instance (db : Db) (groupId : Id) (old new : List ExpenseForBalance)
    (settled : List SettlementForBalance) : Decidable (Room db groupId old new settled) :=
  inferInstanceAs (Decidable (_ ∧ _ ∧ _))

/-- A transaction starts when there is room for what it writes. -/
def StaysInRange (_ : ℕ) (o : Op) (h : Hist backend Err World) : Prop :=
  let db := h.world.db
  match o with
  | .db (.expense (.createExpenseWithSplits data _)) =>
    Room db data.groupId [] [⟨data.paidById, data.amountMinorUnits, data.splits⟩] []
  | .db (.expense (.updateExpenseWithSplits id data _)) =>
    ∀ e ∈ db.expense? id, Room db e.groupId [e.forBalance]
      [⟨data.paidById, data.amountMinorUnits, data.splits⟩] []
  | .db (.expense (.deleteExpenseWithEvent id _)) =>
    ∀ e ∈ db.expense? id, Room db e.groupId [e.forBalance] [] []
  | .db (.settlement (.claimAndSettle _ data _ _ _)) =>
    Room db data.groupId [] [] [⟨data.payerId, data.payeeId, data.amountMinorUnits⟩]
  | _ => True

instance (pid : ℕ) (o : Op) (h : Hist backend Err World) : Decidable (StaysInRange pid o h) :=
  match o with
  | .db (.expense (.createExpenseWithSplits _ _)) => inferInstanceAs (Decidable (Room _ _ _ _ _))
  | .db (.expense (.updateExpenseWithSplits id _ _)) =>
    inferInstanceAs (Decidable (∀ e ∈ h.world.db.expense? id, Room _ _ _ _ _))
  | .db (.expense (.deleteExpenseWithEvent id _)) =>
    inferInstanceAs (Decidable (∀ e ∈ h.world.db.expense? id, Room _ _ _ _ _))
  | .db (.settlement (.claimAndSettle ..)) => inferInstanceAs (Decidable (Room _ _ _ _ _))
  | .db (.expense (.findGroupById _)) | .db (.expense (.findGroupMemberIds _))
  | .db (.expense (.findExpenseById _)) | .db (.expense (.findMany _ _))
  | .db (.expense (.count _))
  | .db (.settlement (.findGroupById _)) | .db (.settlement (.findGroupMembers _))
  | .db (.settlement (.findExpensesForBalances _))
  | .db (.settlement (.findSettlementsForBalances _))
  | .db (.settlement (.findIdempotencyRecord _)) | .db (.settlement (.findSettlementById _))
  | .db (.settlement (.findMany _ _)) | .db (.settlement (.count _)) | .db (.group _)
  | .db (.activity _) | .db (.summary _) | .db (.auth _) | .now | .random | .race | .metric _
  | .bcryptHash _ | .bcryptCompare _ _ | .mail _ | .redis _ _ | .process _ _
  | .processed _ _ _ _ => isTrue trivial

/-- The calls, in runs whose writes stay in range. -/
abbrev roomSystem (lib : Lib) (env : Env) : System backend Err Unit World :=
  { amountSystem lib env with allow := StaysInRange }

instance (lib : Lib) (env : Env) : DecidablePred (roomSystem lib env).valid :=
  inferInstanceAs (DecidablePred AmountCall.Accepted)

/-! ## Tables in range -/

/-- Tables whose amounts, sums and balances are in range. -/
structure AmountTables (db : Db) : Prop where
  expenses : Table (fun e => e.WellFormed ∧ SafeAmount e.amountMinorUnits) db
  settlements : ∀ s ∈ db.settlements, SafeAmount s.amountMinorUnits
  ids : (db.expenses.map (·.id)).Nodup
  ids_lt : ∀ e ∈ db.expenses, e.id < db.nextId
  spent : ∀ groupId, spent db groupId ≤ Js.maxSafeInteger
  positions : ∀ groupId u, InRange (position db groupId u)
  summaries : ∀ s ∈ db.groupSummaries, InRange s.totalSpentMinorUnits

/-- Without rows nothing is owed. -/
@[simp] theorem netOf_nil (u : Id) : netOf [] [] u = 0 := rfl

/-- What one expense contributes. -/
@[simp] theorem netOf_expense (e : ExpenseForBalance) (u : Id) : netOf [e] [] u = e.netOf u := by
  simp [netOf]

/-- What one settlement contributes. -/
@[simp] theorem netOf_settlement (s : SettlementForBalance) (u : Id) :
    netOf [] [s] u = s.netOf u := by
  simp [netOf]

/-- Records that do not concern a user add nothing to their balance. -/
theorem netOf_eq_zero {expenses : List ExpenseForBalance} {settlements : List SettlementForBalance}
    {u : Id} (he : ∀ e ∈ expenses, u ∉ e.paidById :: e.splits.map (·.userId))
    (hs : ∀ s ∈ settlements, u ∉ [s.payerId, s.payeeId]) : netOf expenses settlements u = 0 := by
  have hexpenses : (expenses.map (·.netOf u)).sum = 0 := by
    apply List.sum_eq_zero
    intro a ha
    obtain ⟨e, hmem, rfl⟩ := List.mem_map.mp ha
    have hu := he e hmem
    rw [List.mem_cons, not_or] at hu
    exact ExpenseForBalance.netOf_eq_zero (Ne.symm hu.1) hu.2
  have hsettlements : (settlements.map (·.netOf u)).sum = 0 := by
    apply List.sum_eq_zero
    intro a ha
    obtain ⟨s, hmem, rfl⟩ := List.mem_map.mp ha
    have hu := hs s hmem
    simp only [List.mem_cons, List.not_mem_nil, or_false, not_or] at hu
    unfold SettlementForBalance.netOf
    rw [if_neg (Ne.symm hu.1), if_neg (Ne.symm hu.2), sub_zero]
  unfold netOf
  rw [hexpenses, hsettlements, add_zero]

/-- Where there is room for a write, everyone's balance stays in range. -/
theorem Room.inRange {db : Db} {groupId : Id} {old new : List ExpenseForBalance}
    {settled : List SettlementForBalance} (hroom : Room db groupId old new settled) {u : Id}
    (hu : InRange (position db groupId u)) :
    InRange (position db groupId u - netOf old [] u + netOf new settled u) := by
  obtain ⟨-, hexpenses, hsettlements⟩ := hroom
  by_cases he : ∃ e ∈ old ++ new, u ∈ e.paidById :: e.splits.map (·.userId)
  · obtain ⟨e, hmem, hu⟩ := he
    exact hexpenses e hmem u hu
  by_cases hs : ∃ s ∈ settled, u ∈ [s.payerId, s.payeeId]
  · obtain ⟨s, hmem, hu⟩ := hs
    exact hsettlements s hmem u hu
  -- The write does not concern the user.
  push Not at he hs
  have hold : netOf old [] u = 0 :=
    netOf_eq_zero (fun e hmem => he e (List.mem_append_left _ hmem)) fun s hmem =>
      (List.not_mem_nil hmem).elim
  have hnew : netOf new settled u = 0 :=
    netOf_eq_zero (fun e hmem => he e (List.mem_append_right _ hmem)) hs
  rw [hold, hnew, sub_zero, add_zero]
  exact hu

section Writes

variable {db db' : Db}

/-- A write for which there is room keeps the tables in range. -/
theorem AmountTables.write (h : AmountTables db) {groupId : Id} {old new : List ExpenseForBalance}
    {settled : List SettlementForBalance} (hroom : Room db groupId old new settled)
    (hexpenses : Table (fun e => e.WellFormed ∧ SafeAmount e.amountMinorUnits) db')
    (hsettlements : ∀ s ∈ db'.settlements, SafeAmount s.amountMinorUnits)
    (hids : (db'.expenses.map (·.id)).Nodup) (hids_lt : ∀ e ∈ db'.expenses, e.id < db'.nextId)
    (hsummaries : db'.groupSummaries = db.groupSummaries)
    (hspent : ∀ g, SplitBill.spent db' g = SplitBill.spent db g -
      (if groupId = g then (old.map (·.amountMinorUnits)).sum else 0) +
      (if groupId = g then (new.map (·.amountMinorUnits)).sum else 0))
    (hposition : ∀ g u, position db' g u = position db g u -
      (if groupId = g then netOf old [] u else 0) +
      (if groupId = g then netOf new settled u else 0)) : AmountTables db' where
  expenses := hexpenses
  settlements := hsettlements
  ids := hids
  ids_lt := hids_lt
  spent g := by
    -- Only in the group of the write is room needed; elsewhere the totals are as before.
    rw [hspent]
    by_cases hg : groupId = g
    · subst hg
      rw [if_pos rfl, if_pos rfl]
      exact hroom.1
    · rw [if_neg hg, if_neg hg, sub_zero, add_zero]
      exact h.spent g
  positions g u := by
    rw [hposition]
    by_cases hg : groupId = g
    · subst hg
      rw [if_pos rfl, if_pos rfl]
      exact hroom.inRange (h.positions groupId u)
    · rw [if_neg hg, if_neg hg, sub_zero, add_zero]
      exact h.positions g u
  summaries := hsummaries ▸ h.summaries

/-- The sum of the amounts is a total like the balances. -/
theorem spent_eq (db : Db) (groupId u : Id) : spent db groupId =
    totalIn (·.groupId) (fun (e : Expense) _ => e.amountMinorUnits) db.expenses groupId u := rfl

/-- The row that an expense is written to says the same about everyone. -/
theorem forBalance_newSplits {e : Expense} {now : Time} {firstId : Id} {splits : List SplitAmount}
    (h : e.splits = Prisma.newSplits now firstId splits) :
    e.forBalance = ⟨e.paidById, e.amountMinorUnits, splits⟩ := by
  unfold Expense.forBalance
  rw [h, map_newSplits]

/-- A new expense that finds room. -/
theorem AmountTables.create (h : AmountTables db) {c : Choice} {now : Time}
    {data : Prisma.CreateExpenseData} {activity : ActivityEventInput} {r : ExpenseWithDetails}
    (hroom : Room db data.groupId [] [⟨data.paidById, data.amountMinorUnits, data.splits⟩] [])
    (hdata : ∀ e : Expense, e.WrittenFrom data.amountMinorUnits data.splitType data.splits →
      e.WellFormed ∧ SafeAmount e.amountMinorUnits)
    (heval : (createExpenseWithSplits c now data activity).eval db = .ok (r, db')) :
    AmountTables db' := by
  have htable := table_create h.expenses hdata heval
  obtain ⟨e, db₁, event, hcreate, -, hdb', -⟩ := createExpenseWithSplits_eq_ok heval
  obtain ⟨-, he, rfl⟩ := Prisma.expenseCreate_eq_ok hcreate
  have hid : e.id = db.nextId := by rw [he]
  have hgroup : e.groupId = data.groupId := by rw [he]
  have hamount : e.amountMinorUnits = data.amountMinorUnits := by rw [he]
  have hbalance : e.forBalance = ⟨data.paidById, data.amountMinorUnits, data.splits⟩ := by
    rw [he]
    exact forBalance_newSplits rfl
  -- The tables with one row more, and what its room is needed for.
  have hexpenses : db'.expenses = e :: db.expenses := by rw [hdb']
  have hsettlements : db'.settlements = db.settlements := by rw [hdb']
  have hnext : db.nextId < db'.nextId := by
    rw [hdb']
    exact Nat.lt_succ_of_le (le_trans (Nat.le_succ _) (Nat.le_add_right _ _))
  apply h.write hroom htable (hsettlements ▸ h.settlements)
  · rw [hexpenses]
    exact nodup_map_cons (fun x hx => hid ▸ (h.ids_lt x hx).ne) h.ids
  · rw [hexpenses]
    exact List.forall_mem_cons.mpr ⟨hid ▸ hnext, fun x hx => (h.ids_lt x hx).trans hnext⟩
  · rw [hdb']
  · intro g
    rw [spent_eq _ g 0, spent_eq _ g 0, hexpenses, totalIn_cons, hgroup, hamount]
    simp only [List.map_nil, List.sum_nil, ite_self, List.map_cons, List.sum_cons,
      add_zero, sub_zero]
    exact add_comm _ _
  · intro g u
    rw [position_addExpense hexpenses hsettlements]
    unfold Expense.shareIn
    rw [hgroup, hbalance, netOf_nil, netOf_expense, ite_self, sub_zero]

/-- An update that finds room. -/
theorem AmountTables.update (h : AmountTables db) {c : Choice} {now : Time} {id : Id}
    {data : Prisma.UpdateExpenseData} {activity : ActivityEventInput} {r : ExpenseWithDetails}
    (hroom : ∀ e ∈ db.expense? id, Room db e.groupId [e.forBalance]
      [⟨data.paidById, data.amountMinorUnits, data.splits⟩] [])
    (hdata : ∀ e : Expense, e.WrittenFrom data.amountMinorUnits data.splitType data.splits →
      e.WellFormed ∧ SafeAmount e.amountMinorUnits)
    (heval : (updateExpenseWithSplits c now id data activity).eval db = .ok (r, db')) :
    AmountTables db' := by
  have htable := table_update h.expenses hdata heval
  obtain ⟨e', db₁, event, hupdate, -, hdb', -⟩ := updateExpenseWithSplits_eq_ok heval
  obtain ⟨e, hfind, -, -, -, rfl⟩ := Prisma.expenseUpdate_eq_ok hupdate
  have hbalance : (data.applyTo now db.nextId e).forBalance =
      ⟨data.paidById, data.amountMinorUnits, data.splits⟩ := forBalance_newSplits rfl
  have hexpenses : db'.expenses =
      updateWhere (·.id = id) (data.applyTo now db.nextId) db.expenses := by rw [hdb']
  have hsettlements : db'.settlements = db.settlements := by rw [hdb']
  have hids : db'.expenses.map (·.id) = db.expenses.map (·.id) := by
    have hkeeps : ∀ x : Expense, (data.applyTo now db.nextId x).id = x.id := fun _ => rfl
    rw [hexpenses]
    exact map_updateWhere hkeeps _
  apply h.write (hroom e hfind) htable (hsettlements ▸ h.settlements)
  · rw [hids]
    exact h.ids
  · intro x hx
    have hle : db.nextId ≤ db'.nextId := by
      rw [hdb']
      exact le_trans (Nat.le_add_right _ _) (Nat.le_succ _)
    exact lt_of_lt_of_le (forall_mem_of_map_eq (· < db.nextId) hids h.ids_lt x hx) hle
  · rw [hdb']
  -- The old amount goes out of the total and the new one comes in.
  · intro g
    rw [spent_eq _ g 0, spent_eq _ g 0, hexpenses, totalIn_updateExpense _ g 0 h.ids hfind]
    simp only [List.map_cons, List.map_nil, List.sum_cons, List.sum_nil, add_zero]
    rfl
  · intro g u
    rw [position_updateExpense h.ids hfind hexpenses hsettlements, netOf_expense, netOf_expense,
      ← hbalance]
    rfl

/-- A deletion that finds room. -/
theorem AmountTables.delete (h : AmountTables db) {now : Time} {id : Id}
    {activity : ActivityEventInput} {r : Unit}
    (hroom : ∀ e ∈ db.expense? id, Room db e.groupId [e.forBalance] [] [])
    (heval : (deleteExpenseWithEvent now id activity).eval db = .ok (r, db')) :
    AmountTables db' := by
  have htable := table_delete h.expenses heval
  obtain ⟨e, event, hfind, -, hdb'⟩ := deleteExpenseWithEvent_eq_ok heval
  -- The table with one row less, and the totals without it.
  have hexpenses : db'.expenses = db.expenses.filter (·.id ≠ id) := by rw [hdb']
  have hsettlements : db'.settlements = db.settlements := by rw [hdb']
  apply h.write (hroom e hfind) htable (hsettlements ▸ h.settlements)
  · rw [hexpenses]
    exact h.ids.sublist (List.filter_sublist.map _)
  · intro x hx
    rw [hexpenses] at hx
    have hle : db.nextId ≤ db'.nextId := by
      rw [hdb']
      exact Nat.le_succ _
    exact lt_of_lt_of_le (h.ids_lt x (List.mem_of_mem_filter hx)) hle
  · rw [hdb']
  · intro g
    rw [spent_eq _ g 0, spent_eq _ g 0, hexpenses, totalIn_deleteExpense _ g 0 h.ids hfind]
    simp only [List.map_cons, List.map_nil, List.sum_cons, List.sum_nil, ite_self, add_zero]
    rfl
  · intro g u
    rw [position_deleteExpense h.ids hfind hexpenses hsettlements, netOf_nil, netOf_expense,
      ite_self, add_zero]
    rfl

/-- A settlement that finds room. -/
theorem AmountTables.settle (h : AmountTables db) {now : Time} {existing : Option Id}
    {data : Prisma.SettlementCreateData} {idempotency : IdempotencyContext}
    {activity : ActivityEventInput} {expiresAt : Time} {s : SettlementRecord}
    (hroom : Room db data.groupId [] [] [⟨data.payerId, data.payeeId, data.amountMinorUnits⟩])
    (hsafe : SafeAmount data.amountMinorUnits)
    (heval : (claimAndSettle now existing data idempotency activity expiresAt).eval db =
      .ok (s, db')) : AmountTables db' := by
  obtain ⟨-, -, event, records, -, -, hdb'⟩ := claimAndSettle_eq_ok heval
  have hexpenses : db'.expenses = db.expenses := by rw [hdb']
  have hsettlements : db'.settlements = newSettlement db now data :: db.settlements := by rw [hdb']
  apply h.write hroom
  · intro e he
    exact h.expenses e (hexpenses ▸ he)
  · rw [hsettlements]
    exact List.forall_mem_cons.mpr ⟨hsafe, h.settlements⟩
  · rw [hexpenses]
    exact h.ids
  · intro e he
    rw [hexpenses] at he
    have hle : db.nextId ≤ db'.nextId := by
      rw [hdb']
      exact Nat.le_add_right _ 3
    exact lt_of_lt_of_le (h.ids_lt e he) hle
  · rw [hdb']
  -- A settlement spends nothing.
  · intro g
    rw [spent_eq _ g 0, spent_eq _ g 0, hexpenses, List.map_nil, List.sum_nil, ite_self, sub_zero,
      add_zero]
  · intro g u
    rw [position_settle hexpenses hsettlements, netOf_nil, netOf_settlement, ite_self, sub_zero]
    rfl

/-- Storing metrics whose total is in range keeps the tables in range. -/
theorem AmountTables.upsert (h : AmountTables db) {groupId : Id} {m : GroupSummaryMetrics}
    {s : GroupSummary} (hm : InRange m.totalSpentMinorUnits) (hups : Upserts groupId m s db db') :
    AmountTables db' := by
  obtain ⟨-, -, -, hrows, summaries, nextId, hle, hdb'⟩ := hups
  have hexpenses : db'.expenses = db.expenses := by rw [hdb']
  have hsettlements : db'.settlements = db.settlements := by rw [hdb']
  have hnext : db'.nextId = nextId := by rw [hdb']
  constructor
  case expenses =>
    intro e he
    exact h.expenses e (hexpenses ▸ he)
  case settlements =>
    rw [hsettlements]
    exact h.settlements
  case ids =>
    rw [hexpenses]
    exact h.ids
  case ids_lt =>
    intro e he
    rw [hexpenses] at he
    rw [hnext]
    exact lt_of_lt_of_le (h.ids_lt e he) hle
  case spent =>
    intro g
    rw [spent_eq _ g 0, hexpenses]
    exact h.spent g
  case positions =>
    intro g u
    rw [position_congr hexpenses hsettlements]
    exact h.positions g u
  case summaries =>
    intro x hx
    -- The row that is written takes its total from the aggregate, which was in range.
    rcases hrows x hx with hold | hnew
    · exact h.summaries x hold
    · have htotal : x.totalSpentMinorUnits = m.totalSpentMinorUnits :=
        congrArg GroupSummaryMetrics.totalSpentMinorUnits hnew
      rw [htotal]
      exact hm

/-- What the rows of the groups that stay add up to. -/
theorem totalIn_filter {α : Type} (groupOf : α → Id) (net : α → Id → ℤ) (stays : Id → Bool)
    (rows : List α) (groupId u : Id) :
    totalIn groupOf net (rows.filter fun row => stays (groupOf row)) groupId u =
      if stays groupId then totalIn groupOf net rows groupId u else 0 := by
  unfold totalIn
  rw [List.filter_filter]
  split
  · next hstays =>
    -- The rows of the group all stay.
    have hsame : rows.filter (fun row => decide (groupOf row = groupId) && stays (groupOf row)) =
        rows.filter (groupOf · = groupId) := by
      apply List.filter_congr
      intro row _
      by_cases hrow : groupOf row = groupId
      · rw [hrow, hstays, Bool.and_true]
      · rw [decide_eq_false hrow, Bool.false_and]
    rw [hsame]
  · next hgone =>
    -- The rows of the group all go.
    have hnone : rows.filter (fun row => decide (groupOf row = groupId) && stays (groupOf row)) =
        [] := by
      apply List.filter_eq_nil_iff.mpr
      intro row _ hrow
      rw [Bool.and_eq_true, decide_eq_true_iff] at hrow
      exact hgone (hrow.1 ▸ hrow.2)
    rw [hnone]
    rfl

/-- The tables stay in range when whole groups disappear. -/
theorem AmountTables.spares (h : AmountTables db) (hspares : SparesGroups db db') :
    AmountTables db' := by
  obtain ⟨⟨stays, hexpenses, hsettlements⟩, hsummaries, hnext⟩ := hspares
  have hrange : InRange 0 := by decide
  constructor
  case expenses =>
    intro e he
    rw [hexpenses] at he
    exact h.expenses e (List.mem_of_mem_filter he)
  case settlements =>
    intro s hs
    rw [hsettlements] at hs
    exact h.settlements s (List.mem_of_mem_filter hs)
  case ids =>
    rw [hexpenses]
    exact h.ids.sublist (List.filter_sublist.map _)
  case ids_lt =>
    intro e he
    rw [hexpenses] at he
    exact lt_of_lt_of_le (h.ids_lt e (List.mem_of_mem_filter he)) hnext
  -- A group keeps all of its rows or none.
  case spent =>
    intro g
    rw [spent_eq _ g 0, hexpenses, totalIn_filter]
    split
    · exact h.spent g
    · decide
  case positions =>
    intro g u
    unfold position
    rw [hexpenses, hsettlements, totalIn_filter, totalIn_filter]
    split
    · exact h.positions g u
    · exact hrange
  case summaries =>
    intro s hs
    exact h.summaries s (hsummaries s hs)

/-- The sum of the amounts of a group is in range. -/
theorem AmountTables.inRange_spent (h : AmountTables db) (groupId : Id) :
    InRange (SplitBill.spent db groupId) := by
  have hpos : 0 ≤ SplitBill.spent db groupId := by
    apply List.sum_nonneg
    intro a ha
    obtain ⟨e, he, rfl⟩ := List.mem_map.mp ha
    exact (h.expenses e (List.mem_of_mem_filter he)).2.1.le
  have hle := h.spent groupId
  apply abs_le.mpr
  constructor
  · unfold Js.maxSafeInteger
    omega
  · exact hle

end Writes

/-! ## What each call keeps -/

/-- An amount that an accepted body asks for, or else a stored one, is safe. -/
theorem storable_safe :
    Storable fun e => e.WellFormed ∧ SafeAmount e.amountMinorUnits where
  created := by
    intro input memberIds splits hacc hsplits e he
    have hsafe : SafeAmount e.amountMinorUnits := by
      rw [he.1]
      exact hacc.1
    exact ⟨storable_wellFormed.created hacc hsplits e he, hsafe⟩
  updated := by
    intro old c db input memberIds splits hold hacc hsplits e he
    have hsafe : SafeAmount e.amountMinorUnits := by
      rw [he.1]
      cases hamount : input.amountMinorUnits with
      | none => exact hold.2
      | some amount => exact hacc.1 amount hamount
    exact ⟨storable_wellFormed.updated hold.1 hacc hsplits e he, hsafe⟩

section Calls

variable {lib : Lib} {env : Env} {pid : ℕ} {h : Hist backend Err World}

/-- What the calls keep in each other's company. -/
abbrev KeepsAmounts (d d' : Db) : Prop := AmountTables d → AmountTables d'

/-- What a call of the system has to keep, and what it may rely on. -/
abbrev amounts (lib : Lib) (env : Env) (pid : ℕ) :
    Discipline backend Err (Hist backend Err World) :=
  (roomSystem lib env).discipline (OnTables KeepsAmounts) (fun _ => True) pid

/-- Between two operations of a call the amounts stay in range. -/
theorem stable_amounts (lib : Lib) (env : Env) (pid : ℕ) : Stable lib (amounts lib env pid)
    (fun h => h.world.db) fun h => AmountTables h.world.db :=
  stable_relation rfl (fun _ hd => hd) (fun _ _ hd hkeeps => hkeeps hd) pid

/-- The transactions of the expense calls find room for what they write. -/
theorem keepsWrites_amounts (lib : Lib) (env : Env) (pid : ℕ) :
    KeepsWrites (amounts lib env pid) (fun h => h.world.db) (fun h => AmountTables h.world.db)
      fun e => e.WellFormed ∧ SafeAmount e.amountMinorUnits where
  table := AmountTables.expenses
  create := by
    intro x y data activity c now r seen hx hans heval hdata
    -- The room that the write needs is what the discipline grants.
    have hroom : StaysInRange pid (.db (.expense (.createExpenseWithSplits data activity))) x :=
      hans.1
    have hy := hx.create hroom hdata heval
    exact ⟨⟨fun _ => hy, trivial⟩, hy⟩
  update := by
    intro x y id data activity c now r seen hx hans heval hdata
    have hroom : StaysInRange pid (.db (.expense (.updateExpenseWithSplits id data activity))) x :=
      hans.1
    have hy := hx.update hroom hdata heval
    exact ⟨⟨fun _ => hy, trivial⟩, hy⟩
  delete := by
    intro x y id activity now r seen hx hans heval
    have hroom : StaysInRange pid (.db (.expense (.deleteExpenseWithEvent id activity))) x :=
      hans.1
    have hy := hx.delete hroom heval
    exact ⟨⟨fun _ => hy, trivial⟩, hy⟩

/-- The only transaction of a settlement call records an amount that its schema accepted. -/
def SettlesSafely (o : DbOp) : Prop :=
  ∃ existing data idempotency activity expiresAt,
    o = .settlement (.claimAndSettle existing data idempotency activity expiresAt) ∧
      SafeAmount data.amountMinorUnits

/-- `createSettlement` writes a safe amount only. -/
theorem issues_createSettlement {requesterId : Id} {input : CreateSettlementInput}
    {idempotency : IdempotencyContext} (hacc : input.Accepted) :
    (SettlementService.createSettlement env requesterId input idempotency).Issues
      (Op.OnDb (ReadsOr SettlesSafely)) := by
  unfold SettlementService.createSettlement
  refine .bind (issues_op (.inl ⟨_, rfl⟩)) fun group => .bind (Prog.issues_expect _ _ _) fun _ => ?_
  refine .bind (issues_op (.inl ⟨_, rfl⟩)) fun members => ?_
  refine .bind (Prog.issues_ensure _ _ _) fun _ => .bind (Prog.issues_ensure _ _ _) fun _ => ?_
  refine .bind (Prog.issues_ensure _ _ _) fun _ => .bind (Prog.issues_ensure _ _ _) fun _ => ?_
  refine .tryCatch ?_ fun e => ?_
  · refine .bind (DistributedLock.issues_withLock (.bind (issues_op trivial) fun settledAt => ?_))
      fun s => .bind (issues_op trivial) fun _ => trivial
    refine SettlementRepository.issues_createSettlement (fun _ => .inl ⟨_, rfl⟩)
      (fun _ => .inl ⟨_, rfl⟩) fun existing expiresAt => .inr ⟨_, _, _, _, _, rfl, ?_⟩
    exact hacc
  · split <;> trivial

/-- `createSettlement` keeps the amounts in range. -/
theorem createSettlement_keeps {requesterId : Id} {input : CreateSettlementInput}
    {idempotency : IdempotencyContext} (hacc : input.Accepted) (hx : AmountTables h.world.db) :
    wp (amounts lib env pid) (fun _ y => AmountTables y.world.db)
      (SettlementService.createSettlement env requesterId input idempotency) h := by
  refine (stable_amounts lib env pid).run_answered (T := SettlesSafely) ?_
    (issues_createSettlement hacc) hx
  rintro o ⟨existing, data, idempotency, activity, expiresAt, rfl, hsafe⟩ t ht x y c now r seen hx
    hans heval
  obtain rfl := Access.write.inj ht
  have hroom : StaysInRange pid (.db (.settlement
      (.claimAndSettle existing data idempotency activity expiresAt))) x := hans.1
  have hy : AmountTables y.world.db := hx.settle hroom hsafe heval
  exact ⟨⟨fun _ => hy, trivial⟩, hy⟩

/-- The answers of the queries, each from the tables of its own moment, come to a total in range. -/
theorem aggregateGroup_wp {groupId : Id} {order : List Aggregate} {m : GroupSummaryMetrics}
    {Q : Except Err GroupSummaryMetrics → Hist backend Err World → Prop}
    (hx : AmountTables h.world.db) (hm : InRange m.totalSpentMinorUnits)
    (hok : ∀ m y, AmountTables y.world.db → InRange m.totalSpentMinorUnits → Q (.ok m) y)
    (herr : ∀ e y, Q (.error e) y) :
    wp (amounts lib env pid) Q (order.foldlM (SummaryRepository.aggregate groupId) m) h := by
  induction order generalizing m h with
  | nil => exact hok m h hx hm
  | cons query order ih =>
    rw [List.foldlM_cons]
    refine wp_bind.mpr ((stable_amounts lib env pid).read (.summary (.aggregate _ _ _)) rfl hx ?_
      fun y _ _ => herr _ y)
    intro c y hy
    apply ih hy
    cases query with
    | totalSpent => exact hy.inRange_spent groupId
    | expenseCount => exact hm
    | settlementCount => exact hm
    | memberCount => exact hm

/-- A recomputation keeps the amounts in range. -/
theorem recomputeGroupSummary_keeps {order : List Aggregate} {groupId : Id}
    (hx : AmountTables h.world.db) :
    wp (amounts lib env pid) (fun _ _ => True)
      (SummaryService.recomputeGroupSummary order groupId) h := by
  have hs := stable_amounts lib env pid
  unfold SummaryService.recomputeGroupSummary
  refine wp_bind.mpr (hs.read (.summary (.findGroupById _)) rfl hx ?_ fun _ _ _ => trivial)
  intro _ x₁ hx₁
  refine wp_expect_bind.mpr ⟨fun _ _ => ?_, fun _ => trivial⟩
  refine wp_bind.mpr (aggregateGroup_wp hx₁ (by decide) ?_ fun _ _ => trivial)
  intro m x₂ hx₂ hm
  refine wp_bind.mpr (hs.quiet .now (by rintro d ⟨⟩) hx₂ ?_)
  rintro (_ | computedAt) x₃ hx₃
  · trivial
  refine wp_bind.mpr (hs.write (.summary (.upsertSummary _ _ _)) rfl hx₃ ?_ fun _ _ _ => trivial)
  intro x₄ x₅ c now s hx₄ heval
  have hx₅ : AmountTables x₅.world.db :=
    hx₄.upsert hm (Prisma.groupSummaryUpsert_eq_ok heval)
  exact ⟨⟨fun _ => hx₅, trivial⟩, trivial, fun _ => trivial⟩

/-- A call keeps the tables in range, in company as well. -/
theorem amountCall_keeps {c : AmountCall} (hc : c.Accepted) (hx : AmountTables h.world.db) :
    wp (amounts lib env pid) (fun _ _ => True) (c.body env) h := by
  cases c with
  | expense call =>
    exact body_keeps storable_safe (stable_amounts lib env pid) (keepsWrites_amounts lib env pid) hc
      hx
  | createSettlement requesterId input idempotency =>
    exact wp_mono (fun _ _ _ => trivial) (wp_void (createSettlement_keeps hc hx))
  | recomputeGroupSummary order groupId =>
    exact wp_void (I := fun _ => True) (recomputeGroupSummary_keeps hx)

end Calls

/-! ## Runs -/

/-- Tables without amounts. -/
theorem amountTables_of_noAmounts {w : World} (h : NoAmounts w) : AmountTables w.db := by
  obtain ⟨hexpenses, hsettlements, hsummaries⟩ := h
  have hnone : ∀ {P : Expense → Prop}, ∀ e ∈ w.db.expenses, P e := by
    intro P e he
    rw [hexpenses] at he
    cases he
  constructor
  case expenses =>
    exact hnone
  case settlements =>
    rw [hsettlements]
    intro s hs
    cases hs
  case ids =>
    rw [hexpenses]
    exact List.nodup_nil
  case ids_lt =>
    exact hnone
  case spent =>
    intro g
    rw [spent_eq _ g 0, hexpenses]
    exact of_decide_eq_true (p := (0 : ℤ) ≤ Js.maxSafeInteger) rfl
  case positions =>
    intro g u
    unfold position
    rw [hexpenses, hsettlements]
    exact of_decide_eq_true (p := InRange 0) rfl
  case summaries =>
    rw [hsummaries]
    intro s hs
    cases hs

/-- In runs whose writes stay in range the tables are in range. -/
theorem amountTables_of_reachable {lib : Lib} {env : Env} {cfg : (roomSystem lib env).Config}
    (h : (roomSystem lib env).Reachable NoAmounts cfg) : AmountTables cfg.hist.world.db := by
  let out : (roomSystem lib env).Outline (OnTables KeepsAmounts) NoAmounts :=
    { I := fun h => AmountTables h.world.db
      refl := fun _ hd => hd
      trans := fun h₁ h₂ hd => h₂ (h₁ hd)
      init := fun _ hw => amountTables_of_noAmounts hw
      inv := fun _ _ hd hkeeps => hkeeps hd
      env := fun _ _ _ hspares hd => hd.spares hspares
      begins := fun _ _ _ _ _ => trivial
      steps := fun _ _ _ _ _ _ _ => trivial
      ends := fun _ _ _ _ _ _ _ _ => trivial
      body := fun _ _ _ hI hc _ => amountCall_keeps hc hI }
  exact out.holds h

/-! ## What the API publishes -/

/-- A number of a response that stands for an amount: the amount is in range, and the number is the
amount. -/
structure Published (number amount : ℤ) : Prop where
  inRange : InRange amount
  eq : number = amount

/-- Every amount that leaves the API in this state does so exactly: in the DTOs of expenses and
settlements, in the balances of a group and in its summary. The balances and the summary are those
that `getGroupBalances` and `getGroupSummary` answer when they run alone in the state, so that their
queries all read it. -/
structure AmountsExact (lib : Lib) (w : World) : Prop where
  expenses : ∀ e ∈ w.db.expenses, ∀ c before,
    Published (ExpenseService.toSummaryDto (e.summary w.db)).amountMinorUnits e.amountMinorUnits ∧
    Published (ExpenseService.toDetailDto (e.details c w.db before)).amountMinorUnits
      e.amountMinorUnits
  splits : ∀ e ∈ w.db.expenses, ∀ c before,
    List.Forall₂ (fun dto s => dto.userId = s.userId ∧
        Published dto.amountMinorUnits s.amountMinorUnits)
      (ExpenseService.toDetailDto (e.details c w.db before)).splits
      (c.arrange (·.id) before e.splits)
  settlements : ∀ s ∈ w.db.settlements,
    Published (SettlementService.toDto (s.record w.db)).amountMinorUnits s.amountMinorUnits
  balances : ∀ requesterId groupId dtos w', Exec (machine lib) World.Later
    (SettlementService.getGroupBalances requesterId groupId) w (.ok dtos) w' →
      ∀ dto ∈ dtos, Published dto.amountMinorUnits (position w.db groupId dto.userId)
  summary : ∀ requesterId groupId s w', Exec (machine lib) World.Later
    (SummaryService.getGroupSummary requesterId groupId) w (.ok s) w' →
      ∃ row, w.db.summary? groupId = some row ∧ s = SummaryService.toDto row ∧
        Published s.totalSpentMinorUnits row.totalSpentMinorUnits

/-- `Number` publishes what is in range. -/
theorem InRange.published {amount : ℤ} (h : InRange amount) : Published (Js.number amount) amount :=
  ⟨h, h.number_eq⟩

/-- A share of a well-formed expense is at most its amount. -/
theorem Expense.WellFormed.share_inRange {e : Expense} (h : e.WellFormed)
    (hsafe : SafeAmount e.amountMinorUnits) {s : ExpenseSplit} (hs : s ∈ e.splits) :
    InRange s.amountMinorUnits := by
  have hnonneg : 0 ≤ s.amountMinorUnits := h.nonneg s hs
  have hle : s.amountMinorUnits ≤ e.amountMinorUnits := by
    rw [← h.sum_eq]
    apply List.single_le_sum
    · intro a ha
      obtain ⟨x, hx, rfl⟩ := List.mem_map.mp ha
      exact h.nonneg x hx
    · exact List.mem_map_of_mem hs
  have hmax := hsafe.2
  apply abs_le.mpr
  unfold Js.maxSafeInteger at *
  omega

section

variable {lib : Lib} {w : World}

/-- `getGroupSummary` returns the stored summary, with its total as a number. -/
theorem getGroupSummary_row (requesterId groupId : Id) :
    wp (alone lib) (fun r _ => ∀ s, r = .ok s → ∃ row, w.db.summary? groupId = some row ∧
        s = SummaryService.toDto row)
      (SummaryService.getGroupSummary requesterId groupId) w := by
  have hs := (sequential_alone lib).stable w.db
  have hno : ∀ (e : Err) (s : GroupSummary), .error e = Except.ok s → ∃ row,
      w.db.summary? groupId = some row ∧ s = SummaryService.toDto row := by
    intro e s he
    cases he
  unfold SummaryService.getGroupSummary
  refine wp_bind.mpr (hs.read (.summary (.findGroupById _)) rfl rfl ?_ fun _ _ _ => hno _)
  intro _ x₁ hx₁
  refine wp_expect_bind.mpr ⟨fun _ _ => ?_, fun _ => hno _⟩
  refine wp_bind.mpr (hs.read (.summary (.isGroupMember _ _)) rfl hx₁ ?_ fun _ _ _ => hno _)
  intro _ x₂ hx₂
  refine wp_ensure_bind.mpr ⟨fun _ => ?_, fun _ => hno _⟩
  refine wp_bind.mpr (hs.read (.summary (.findSummaryByGroupId _)) rfl hx₂ ?_ fun _ _ _ => hno _)
  intro _ x₃ hx₃
  -- Both checks have passed, and the row is the group's.
  rw [hx₃]
  refine wp_expect_bind.mpr ⟨fun row hrow => ?_, fun _ => hno _⟩
  intro s hret
  exact ⟨row, hrow, (Except.ok.inj hret).symm⟩

/-- Where the tables are in range all amounts leave the API exactly. -/
theorem AmountTables.exact (h : AmountTables w.db) : AmountsExact lib w := by
  -- Every published number is the image of one that is in range.
  constructor
  case expenses =>
    intro e he c before
    have hrange := (h.expenses e he).2.inRange
    exact ⟨hrange.published, hrange.published⟩
  case splits =>
    intro e he c before
    obtain ⟨hwell, hsafe⟩ := h.expenses e he
    unfold ExpenseService.toDetailDto Expense.details
    rw [List.map_map, List.forall₂_map_left_iff]
    apply List.forall₂_same.mpr
    intro s hs
    have hrange : InRange s.amountMinorUnits :=
      hwell.share_inRange hsafe (Choice.mem_arrange.mp hs)
    exact ⟨rfl, hrange.published⟩
  case settlements =>
    intro s hs
    exact (h.settlements s hs).inRange.published
  case balances =>
    intro requesterId groupId dtos w' hx dto hdto
    have hamount := (hx.sound (getGroupBalances_positions requesterId groupId) dtos rfl).2 dto hdto
    rw [hamount]
    exact (h.positions groupId dto.userId).published
  case summary =>
    intro requesterId groupId s w' hx
    obtain ⟨row, hrow, rfl⟩ := hx.sound (getGroupSummary_row requesterId groupId) s rfl
    have hmem : row ∈ w.db.groupSummaries := List.mem_of_find?_eq_some hrow
    exact ⟨row, hrow, rfl, (h.summaries row hmem).published⟩

end

/-- In runs whose writes stay in range every amount leaves the API exactly. -/
theorem amounts_exact {lib : Lib} {env : Env} {cfg : (roomSystem lib env).Config}
    (h : (roomSystem lib env).Reachable NoAmounts cfg) : AmountsExact lib cfg.hist.world :=
  (amountTables_of_reachable h).exact

/-- User 1 pays three amounts for user 2. -/
def paysThrice : List (System.Action (amountSystem .plain {})) :=
  let pays : ℕ → ℤ → List (System.Action (amountSystem .plain {})) := fun pid amount =>
    .spawn (.expense (.createExpense 1 ⟨10, "Rent", amount, 1, .equal, [⟨2, none⟩], none⟩)) ::
      List.replicate 5 (.op pid {})
  pays 0 (2 ^ 53 - 1) ++ pays 1 (2 ^ 53 - 1) ++ pays 2 1

/-- User 1 is owed `2 ^ 54 - 1`, and is told `2 ^ 54`. -/
theorem not_amounts_exact : ∃ cfg dtos w',
    (amountSystem .plain {}).Reachable NoAmounts cfg ∧
    Exec (machine .plain) World.Later (SettlementService.getGroupBalances 1 10) cfg.hist.world
      (.ok dtos) w' ∧
    (∃ dto ∈ dtos, dto.userId = 1 ∧ dto.amountMinorUnits = 2 ^ 54) ∧
    position cfg.hist.world.db 10 1 = 2 ^ 54 - 1 ∧ ¬AmountsExact .plain cfg.hist.world := by
  let balances := SettlementService.getGroupBalances 1 10
  obtain ⟨cfg, hplay, hposition, dtos, hdtos, hshown⟩ : ∃ cfg,
      (amountSystem .plain {}).play paysThrice ((amountSystem .plain {}).start threeMembers) =
        some cfg ∧
      position cfg.hist.world.db 10 1 = 2 ^ 54 - 1 ∧
      ∃ dtos ∈ ((machine .plain).run {} balances cfg.hist.world).1.toOption,
        ∃ dto ∈ dtos, dto.userId = 1 ∧ dto.amountMinorUnits = 2 ^ 54 :=
    System.exists_of_play (by decide +kernel)
  have hreach : (amountSystem .plain {}).Reachable NoAmounts cfg :=
    System.reachable_of_play (fun _ _ _ => trivial) (.start ⟨rfl, rfl, rfl⟩) hplay
  -- The play only says what a run of `getGroupBalances` comes to, so it is turned into an
  -- execution.
  have hexec := (machine .plain).exec_run World.later_refl {} balances cfg.hist.world
  have hresult : ((machine .plain).run {} balances cfg.hist.world).1 = .ok dtos := by
    cases hr : ((machine .plain).run {} balances cfg.hist.world).1 with
    | error e =>
      rw [hr] at hdtos
      cases hdtos
    | ok a =>
      rw [hr] at hdtos
      rw [Option.some.inj hdtos]
  rw [hresult] at hexec
  refine ⟨cfg, dtos, _, hreach, hexec, hshown, hposition, fun hexact => ?_⟩
  obtain ⟨dto, hdto, huser, hamount⟩ := hshown
  have hpublished := (hexact.balances 1 10 dtos _ hexec dto hdto).eq
  rw [hamount, huser, hposition] at hpublished
  exact absurd hpublished (by decide)

/-- User 1 pays the largest amount for user 2, who returns it, and the summary is computed. -/
def paysAndReturns : List (System.Action (roomSystem .plain {})) :=
  .spawn (.expense (.createExpense 1
    ⟨10, "Rent", 2 ^ 53 - 1, 1, .equal, [⟨2, none⟩], none⟩)) :: List.replicate 5 (.op 0 {}) ++
  .spawn (.createSettlement 2 ⟨10, 2, 1, 2 ^ 53 - 1⟩ ⟨"k", 2, "h"⟩) ::
    List.replicate 10 (.op 1 {}) ++
  .spawn (.recomputeGroupSummary [.totalSpent, .expenseCount, .settlementCount, .memberCount] 10) ::
    List.replicate 7 (.op 2 {})

/-- The largest amount is paid and returned, and every amount leaves the API exactly. -/
theorem amounts_exact_returned : ∃ cfg,
    (roomSystem .plain {}).play paysAndReturns ((roomSystem .plain {}).start threeMembers) =
      some cfg ∧
    (∃ row ∈ cfg.hist.world.db.summary? 10, row.totalSpentMinorUnits = 2 ^ 53 - 1) ∧
    cfg.hist.world.db.settlements.length = 1 ∧ AmountsExact .plain cfg.hist.world := by
  obtain ⟨cfg, hplay, hall, hsummary, hsettled⟩ : ∃ cfg,
      (roomSystem .plain {}).play paysAndReturns ((roomSystem .plain {}).start threeMembers) =
        some cfg ∧
      (roomSystem .plain {}).Allowed cfg.hist.log ∧
      (∃ row ∈ cfg.hist.world.db.summary? 10, row.totalSpentMinorUnits = 2 ^ 53 - 1) ∧
      cfg.hist.world.db.settlements.length = 1 := System.exists_of_play (by decide +kernel)
  have hreach : (roomSystem .plain {}).Reachable NoAmounts cfg :=
    System.reachable_of_allowed (.start ⟨rfl, rfl, rfl⟩) hplay hall
  exact ⟨cfg, hplay, hsummary, hsettled, amounts_exact hreach⟩

end SplitBill
