import SplitBill.Activity.Repository

/-!
# The expense repository

`src/modules/expenses/expense.repository.ts`.
-/

namespace SplitBill

open Prisma

/-- A split row with its user. -/
structure SplitWithUser where
  id : Id
  userId : Id
  amountMinorUnits : ℤ
  createdAt : Time
  user : SafeUser
  deriving DecidableEq

/-- `ExpenseWithDetails`: an expense with its payer and its split rows. -/
structure ExpenseWithDetails where
  id : Id
  groupId : Id
  paidById : Id
  description : String
  amountMinorUnits : ℤ
  currencyCode : String
  splitType : SplitType
  expenseDate : Time
  createdAt : Time
  updatedAt : Time
  payer : SafeUser
  splits : List SplitWithUser
  deriving DecidableEq

/-- `ExpenseWithSummary`: an expense with its payer and the number of its split rows. -/
structure ExpenseWithSummary where
  id : Id
  groupId : Id
  paidById : Id
  description : String
  amountMinorUnits : ℤ
  currencyCode : String
  splitType : SplitType
  expenseDate : Time
  createdAt : Time
  updatedAt : Time
  payer : SafeUser
  splitCount : ℕ
  deriving DecidableEq

/-- An expense with the relations that the queries include, and its split rows in the order
`before`. -/
def Expense.details (c : Choice) (db : Db) (before : ExpenseSplit → ExpenseSplit → Bool)
    (e : Expense) : ExpenseWithDetails where
  id := e.id
  groupId := e.groupId
  paidById := e.paidById
  description := e.description
  amountMinorUnits := e.amountMinorUnits
  currencyCode := e.currencyCode
  splitType := e.splitType
  expenseDate := e.expenseDate
  createdAt := e.createdAt
  updatedAt := e.updatedAt
  payer := db.safeUser e.paidById
  splits := (c.arrange (·.id) before e.splits).map fun s =>
    ⟨s.id, s.userId, s.amountMinorUnits, s.createdAt, db.safeUser s.userId⟩

/-- `orderBy: { createdAt: "asc" }`. -/
def byCreatedAt (a b : ExpenseSplit) : Bool := a.createdAt < b.createdAt

/-- `mapRow`. -/
def Expense.summary (db : Db) (e : Expense) : ExpenseWithSummary where
  id := e.id
  groupId := e.groupId
  paidById := e.paidById
  description := e.description
  amountMinorUnits := e.amountMinorUnits
  currencyCode := e.currencyCode
  splitType := e.splitType
  expenseDate := e.expenseDate
  createdAt := e.createdAt
  updatedAt := e.updatedAt
  payer := db.safeUser e.paidById
  splitCount := e.splits.length

/-- `createExpenseWithSplits`: the expense, its split rows and the event. -/
def createExpenseWithSplits (c : Choice) (now : Time) (data : CreateExpenseData)
    (activity : ActivityEventInput) : Tx Db Err Metric ExpenseWithDetails := do
  let expense ← Tx.including (expenseCreate now data) fun db e => e.details c db unordered
  let _ ← createActivityEvent now
    { groupId := expense.groupId, userId := activity.userId, type := activity.type,
      message := activity.message, amountMinorUnits := some expense.amountMinorUnits,
      currencyCode := some expense.currencyCode, occurredAt := expense.createdAt }
  return expense

/-- `updateExpenseWithSplits`: the columns, the replaced split rows and the event. -/
def updateExpenseWithSplits (c : Choice) (now : Time) (expenseId : Id) (data : UpdateExpenseData)
    (activity : ActivityEventInput) : Tx Db Err Metric ExpenseWithDetails := do
  let occurredAt := now
  let expense ← Tx.including (expenseUpdate now expenseId data) fun db e =>
    e.details c db unordered
  let _ ← createActivityEvent now
    { groupId := expense.groupId, userId := activity.userId, type := activity.type,
      message := activity.message, amountMinorUnits := some expense.amountMinorUnits,
      currencyCode := some expense.currencyCode, occurredAt }
  return expense

/-- `deleteExpenseWithEvent`: the end of the expense and the event. -/
def deleteExpenseWithEvent (now : Time) (expenseId : Id) (activity : ActivityEventInput) :
    Tx Db Err Metric Unit := do
  let expense ← Tx.statement (expenseDelete expenseId)
  let _ ← createActivityEvent now
    { groupId := expense.groupId, userId := activity.userId, type := activity.type,
      message := activity.message, amountMinorUnits := some expense.amountMinorUnits,
      currencyCode := some expense.currencyCode, occurredAt := now }
  return ()

/-- What `createExpenseWithSplits` does to the table of expenses. -/
theorem createExpenseWithSplits_eq_ok {c : Choice} {now : Time} {data : CreateExpenseData}
    {activity : ActivityEventInput} {db db' : Db} {r : ExpenseWithDetails}
    (h : (createExpenseWithSplits c now data activity).eval db = .ok (r, db')) :
    ∃ e db₁ event, Prisma.expenseCreate now data db = .ok (e, db₁) ∧
      r = e.details c db₁ unordered ∧
      db' = { db₁ with
        activityEvents := event :: db₁.activityEvents, nextId := db₁.nextId + 1 } ∧
      event.Records e.groupId activity.type := by
  unfold createExpenseWithSplits at h
  obtain ⟨r₁, db₁, hcreate, h⟩ := Tx.eval_bind_eq_ok.mp h
  obtain ⟨rfl, event, hgroup, rfl⟩ := createActivityEvent_return_eq_ok h
  obtain ⟨e, he, rfl⟩ := Tx.eval_including_eq_ok.mp hcreate
  exact ⟨e, db₁, event, he, rfl, rfl, hgroup⟩

/-- What `updateExpenseWithSplits` does to the table of expenses. -/
theorem updateExpenseWithSplits_eq_ok {c : Choice} {now : Time} {expenseId : Id}
    {data : UpdateExpenseData} {activity : ActivityEventInput} {db db' : Db}
    {r : ExpenseWithDetails}
    (h : (updateExpenseWithSplits c now expenseId data activity).eval db = .ok (r, db')) :
    ∃ e db₁ event, Prisma.expenseUpdate now expenseId data db = .ok (e, db₁) ∧
      r = e.details c db₁ unordered ∧
      db' = { db₁ with
        activityEvents := event :: db₁.activityEvents, nextId := db₁.nextId + 1 } ∧
      event.Records e.groupId activity.type := by
  unfold updateExpenseWithSplits at h
  obtain ⟨r₁, db₁, hupdate, h⟩ := Tx.eval_bind_eq_ok.mp h
  obtain ⟨rfl, event, hgroup, rfl⟩ := createActivityEvent_return_eq_ok h
  obtain ⟨e, he, rfl⟩ := Tx.eval_including_eq_ok.mp hupdate
  exact ⟨e, db₁, event, he, rfl, rfl, hgroup⟩

/-- The row of an expense that `updateExpenseWithSplits` updated. -/
theorem expense?_updateExpenseWithSplits {c : Choice} {now : Time} {expenseId : Id}
    {data : UpdateExpenseData} {activity : ActivityEventInput} {db db' : Db}
    {r : ExpenseWithDetails}
    (h : (updateExpenseWithSplits c now expenseId data activity).eval db = .ok (r, db')) :
    ∃ old, db.expense? expenseId = some old ∧
      db'.expense? expenseId = some (data.applyTo now db.nextId old) := by
  obtain ⟨e, db₁, event, hupdate, -, rfl, -⟩ := updateExpenseWithSplits_eq_ok h
  obtain ⟨old, hold, -, -, -, rfl⟩ := Prisma.expenseUpdate_eq_ok hupdate
  have hid : old.id = expenseId := by simpa using List.find?_some hold
  have hkeeps : ∀ x, (data.applyTo now db.nextId x).id = x.id := fun _ => rfl
  refine ⟨old, hold, ?_⟩
  calc (updateWhere (·.id = expenseId) (data.applyTo now db.nextId) db.expenses).find?
        (·.id = expenseId)
      = (db.expense? expenseId).map fun x =>
          if decide (x.id = expenseId) then data.applyTo now db.nextId x else x :=
        find?_updateWhere (fun x => by rw [hkeeps x]) db.expenses
    _ = some (data.applyTo now db.nextId old) := by
        rw [hold, Option.map_some, if_pos (decide_eq_true hid)]

/-- What `deleteExpenseWithEvent` does to the table of expenses. -/
theorem deleteExpenseWithEvent_eq_ok {now : Time} {expenseId : Id} {activity : ActivityEventInput}
    {db db' : Db} {r : Unit}
    (h : (deleteExpenseWithEvent now expenseId activity).eval db = .ok (r, db')) :
    ∃ e event, db.expense? expenseId = some e ∧ event.Records e.groupId activity.type ∧
      db' = { db with
        expenses := db.expenses.filter (·.id ≠ expenseId)
        activityEvents := event :: db.activityEvents
        nextId := db.nextId + 1 } := by
  unfold deleteExpenseWithEvent at h
  obtain ⟨e, db₁, hdelete, h⟩ := Tx.eval_bind_eq_ok.mp h
  obtain ⟨-, event, hgroup, rfl⟩ := createActivityEvent_return_eq_ok h
  obtain ⟨he, rfl⟩ := Prisma.expenseDelete_eq_ok hdelete
  exact ⟨e, event, he, hgroup, rfl⟩

/-- `expense.findMany` of `findExpensesByGroupId`, newest first. -/
def expenseFindMany (c : Choice) (db : Db) (groupId : Id) (pagination : Option (ℕ × ℕ)) :
    List ExpenseWithSummary :=
  let expenses := db.expensesOf groupId
  match pagination with
  | none =>
    (c.arrange (·.id) (fun a b => b.createdAt < a.createdAt) expenses).map (·.summary db)
  | some (page, limit) =>
    let sorted := c.arrange (·.id)
      (fun a b => b.createdAt < a.createdAt ∨ a.createdAt = b.createdAt ∧ a.id < b.id) expenses
    ((sorted.drop ((page - 1) * limit)).take limit).map (·.summary db)

/-- The methods of `ExpenseRepository`, and the two queries of `findExpensesByGroupId`. -/
inductive ExpenseOp
  | findGroupById (id : Id)
  | findGroupMemberIds (groupId : Id)
  | createExpenseWithSplits (data : CreateExpenseData) (activity : ActivityEventInput)
  | findExpenseById (id : Id)
  | updateExpenseWithSplits (expenseId : Id) (data : UpdateExpenseData)
      (activity : ActivityEventInput)
  | deleteExpenseWithEvent (expenseId : Id) (activity : ActivityEventInput)
  | findMany (groupId : Id) (pagination : Option (ℕ × ℕ))
  | count (groupId : Id)

namespace ExpenseOp

/-- What a method answers. -/
abbrev Res : ExpenseOp → Type
  | findGroupById _ => Option Group
  | findGroupMemberIds _ => List Id
  | createExpenseWithSplits _ _ => ExpenseWithDetails
  | findExpenseById _ => Option ExpenseWithDetails
  | updateExpenseWithSplits _ _ _ => ExpenseWithDetails
  | deleteExpenseWithEvent _ _ => Unit
  | findMany _ _ => List ExpenseWithSummary
  | count _ => ℕ

/-- What a method does. -/
def access : (o : ExpenseOp) → Access o.Res
  | findGroupById id => .read fun _ db => db.group? id
  | findGroupMemberIds groupId => .read fun c db =>
    (c.arrange (·.id) unordered (db.membersOf groupId)).map (·.userId)
  | createExpenseWithSplits data activity =>
    .write fun c now => SplitBill.createExpenseWithSplits c now data activity
  | findExpenseById id => .read fun c db => (db.expense? id).map (·.details c db byCreatedAt)
  | updateExpenseWithSplits expenseId data activity =>
    .write fun c now => SplitBill.updateExpenseWithSplits c now expenseId data activity
  | deleteExpenseWithEvent expenseId activity =>
    .write fun _ now => SplitBill.deleteExpenseWithEvent now expenseId activity
  | findMany groupId pagination => .read fun c db => expenseFindMany c db groupId pagination
  | count groupId => .read fun _ db => (db.expensesOf groupId).length

end ExpenseOp

end SplitBill
