import SplitBill.Backend
import SplitBill.Expenses.Split
import SplitBill.Js.Number

/-!
# The expense service

`src/modules/expenses/expense.service.ts`, on the methods of `ExpenseRepository` as programs. The
splits of a request are checked and computed by `reconcileSplits`; the source repeats its text
within `createExpense`.

`CreateExpenseInput.Accepted` and `UpdateExpenseInput.Accepted` are what the schemas of
`validators.ts` admit, as far as amounts and participants go.
-/

namespace SplitBill

open Interleave
open Prisma (SplitAmount CreateExpenseData UpdateExpenseData)
open Prog (ensure expect)

/-! ## Requests -/

/-- `safeAmount`: a positive safe integer. -/
def SafeAmount (amount : ℤ) : Prop := 0 < amount ∧ amount ≤ Js.maxSafeInteger

instance : DecidablePred SafeAmount := fun _ => inferInstanceAs (Decidable (_ ∧ _))

/-- A participant of a request. -/
structure Participant where
  userId : Id
  amountMinorUnits : Option ℤ := none
  deriving DecidableEq

/-- The amount of a participant, if it is given, is safe. -/
def Participant.Accepted (p : Participant) : Prop := ∀ a ∈ p.amountMinorUnits, SafeAmount a

instance : DecidablePred Participant.Accepted := fun p =>
  inferInstanceAs (Decidable (∀ a ∈ p.amountMinorUnits, SafeAmount a))

/-- `CreateExpenseInput`. -/
structure CreateExpenseInput where
  groupId : Id
  description : String
  amountMinorUnits : ℤ
  payerId : Id
  splitType : SplitType
  participants : List Participant
  expenseDate : Option Time := none
  deriving DecidableEq

/-- `createExpenseBodySchema`. -/
def CreateExpenseInput.Accepted (input : CreateExpenseInput) : Prop :=
  SafeAmount input.amountMinorUnits ∧ (∀ p ∈ input.participants, p.Accepted) ∧
    input.participants ≠ []

instance : DecidablePred CreateExpenseInput.Accepted := fun _ =>
  inferInstanceAs (Decidable (_ ∧ _ ∧ _))

/-- `UpdateExpenseInput`. -/
structure UpdateExpenseInput where
  description : Option String := none
  amountMinorUnits : Option ℤ := none
  payerId : Option Id := none
  splitType : Option SplitType := none
  participants : Option (List Participant) := none
  expenseDate : Option Time := none
  deriving DecidableEq

/-- `updateExpenseBodySchema`. -/
def UpdateExpenseInput.Accepted (input : UpdateExpenseInput) : Prop :=
  (∀ a ∈ input.amountMinorUnits, SafeAmount a) ∧
    (∀ ps ∈ input.participants, (∀ p ∈ ps, p.Accepted) ∧ ps ≠ []) ∧ input ≠ {}

instance : DecidablePred UpdateExpenseInput.Accepted := fun input =>
  inferInstanceAs (Decidable ((∀ a ∈ input.amountMinorUnits, SafeAmount a) ∧
    (∀ ps ∈ input.participants, (∀ p ∈ ps, p.Accepted) ∧ ps ≠ []) ∧ input ≠ {}))

/-! ## Responses -/

/-- `SplitDto`. -/
structure SplitDto where
  id : Id
  userId : Id
  amountMinorUnits : ℤ
  user : SafeUser
  deriving DecidableEq

/-- `ExpenseDetailDto`. -/
structure ExpenseDetailDto where
  id : Id
  groupId : Id
  paidById : Id
  description : String
  amountMinorUnits : ℤ
  currencyCode : String
  splitType : SplitType
  expenseDate : Time
  payer : SafeUser
  splits : List SplitDto
  createdAt : Time
  updatedAt : Time
  deriving DecidableEq

/-- `ExpenseSummaryDto`. -/
structure ExpenseSummaryDto where
  id : Id
  groupId : Id
  paidById : Id
  description : String
  amountMinorUnits : ℤ
  currencyCode : String
  splitType : SplitType
  expenseDate : Time
  payer : SafeUser
  splitCount : ℕ
  createdAt : Time
  updatedAt : Time
  deriving DecidableEq

/-- `Pagination` of a list response. -/
structure Pagination where
  page : ℕ
  limit : ℕ
  total : ℕ
  deriving DecidableEq

/-- `ExpenseListPage`. -/
structure ExpenseListPage where
  expenses : List ExpenseSummaryDto
  pagination : Option Pagination
  deriving DecidableEq

/-! ## The repository's methods -/

namespace ExpenseRepository

/-- `findGroupById`. -/
def findGroupById (id : Id) : Act (Option Group) :=
  Op.perform (.db (.expense (.findGroupById id)))

/-- `findGroupMemberIds`. -/
def findGroupMemberIds (groupId : Id) : Act (List Id) :=
  Op.perform (.db (.expense (.findGroupMemberIds groupId)))

/-- `createExpenseWithSplits`. -/
def createExpenseWithSplits (data : CreateExpenseData) (activity : ActivityEventInput) :
    Act ExpenseWithDetails :=
  Op.perform (.db (.expense (.createExpenseWithSplits data activity)))

/-- `findExpenseById`. -/
def findExpenseById (id : Id) : Act (Option ExpenseWithDetails) :=
  Op.perform (.db (.expense (.findExpenseById id)))

/-- `updateExpenseWithSplits`. -/
def updateExpenseWithSplits (expenseId : Id) (data : UpdateExpenseData)
    (activity : ActivityEventInput) : Act ExpenseWithDetails :=
  Op.perform (.db (.expense (.updateExpenseWithSplits expenseId data activity)))

/-- `deleteExpenseWithEvent`. -/
def deleteExpenseWithEvent (expenseId : Id) (activity : ActivityEventInput) : Act Unit :=
  Op.perform (.db (.expense (.deleteExpenseWithEvent expenseId activity)))

/-- `findExpensesByGroupId`, with the total when a page is asked for. -/
def findExpensesByGroupId (groupId : Id) :
    Option (ℕ × ℕ) → Act (List ExpenseWithSummary × Option ℕ)
  | none => do
    let expenses ← Op.perform (.db (.expense (.findMany groupId none)))
    return (expenses, none)
  | some pagination => do
    let (expenses, total) ← promiseAll
      (Op.perform (.db (.expense (.findMany groupId (some pagination)))))
      (Op.perform (.db (.expense (.count groupId))))
    return (expenses, some total)

/-- The queries of `findExpensesByGroupId`. -/
theorem issues_findExpensesByGroupId {P : Op → Prop} {groupId : Id}
    {pagination : Option (ℕ × ℕ)} (hmany : P (.db (.expense (.findMany groupId pagination))))
    (hcount : P (.db (.expense (.count groupId)))) (hrace : P .race) :
    (findExpensesByGroupId groupId pagination).Issues P := by
  cases pagination with
  | none => exact .bind ((Prog.issues_perform _ _).mpr hmany) fun _ => trivial
  | some pagination =>
    exact .bind (issues_promiseAll ((Prog.issues_perform _ _).mpr hmany)
      ((Prog.issues_perform _ _).mpr hcount) hrace) fun _ => trivial

end ExpenseRepository

/-! ## The service -/

namespace ExpenseService

/-- "Group not found." -/
def groupNotFound : Err := notFoundError .groupNotFound "Group not found."

/-- "Expense not found." -/
def expenseNotFound : Err := notFoundError .expenseNotFound "Expense not found."

/-- "You are not a member of this group." -/
def notGroupMember : Err :=
  forbiddenError .notGroupMember "You are not a member of this group."

/-- "The payer must be a member of the group." -/
def payerNotGroupMember : Err :=
  forbiddenError .payerNotGroupMember "The payer must be a member of the group."

/-- "EXACT split amounts must sum to the expense total." -/
def splitTotalMismatch : Err :=
  badRequestError .splitTotalMismatch "EXACT split amounts must sum to the expense total."

/-- `toDetailDto`. -/
def toDetailDto (e : ExpenseWithDetails) : ExpenseDetailDto where
  id := e.id
  groupId := e.groupId
  paidById := e.paidById
  description := e.description
  amountMinorUnits := Js.number e.amountMinorUnits
  currencyCode := e.currencyCode
  splitType := e.splitType
  expenseDate := e.expenseDate
  payer := e.payer
  splits := e.splits.map fun s => ⟨s.id, s.userId, Js.number s.amountMinorUnits, s.user⟩
  createdAt := e.createdAt
  updatedAt := e.updatedAt

/-- `toSummaryDto`. -/
def toSummaryDto (e : ExpenseWithSummary) : ExpenseSummaryDto where
  id := e.id
  groupId := e.groupId
  paidById := e.paidById
  description := e.description
  amountMinorUnits := Js.number e.amountMinorUnits
  currencyCode := e.currencyCode
  splitType := e.splitType
  expenseDate := e.expenseDate
  payer := e.payer
  splitCount := e.splitCount
  createdAt := e.createdAt
  updatedAt := e.updatedAt

/-- The splits that participants of an exact split ask for, when each gives an amount. -/
def exactSplits (participants : List Participant) : Option (List SplitAmount) :=
  participants.mapM fun p => p.amountMinorUnits.map fun a => ⟨p.userId, a⟩

/-- `reconcileSplits`. -/
def reconcileSplits (splitType : SplitType) (totalMinorUnits : ℤ)
    (participants : List Participant) (memberIds : List Id) : Except Err (List SplitAmount) :=
  let participantIds := participants.map (·.userId)
  if ¬participantIds.Nodup then
    .error (badRequestError .duplicateSplitUser
      "A participant cannot appear more than once in the splits.")
  else if ¬∀ u ∈ participantIds, u ∈ memberIds then
    .error (forbiddenError .splitUserNotGroupMember
      "Every split participant must be a member of the group.")
  else
    match splitType with
    | .equal => .ok (calculateEqualSplits totalMinorUnits participantIds)
    | .exact =>
      match exactSplits participants with
      | none =>
        .error (badRequestError .splitTotalMismatch
          "Every EXACT participant must provide an amount.")
      | some splits =>
        if sumSplitAmounts splits ≠ totalMinorUnits then .error splitTotalMismatch
        else .ok splits

/-- The split rows of a stored expense as amounts. -/
def keptSplits (expense : ExpenseWithDetails) : List SplitAmount :=
  expense.splits.map fun s => ⟨s.userId, s.amountMinorUnits⟩

/-- The splits of an update: of the participants that it gives, or else of the stored ones. -/
def nextSplits (expense : ExpenseWithDetails) (input : UpdateExpenseInput) (memberIds : List Id) :
    Except Err (List SplitAmount) :=
  let nextTotal := input.amountMinorUnits.getD expense.amountMinorUnits
  let nextSplitType := input.splitType.getD expense.splitType
  match input.participants with
  | some participants => reconcileSplits nextSplitType nextTotal participants memberIds
  | none =>
    match nextSplitType with
    | .exact =>
      if sumSplitAmounts (keptSplits expense) ≠ nextTotal then .error splitTotalMismatch
      else .ok (keptSplits expense)
    | .equal => .ok (calculateEqualSplits nextTotal (expense.splits.map (·.userId)))

/-- `assertMemberOfGroup`. -/
def assertMemberOfGroup (requesterId groupId : Id) : Act Unit := do
  let memberIds ← ExpenseRepository.findGroupMemberIds groupId
  ensure (requesterId ∈ memberIds) notGroupMember

/-- `createExpense`. -/
def createExpense (requesterId : Id) (input : CreateExpenseInput) : Act ExpenseDetailDto := do
  let group ← ExpenseRepository.findGroupById input.groupId
  let _ ← expect group groupNotFound
  let memberIds ← ExpenseRepository.findGroupMemberIds input.groupId
  ensure (requesterId ∈ memberIds) notGroupMember
  ensure (input.payerId ∈ memberIds) payerNotGroupMember
  let splits ← Prog.ofExcept
    (reconcileSplits input.splitType input.amountMinorUnits input.participants memberIds)
  let expenseDate ← dateOrNow input.expenseDate
  let expense ← ExpenseRepository.createExpenseWithSplits
    { groupId := input.groupId, paidById := input.payerId, description := input.description,
      amountMinorUnits := input.amountMinorUnits, currencyCode := "PKR",
      splitType := input.splitType, expenseDate, splits }
    { userId := requesterId, type := .expenseAdded,
      message := "added the expense \"" ++ input.description ++ "\"" }
  increment .expensesCreatedTotal
  return toDetailDto expense

/-- `getExpenseById`. -/
def getExpenseById (requesterId expenseId : Id) : Act ExpenseDetailDto := do
  let expense ← ExpenseRepository.findExpenseById expenseId
  let expense ← expect expense expenseNotFound
  assertMemberOfGroup requesterId expense.groupId
  return toDetailDto expense

/-- `updateExpense`. -/
def updateExpense (requesterId expenseId : Id) (input : UpdateExpenseInput) :
    Act ExpenseDetailDto := do
  let expense ← ExpenseRepository.findExpenseById expenseId
  let expense ← expect expense expenseNotFound
  let memberIds ← ExpenseRepository.findGroupMemberIds expense.groupId
  ensure (requesterId ∈ memberIds) notGroupMember
  let nextDescription := input.description.getD expense.description
  let nextTotal := input.amountMinorUnits.getD expense.amountMinorUnits
  let nextPayerId := input.payerId.getD expense.paidById
  let nextSplitType := input.splitType.getD expense.splitType
  let nextExpenseDate := input.expenseDate.getD expense.expenseDate
  ensure (nextPayerId ∈ memberIds) payerNotGroupMember
  let splits ← Prog.ofExcept (nextSplits expense input memberIds)
  let updated ← ExpenseRepository.updateExpenseWithSplits expenseId
    { paidById := nextPayerId, description := nextDescription, amountMinorUnits := nextTotal,
      splitType := nextSplitType, expenseDate := nextExpenseDate, splits }
    { userId := requesterId, type := .expenseUpdated,
      message := "updated the expense \"" ++ nextDescription ++ "\"" }
  increment .expensesUpdatedTotal
  return toDetailDto updated

/-- `deleteExpense`. -/
def deleteExpense (requesterId expenseId : Id) : Act Unit := do
  let expense ← ExpenseRepository.findExpenseById expenseId
  let expense ← expect expense expenseNotFound
  assertMemberOfGroup requesterId expense.groupId
  ExpenseRepository.deleteExpenseWithEvent expenseId
    { userId := requesterId, type := .expenseDeleted,
      message := "deleted the expense \"" ++ expense.description ++ "\"" }
  increment .expensesDeletedTotal

/-- `getGroupExpenses`. -/
def getGroupExpenses (requesterId groupId : Id) (pagination : Option (ℕ × ℕ)) :
    Act ExpenseListPage := do
  let group ← ExpenseRepository.findGroupById groupId
  let _ ← expect group groupNotFound
  assertMemberOfGroup requesterId groupId
  let (expenses, total) ← ExpenseRepository.findExpensesByGroupId groupId pagination
  let list := expenses.map toSummaryDto
  match pagination with
  | some (page, limit) => return ⟨list, some ⟨page, limit, total.getD 0⟩⟩
  | none => return ⟨list, none⟩

end ExpenseService

end SplitBill
