import SplitBill.DistributedLock
import SplitBill.Expenses.Service
import SplitBill.Settlements.CreateSettlement

/-!
# The settlement service

`src/modules/settlements/settlement.service.ts`.
-/

namespace SplitBill

open Interleave
open Prog (ensure expect)

/-- `BalanceDto`. -/
structure BalanceDto where
  userId : Id
  name : String
  email : String
  amountMinorUnits : ℤ
  deriving DecidableEq

/-- `CreateSettlementInput`. -/
structure CreateSettlementInput where
  groupId : Id
  payerId : Id
  payeeId : Id
  amountMinorUnits : ℤ
  deriving DecidableEq

/-- `createSettlementBodySchema`. -/
def CreateSettlementInput.Accepted (input : CreateSettlementInput) : Prop :=
  SafeAmount input.amountMinorUnits

instance : DecidablePred CreateSettlementInput.Accepted := fun input =>
  inferInstanceAs (Decidable (SafeAmount input.amountMinorUnits))

/-- `SettlementDto` has the fields of `SettlementRecord`, with the amount as a number. -/
abbrev SettlementDto : Type := SettlementRecord

/-- `SettlementListPage`. -/
structure SettlementListPage where
  settlements : List SettlementDto
  pagination : Option Pagination
  deriving DecidableEq

namespace SettlementService

/-- "Group not found." -/
def groupNotFound : Err := notFoundError .groupNotFound "Group not found."

/-- "Settlement not found." -/
def settlementNotFound : Err := notFoundError .settlementNotFound "Settlement not found."

/-- "You are not a member of this group." -/
def notGroupMember : Err :=
  forbiddenError .notGroupMember "You are not a member of this group."

/-- `toDto`. -/
def toDto (s : SettlementRecord) : SettlementDto :=
  { s with amountMinorUnits := Js.number s.amountMinorUnits }

/-- `assertMemberOfGroup`. -/
def assertMemberOfGroup (requesterId groupId : Id) : Act Unit := do
  let members ← SettlementRepository.findGroupMembers groupId
  ensure (requesterId ∈ members.map (·.userId)) notGroupMember

/-- The list that `getGroupBalances` returns. -/
def balanceDtos (members : List MemberWithUser) (balances : Js.Map Id ℤ) : List BalanceDto :=
  members.map fun member =>
    ⟨member.userId, member.user.name, member.user.email,
      Js.number ((balances.get? member.userId).getD 0)⟩

/-- `getGroupBalances`. -/
def getGroupBalances (requesterId groupId : Id) : Act (List BalanceDto) := do
  let group ← SettlementRepository.findGroupById groupId
  let _ ← expect group groupNotFound
  let members ← SettlementRepository.findGroupMembers groupId
  ensure (requesterId ∈ members.map (·.userId)) notGroupMember
  let expenses ← SettlementRepository.findExpensesForBalances groupId
  let settlements ← SettlementRepository.findSettlementsForBalances groupId
  return balanceDtos members (calculateBalances expenses settlements)

/-- `createSettlement`. -/
def createSettlement (env : Env) (requesterId : Id) (input : CreateSettlementInput)
    (idempotency : IdempotencyContext) : Act SettlementDto := do
  let group ← SettlementRepository.findGroupById input.groupId
  let _ ← expect group groupNotFound
  let members ← SettlementRepository.findGroupMembers input.groupId
  let memberIds := members.map (·.userId)
  ensure (requesterId ∈ memberIds) notGroupMember
  ensure (input.payerId ≠ input.payeeId)
    (badRequestError .settlementUsersMustDiffer
      "The settlement sender and receiver must be different users.")
  ensure (input.payerId ∈ memberIds)
    (forbiddenError .settlementPayerNotGroupMember
      "The settlement sender must be a member of the group.")
  ensure (input.payeeId ∈ memberIds)
    (forbiddenError .settlementPayeeNotGroupMember
      "The settlement receiver must be a member of the group.")
  let record : Act SettlementDto := do
    let settlement ← DistributedLock.withLock env (.lockSettlementGroup input.groupId) do
      let settledAt ← newDate
      SettlementRepository.createSettlement
        { groupId := input.groupId, payerId := input.payerId, payeeId := input.payeeId,
          amountMinorUnits := input.amountMinorUnits, currencyCode := "PKR", settledAt }
        idempotency
        { userId := requesterId, type := .settlementAdded, message := "recorded a settlement" }
    increment .settlementsCreatedTotal
    return toDto settlement
  record.tryCatch fun error =>
    if error = .lockConflict then
      .throw (conflictError .settlementConcurrentLocked
        "Another settlement for this group is being processed. Please retry shortly.")
    else .throw error

/-- `getGroupSettlements`. -/
def getGroupSettlements (requesterId groupId : Id) (pagination : Option (ℕ × ℕ)) :
    Act SettlementListPage := do
  let group ← SettlementRepository.findGroupById groupId
  let _ ← expect group groupNotFound
  assertMemberOfGroup requesterId groupId
  let (settlements, total) ← SettlementRepository.findSettlementsByGroupId groupId pagination
  let list := settlements.map toDto
  match pagination with
  | some (page, limit) => return ⟨list, some ⟨page, limit, total.getD 0⟩⟩
  | none => return ⟨list, none⟩

/-- `getSettlementById`. -/
def getSettlementById (requesterId settlementId : Id) : Act SettlementDto := do
  let settlement ← SettlementRepository.findSettlementById settlementId
  let settlement ← expect settlement settlementNotFound
  assertMemberOfGroup requesterId settlement.groupId
  return toDto settlement

end SettlementService

end SplitBill
