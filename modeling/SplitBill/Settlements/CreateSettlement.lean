import SplitBill.Backend

/-!
# Creating a settlement once

`SettlementRepository.createSettlement` and `replaySettlement` of
`src/modules/settlements/settlement.repository.ts`. The transaction reads the record of its key
without a lock and compares it with the clock; if the request is to go on, the statements of
`claimAndSettle` are committed together. The unique constraint on the key decides between two
requests that both went on, and the one that lost looks at the record again, outside its
transaction.
-/

namespace SplitBill

open Interleave
open Prisma (SettlementCreateData)
open Prog (expect)

namespace SettlementRepository

/-- `findGroupById`. -/
def findGroupById (id : Id) : Act (Option Group) :=
  Op.perform (.db (.settlement (.findGroupById id)))

/-- `findGroupMembers`. -/
def findGroupMembers (groupId : Id) : Act (List MemberWithUser) :=
  Op.perform (.db (.settlement (.findGroupMembers groupId)))

/-- `findExpensesForBalances`. -/
def findExpensesForBalances (groupId : Id) : Act (List ExpenseForBalance) :=
  Op.perform (.db (.settlement (.findExpensesForBalances groupId)))

/-- `findSettlementsForBalances`. -/
def findSettlementsForBalances (groupId : Id) : Act (List SettlementForBalance) :=
  Op.perform (.db (.settlement (.findSettlementsForBalances groupId)))

/-- `idempotencyRecord.findUnique`. -/
def findIdempotencyRecord (key : String) : Act (Option IdempotencyRecord) :=
  Op.perform (.db (.settlement (.findIdempotencyRecord key)))

/-- The statements of `createSettlement` from the deletion of an expired record on. -/
def claimAndSettle (existing : Option Id) (data : SettlementCreateData)
    (idempotency : IdempotencyContext) (activity : ActivityEventInput) (expiresAt : Time) :
    Act SettlementRecord :=
  Op.perform (.db (.settlement (.claimAndSettle existing data idempotency activity expiresAt)))

/-- `findSettlementById`. -/
def findSettlementById (id : Id) : Act (Option SettlementRecord) :=
  Op.perform (.db (.settlement (.findSettlementById id)))

/-- `findSettlementsByGroupId`, with the total when a page is asked for. -/
def findSettlementsByGroupId (groupId : Id) :
    Option (ℕ × ℕ) → Act (List SettlementRecord × Option ℕ)
  | none => do
    let settlements ← Op.perform (.db (.settlement (.findMany groupId none)))
    return (settlements, none)
  | some pagination => do
    let (settlements, total) ← promiseAll
      (Op.perform (.db (.settlement (.findMany groupId (some pagination)))))
      (Op.perform (.db (.settlement (.count groupId))))
    return (settlements, some total)

/-- The queries of `findSettlementsByGroupId`. -/
theorem issues_findSettlementsByGroupId {P : Op → Prop} {groupId : Id}
    {pagination : Option (ℕ × ℕ)} (hmany : P (.db (.settlement (.findMany groupId pagination))))
    (hcount : P (.db (.settlement (.count groupId)))) (hrace : P .race) :
    (findSettlementsByGroupId groupId pagination).Issues P := by
  cases pagination with
  | none => exact .bind ((Prog.issues_perform _ _).mpr hmany) fun _ => trivial
  | some pagination =>
    exact .bind (issues_promiseAll ((Prog.issues_perform _ _).mpr hmany)
      ((Prog.issues_perform _ _).mpr hcount) hrace) fun _ => trivial

/-- `replaySettlement`. -/
def replaySettlement (record : IdempotencyRecord) : Act SettlementRecord := do
  let resourceId ← expect record.resourceId
    (conflictError .idempotencyInvalidState "The idempotency record is in an unexpected state.")
  let settlement ← findSettlementById resourceId
  expect settlement (conflictError .idempotencyInvalidState
    "The cached resource for this Idempotency-Key no longer exists.")

/-- The end of the transaction of `createSettlement`, for a request that goes on. -/
def settle (existing : Option Id) (data : SettlementCreateData) (idempotency : IdempotencyContext)
    (activity : ActivityEventInput) : Act SettlementRecord := do
  let now ← newDate
  claimAndSettle existing data idempotency activity (now + idempotencyRecordTtlMs)

/-- The transaction of `createSettlement`. -/
def settleOnce (data : SettlementCreateData) (idempotency : IdempotencyContext)
    (activity : ActivityEventInput) : Act SettlementRecord := do
  match ← findIdempotencyRecord idempotency.key with
  | none => settle none data idempotency activity
  | some existing =>
    let now ← newDate
    match ← Prog.ofExcept (reconcileIdempotencyRecord existing idempotency now) with
    | .replay => replaySettlement existing
    | .reuse => settle (some existing.id) data idempotency activity

/-- What `createSettlement` does when another request claimed the key first. -/
def settleClash (idempotency : IdempotencyContext) : Act SettlementRecord := do
  let conflict : Err := conflictError .idempotencyConflict
    "A request with this Idempotency-Key is already being processed."
  match ← findIdempotencyRecord idempotency.key with
  | none => throw conflict
  | some existing =>
    let now ← newDate
    match ← Prog.ofExcept (reconcileIdempotencyRecord existing idempotency now) with
    | .replay => replaySettlement existing
    | .reuse => throw conflict

/-- `createSettlement`. -/
def createSettlement (data : SettlementCreateData) (idempotency : IdempotencyContext)
    (activity : ActivityEventInput) : Act SettlementRecord :=
  (settleOnce data idempotency activity).tryCatch fun error =>
    if error = .prisma .uniqueConstraint then settleClash idempotency else .throw error

section Issues

variable {P : DbOp → Prop} {data : SettlementCreateData} {idempotency : IdempotencyContext}
  {activity : ActivityEventInput}

/-- A replay asks for the settlement by its id. -/
theorem issues_replaySettlement (hfind : ∀ id, P (.settlement (.findSettlementById id)))
    (record : IdempotencyRecord) : (replaySettlement record).Issues (Op.OnDb P) := by
  unfold replaySettlement
  refine .bind (Prog.issues_expect _ _ _) fun id => ?_
  refine .bind (issues_op (hfind _)) fun settlement => ?_
  exact Prog.issues_expect _ _ _

/-- The only transaction of `createSettlement` is the one that claims the key and settles. -/
theorem issues_createSettlement (hrecord : ∀ key, P (.settlement (.findIdempotencyRecord key)))
    (hfind : ∀ id, P (.settlement (.findSettlementById id)))
    (hclaim : ∀ existing expiresAt, P (.settlement
      (.claimAndSettle existing data idempotency activity expiresAt))) :
    (createSettlement data idempotency activity).Issues (Op.OnDb P) := by
  have hsettle : ∀ existing, (settle existing data idempotency activity).Issues (Op.OnDb P) :=
    fun existing => .bind (issues_op trivial) fun now => issues_op (hclaim existing _)
  refine .tryCatch ?_ fun e => ?_
  -- The record of the key is looked up before anything is claimed.
  · unfold settleOnce
    refine .bind (issues_op (hrecord _)) fun existing => ?_
    cases existing with
    | none => exact hsettle none
    | some existing =>
      refine .bind (issues_op trivial) fun now => .bind (Prog.issues_ofExcept _ _) fun r => ?_
      cases r
      · exact issues_replaySettlement hfind existing
      · exact hsettle (some existing.id)
  · split
    · unfold settleClash
      refine .bind (issues_op (hrecord _)) fun existing => ?_
      cases existing with
      | none => trivial
      | some existing =>
        refine .bind (issues_op trivial) fun now => .bind (Prog.issues_ofExcept _ _) fun r => ?_
        cases r
        · exact issues_replaySettlement hfind existing
        · trivial
    · trivial

end Issues

end SettlementRepository

end SplitBill
