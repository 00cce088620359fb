import SplitBill.Activity.Repository
import SplitBill.Settlements.Balance
import SplitBill.Settlements.Idempotency

/-!
# The settlement repository

`src/modules/settlements/settlement.repository.ts`. The transaction of `createSettlement` first
reads the record of its key, and what it does then depends on the clock as well, so the method is a
program over the operations of this module and stands in `Settlements/CreateSettlement.lean`. Here
are its reads and the statements that it commits together.
-/

namespace SplitBill

open Prisma

/-- The `GroupMemberUser` of this module. -/
structure MemberWithUser where
  userId : Id
  user : SafeUser
  deriving DecidableEq

/-- `SettlementRecord`: a settlement with its two users. -/
structure SettlementRecord where
  id : Id
  groupId : Id
  payerId : Id
  payeeId : Id
  amountMinorUnits : ℤ
  currencyCode : String
  settledAt : Time
  createdAt : Time
  updatedAt : Time
  payer : SafeUser
  payee : SafeUser
  deriving DecidableEq

/-- A settlement with the relations of `settlementInclude`. -/
def Settlement.record (db : Db) (s : Settlement) : SettlementRecord where
  id := s.id
  groupId := s.groupId
  payerId := s.payerId
  payeeId := s.payeeId
  amountMinorUnits := s.amountMinorUnits
  currencyCode := s.currencyCode
  settledAt := s.settledAt
  createdAt := s.createdAt
  updatedAt := s.updatedAt
  payer := db.safeUser s.payerId
  payee := db.safeUser s.payeeId

/-- The row of a settlement record. -/
def SettlementRecord.row (r : SettlementRecord) : Settlement where
  id := r.id
  groupId := r.groupId
  payerId := r.payerId
  payeeId := r.payeeId
  amountMinorUnits := r.amountMinorUnits
  currencyCode := r.currencyCode
  settledAt := r.settledAt
  createdAt := r.createdAt
  updatedAt := r.updatedAt

/-- A record keeps the row it was read from. -/
@[simp] theorem Settlement.row_record (db : Db) (s : Settlement) : (s.record db).row = s := rfl

/-- An expense as `findExpensesForBalances` selects it. -/
def Expense.forBalance (e : Expense) : ExpenseForBalance :=
  ⟨e.paidById, e.amountMinorUnits, e.splits.map fun s => ⟨s.userId, s.amountMinorUnits⟩⟩

/-- A settlement as `findSettlementsForBalances` selects it. -/
def Settlement.forBalance (s : Settlement) : SettlementForBalance :=
  ⟨s.payerId, s.payeeId, s.amountMinorUnits⟩

/-- The deletion of the expired record that a request found, if it found one. -/
def deleteExpired (existing : Option Id) : Tx Db Err Metric Unit :=
  match existing with
  | some id => Tx.statement (idempotencyRecordDeleteMany id)
  | none => pure ()

/-- What `createSettlement` commits: it deletes the expired record that it found, claims the key
with a pending record, creates the settlement and the event, and completes the record. -/
def claimAndSettle (now : Time) (existing : Option Id) (data : SettlementCreateData)
    (idempotency : IdempotencyContext) (activity : ActivityEventInput) (expiresAt : Time) :
    Tx Db Err Metric SettlementRecord := do
  deleteExpired existing
  let claim ← Tx.statement (idempotencyRecordCreate now
    { key := idempotency.key, userId := idempotency.userId, requestHash := idempotency.requestHash,
      status := .pending, operation := .settlementCreate, scope := some data.groupId, expiresAt })
  let settlement ← Tx.including (settlementCreate now data) Settlement.record
  let _ ← createActivityEvent now
    { groupId := settlement.groupId, userId := activity.userId, type := activity.type,
      message := activity.message, amountMinorUnits := some settlement.amountMinorUnits,
      currencyCode := some settlement.currencyCode, occurredAt := settlement.createdAt }
  Tx.statement (idempotencyRecordUpdate claim.id .completed settlement.id)
  return settlement

/-- The records that are left when the expired one that a request found is deleted. -/
def recordsWithout (existing : Option Id) (db : Db) : List IdempotencyRecord :=
  db.idempotencyRecords.filter fun r => existing ≠ some r.id

/-- The expired record of the key is deleted. -/
theorem eval_deleteExpired (existing : Option Id) (db : Db) : (deleteExpired existing).eval db =
    .ok ((), { db with idempotencyRecords := recordsWithout existing db }) := by
  cases existing with
  | none => simp [deleteExpired, recordsWithout]
  | some id => simp [deleteExpired, idempotencyRecordDeleteMany, recordsWithout, eq_comm]

/-- The record that a request leaves for its key. -/
def completedRecord (db : Db) (now : Time) (data : SettlementCreateData)
    (idempotency : IdempotencyContext) (expiresAt : Time) : IdempotencyRecord where
  id := db.nextId
  key := idempotency.key
  userId := idempotency.userId
  requestHash := idempotency.requestHash
  status := .completed
  operation := .settlementCreate
  scope := some data.groupId
  resourceId := some (db.nextId + 1)
  createdAt := now
  expiresAt := expiresAt

/-- The settlement that a request creates. -/
def newSettlement (db : Db) (now : Time) (data : SettlementCreateData) : Settlement where
  id := db.nextId + 1
  groupId := data.groupId
  payerId := data.payerId
  payeeId := data.payeeId
  amountMinorUnits := data.amountMinorUnits
  currencyCode := data.currencyCode
  settledAt := data.settledAt
  createdAt := now
  updatedAt := now

/-- What `claimAndSettle` does when it is committed: no other record had the key, and the key has a
completed record for the new settlement. -/
theorem claimAndSettle_eq_ok {now : Time} {existing : Option Id} {data : SettlementCreateData}
    {idempotency : IdempotencyContext} {activity : ActivityEventInput} {expiresAt : Time}
    {db db' : Db} {s : SettlementRecord}
    (h : (claimAndSettle now existing data idempotency activity expiresAt).eval db = .ok (s, db')) :
    (∀ r ∈ recordsWithout existing db, r.key ≠ idempotency.key) ∧
    s.row = newSettlement db now data ∧
    ∃ (event : ActivityEvent) (records : List IdempotencyRecord),
      (event.Records data.groupId activity.type ∧ (db.group? data.groupId).isSome) ∧
      ((∀ r ∈ db.idempotencyRecords, r.id < db.nextId) → records =
        completedRecord db now data idempotency expiresAt :: recordsWithout existing db) ∧
      db' = { db with
        idempotencyRecords := records
        settlements := newSettlement db now data :: db.settlements
        activityEvents := event :: db.activityEvents
        nextId := db.nextId + 3 } := by
  unfold claimAndSettle at h
  obtain ⟨_, db₀, hdelete, h⟩ := Tx.eval_bind_eq_ok.mp h
  rw [eval_deleteExpired] at hdelete
  obtain ⟨-, rfl⟩ := Prod.mk.inj (Except.ok.inj hdelete)
  obtain ⟨claim, db₁, hclaim, h⟩ := Tx.eval_bind_eq_ok.mp h
  obtain ⟨hkey, rfl, rfl⟩ := idempotencyRecordCreate_eq_ok hclaim
  obtain ⟨s₁, db₂, hsettle, h⟩ := Tx.eval_bind_eq_ok.mp h
  obtain ⟨_, db₃, hevent, h⟩ := Tx.eval_bind_eq_ok.mp h
  obtain ⟨_, db₄, hupdate, h⟩ := Tx.eval_bind_eq_ok.mp h
  simp only [Tx.eval_pure, Except.ok.injEq, Prod.mk.injEq] at h
  obtain ⟨rfl, rfl⟩ := h
  obtain ⟨event, hgroup, rfl⟩ := createActivityEvent_eq_ok hevent
  obtain ⟨s₂, hs₂, rfl⟩ := Tx.eval_including_eq_ok.mp hsettle
  obtain ⟨⟨hg, -⟩, rfl, rfl⟩ := settlementCreate_eq_ok hs₂
  simp only [Tx.eval_statement, idempotencyRecordUpdate, ite_error_eq_ok, Except.ok.injEq,
    Prod.mk.injEq, true_and] at hupdate
  obtain ⟨-, rfl⟩ := hupdate
  refine ⟨hkey, rfl, event, _, ⟨hgroup, hg⟩, fun hlt => ?_, rfl⟩
  -- Only the new record has the id of the claim.
  have hids : ∀ r ∈ recordsWithout existing db, decide (r.id = db.nextId) = false := fun r hr =>
    decide_eq_false (hlt r (List.mem_of_mem_filter hr)).ne
  rw [updateWhere_cons]
  · rfl
  · exact decide_eq_true rfl
  · exact hids

/-- `settlement.findMany` of `findSettlementsByGroupId`, newest first. -/
def settlementFindMany (c : Choice) (db : Db) (groupId : Id)
    (pagination : Option (ℕ × ℕ)) : List SettlementRecord :=
  let settlements := db.settlementsOf groupId
  match pagination with
  | none =>
    (c.arrange (·.id) (fun a b => b.settledAt < a.settledAt) settlements).map (·.record db)
  | some (page, limit) =>
    let sorted := c.arrange (·.id)
      (fun a b => b.settledAt < a.settledAt ∨ a.settledAt = b.settledAt ∧ a.id < b.id) settlements
    ((sorted.drop ((page - 1) * limit)).take limit).map (·.record db)

/-- The operations of `SettlementRepository`, with the two queries of `findSettlementsByGroupId`. -/
inductive SettlementOp
  | findGroupById (id : Id)
  | findGroupMembers (groupId : Id)
  | findExpensesForBalances (groupId : Id)
  | findSettlementsForBalances (groupId : Id)
  | findIdempotencyRecord (key : String)
  | claimAndSettle (existing : Option Id) (data : SettlementCreateData)
      (idempotency : IdempotencyContext) (activity : ActivityEventInput) (expiresAt : Time)
  | findSettlementById (id : Id)
  | findMany (groupId : Id) (pagination : Option (ℕ × ℕ))
  | count (groupId : Id)

namespace SettlementOp

/-- What an operation answers. -/
abbrev Res : SettlementOp → Type
  | findGroupById _ => Option Group
  | findGroupMembers _ => List MemberWithUser
  | findExpensesForBalances _ => List ExpenseForBalance
  | findSettlementsForBalances _ => List SettlementForBalance
  | findIdempotencyRecord _ => Option IdempotencyRecord
  | claimAndSettle _ _ _ _ _ => SettlementRecord
  | findSettlementById _ => Option SettlementRecord
  | findMany _ _ => List SettlementRecord
  | count _ => ℕ

/-- What an operation does. -/
def access : (o : SettlementOp) → Access o.Res
  | findGroupById id => .read fun _ db => db.group? id
  | findGroupMembers groupId => .read fun c db =>
    (c.arrange (·.id) (fun a b => a.createdAt < b.createdAt) (db.membersOf groupId)).map fun m =>
      ⟨m.userId, db.safeUser m.userId⟩
  | findExpensesForBalances groupId => .read fun c db =>
    (c.arrange (·.id) unordered (db.expensesOf groupId)).map (·.forBalance)
  | findSettlementsForBalances groupId => .read fun c db =>
    (c.arrange (·.id) unordered (db.settlementsOf groupId)).map (·.forBalance)
  | findIdempotencyRecord key => .read fun _ db => db.idempotencyRecords.find? (·.key = key)
  | claimAndSettle existing data idempotency activity expiresAt =>
    .write fun _ now => SplitBill.claimAndSettle now existing data idempotency activity expiresAt
  | findSettlementById id => .read fun _ db => (db.settlement? id).map (·.record db)
  | findMany groupId pagination => .read fun c db => settlementFindMany c db groupId pagination
  | count groupId => .read fun _ db => (db.settlementsOf groupId).length

end SettlementOp

end SplitBill
