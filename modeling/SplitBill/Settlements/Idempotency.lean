import SplitBill.Prisma

/-!
# Idempotency records

`src/modules/idempotency/reconcile.ts` and the constant of `idempotency.constants.ts`: what a
request may do when its key already has a record.
-/

namespace SplitBill

/-- `IDEMPOTENCY_RECORD_TTL_MS`. -/
def idempotencyRecordTtlMs : ℕ := 24 * 60 * 60 * 1000

/-- `IdempotencyContext`. -/
structure IdempotencyContext where
  key : String
  userId : Id
  requestHash : String
  deriving DecidableEq

/-- `ReconcileResult`. -/
inductive ReconcileResult
  | replay
  | reuse
  deriving DecidableEq

/-- `reconcileIdempotencyRecord`. -/
def reconcileIdempotencyRecord (record : IdempotencyRecord) (context : IdempotencyContext)
    (now : Time) : Except Err ReconcileResult :=
  if record.userId ≠ context.userId then
    .error (conflictError .idempotencyKeyReused
      "This Idempotency-Key was already used by a different user.")
  else if record.expiresAt ≤ now then .ok .reuse
  else if record.requestHash ≠ context.requestHash then
    .error (conflictError .idempotencyKeyReused
      "This Idempotency-Key was already used with a different request body.")
  else if record.status = .completed ∧ record.resourceId.isSome then .ok .replay
  else if record.status = .completed then
    .error (conflictError .idempotencyInvalidState
      "The idempotency record is in an unexpected state.")
  else
    .error (conflictError .idempotencyConflict
      "A request with this Idempotency-Key is already being processed.")

/-- A record is replayed only for the same request of the same user, before it expires, and when it
is completed. -/
theorem reconcile_eq_replay {record : IdempotencyRecord} {context : IdempotencyContext}
    {now : Time} :
    reconcileIdempotencyRecord record context now = .ok .replay ↔
      record.userId = context.userId ∧ now < record.expiresAt ∧
        record.requestHash = context.requestHash ∧ record.status = .completed ∧
        record.resourceId.isSome := by
  unfold reconcileIdempotencyRecord
  rw [← not_le]
  by_cases hu : record.userId = context.userId <;>
    by_cases he : record.expiresAt ≤ now <;>
    by_cases hh : record.requestHash = context.requestHash <;>
    by_cases hs : record.status = .completed <;>
    by_cases hr : record.resourceId.isSome = true <;>
    simp [hu, he, hh, hs, hr]

/-- A record is reused only by the same user, and only once it has expired. -/
theorem reconcile_eq_reuse {record : IdempotencyRecord} {context : IdempotencyContext}
    {now : Time} :
    reconcileIdempotencyRecord record context now = .ok .reuse ↔
      record.userId = context.userId ∧ record.expiresAt ≤ now := by
  unfold reconcileIdempotencyRecord
  by_cases hu : record.userId = context.userId <;>
    by_cases he : record.expiresAt ≤ now <;>
    by_cases hh : record.requestHash = context.requestHash <;>
    by_cases hs : record.status = .completed <;>
    by_cases hr : record.resourceId.isSome = true <;>
    simp [hu, he, hh, hs, hr]

/-- A record that stops a request does so with a conflict. -/
theorem reconcile_ne_uniqueConstraint {record : IdempotencyRecord} {context : IdempotencyContext}
    {now : Time} {e : Err} (h : reconcileIdempotencyRecord record context now = .error e) :
    e ≠ .prisma .uniqueConstraint := by
  rintro rfl
  unfold reconcileIdempotencyRecord at h
  split_ifs at h <;> cases h

end SplitBill
