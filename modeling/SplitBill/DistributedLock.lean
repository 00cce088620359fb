import SplitBill.Backend

/-!
# The distributed lock

`src/redis/distributedLock.ts`. A lock is a key with a random token and a time to live. When Redis
fails, the operation runs without the lock; when another process holds it, it does not run.
-/

namespace SplitBill

open Interleave

namespace DistributedLock

/-- `acquire`. -/
def acquire (env : Env) (key : Key) : Act (Option Id) := do
  let token ← randomId
  let ok : Bool ←
    Op.perform (.redis .distributedLock (.setNx key (.token token) env.distributedLockTtlMs))
  return if ok then some token else none

/-- `release`. -/
def release (key : Key) (token : Id) : Act Bool :=
  Op.perform (.redis .distributedLock (.delIfEq key (.token token)))

/-- `withLock`. -/
def withLock {α : Type} (env : Env) (key : Key) (operation : Act α) : Act α := do
  match ← (acquire env key).attempt with
  | .error _ => operation
  | .ok none => throw .lockConflict
  | .ok (some token) =>
    let outcome ← operation.attempt
    let _ ← (release key token).attempt
    Prog.ofExcept outcome

/-- A lock adds nothing on the database to the operation that it guards. -/
theorem issues_withLock {α : Type} {P : DbOp → Prop} {env : Env} {key : Key} {operation : Act α}
    (h : operation.Issues (Op.OnDb P)) : (withLock env key operation).Issues (Op.OnDb P) := by
  unfold withLock acquire release
  refine .bind (.attempt (.bind (issues_op trivial) fun token => ?_)) fun r => ?_
  · exact .bind (issues_op trivial) fun ok => trivial
  · rcases r with e | _ | token
    · exact h
    · trivial
    · refine .bind h.attempt fun outcome => .bind (.attempt (issues_op trivial)) fun _ => ?_
      cases outcome <;> trivial

end DistributedLock

end SplitBill
