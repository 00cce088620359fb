import SplitBill.Backend

/-!
# The job queue

`src/queues/jobQueue.ts`. A job is a member of a sorted set, scored with the time of its next
attempt, with its payload under a key of its own. A worker that takes a job leases it with a random
token under a third key. The member stays in the set while the job runs, so that a job whose worker
crashed is due again when the lease has expired.
-/

namespace SplitBill

open Interleave

/-- The name of a job type. -/
def JobType.name : JobType → String
  | groupSummaryRecompute => "GROUP_SUMMARY_RECOMPUTE"

/-- A value with one property set. -/
def Json.set (j : Json) (key : String) (value : Json) : Json :=
  match j with
  | obj fields => obj (fields.filter (·.1 ≠ key) ++ [(key, value)])
  | j => j

/-- `JobEnvelope`: the stored object, with the properties that the worker reads from it. -/
structure JobEnvelope where
  object : Json
  payload : Json
  attempts : ℕ

/-- `ClaimResult`. -/
inductive ClaimResult
  | empty
  | busy
  | malformed (jobId : Id)
  | claimed (jobId : Id) (envelope : JobEnvelope)

namespace JobQueue

/-- `backoffFor`, of at least one attempt: so the power is a whole number. -/
def backoffFor (env : Env) (attempts : ℕ) (_ : 0 < attempts) : ℕ :=
  min env.jobQueueMaxBackoffMs (env.jobQueueBaseBackoffMs * 2 ^ (attempts - 1))

/-- A property that holds an object or an array. -/
def isObject : Json → Bool
  | .obj _ => true
  | .arr _ => true
  | _ => false

/-- The non-negative integer that a number is. -/
def natural? : Json → Option ℕ
  | .num q => if q.den = 1 ∧ 0 ≤ q.num then some q.num.toNat else none
  | _ => none

/-- A property that holds a string. -/
def isString : Json → Bool
  | .str _ => true
  | _ => false

/-- `parseEnvelope`. -/
def parseEnvelope (raw : Stored) (expectedType : JobType) (jobId : Id) : Option JobEnvelope := do
  let candidate ← raw.parse
  guard ((← candidate.get? "jobId") == .str (.id jobId))
  guard ((← candidate.get? "type") == .str (.lit expectedType.name))
  guard (isString (← candidate.get? "createdAt"))
  let payload ← candidate.get? "payload"
  guard (isObject payload)
  let attempts ← natural? (← candidate.get? "attempts")
  return ⟨candidate, payload, attempts⟩

/-- A Redis command of one of the queue's methods. -/
abbrev command (caller : Caller) (c : Command Key Stored) : Act c.Res :=
  Op.perform (.redis caller c)

/-- `enqueue`. -/
def enqueue (env : Env) (type : JobType) (payload : Json) (requestId : Option String)
    (scheduledFor : Option Time) : Act Id := do
  let jobId ← randomId
  let createdAt ← newDate
  let envelope : Json := .obj ([
    ("jobId", .str (.id jobId)),
    ("type", .str (.lit type.name)),
    ("payload", payload),
    ("attempts", .num 0),
    ("createdAt", .str (.iso createdAt))] ++
    (requestId.map fun r => ("requestId", .str (.lit r))).toList)
  command .enqueue (.set (.jobData jobId) (.json envelope) env.jobQueuePayloadTtlMs)
  let score ← dateOrNow scheduledFor
  let _ ← command .enqueue (.zadd (.jobQueue type) score jobId)
  return jobId

/-- The commands of `complete` and of `discard`, which are the same. -/
def remove (caller : Caller) (type : JobType) (jobId : Id) : Act Unit := do
  let _ ← command caller (.zrem (.jobQueue type) jobId)
  let _ ← command caller (.del [.jobData jobId, .jobInflight jobId])
  return ()

/-- `complete`. -/
def complete (type : JobType) (jobId : Id) : Act Unit := remove .complete type jobId

/-- `discard`. -/
def discard (type : JobType) (jobId : Id) : Act Unit := remove .discard type jobId

/-- `dueJobId`. -/
def dueJobId (type : JobType) : Act (Option Id) := do
  let now ← newDate
  command .claimNext (.firstDue (.jobQueue type) now)

/-- `claimNext`. -/
def claimNext (env : Env) (type : JobType) : Act ClaimResult := do
  match ← dueJobId type with
  | none => return .empty
  | some jobId =>
    let leaseToken ← randomId
    let lease : Bool ← command .claimNext
      (.setNx (.jobInflight jobId) (.token leaseToken) env.jobQueueLeaseMs)
    if lease then
      let raw : Option Stored ← command .claimNext (.get (.jobData jobId))
      match raw.bind (parseEnvelope · type jobId) with
      | none =>
        discard type jobId
        return .malformed jobId
      | some envelope => return .claimed jobId envelope
    else return .busy

/-- `retryAfterFailure`. -/
def retryAfterFailure (env : Env) (type : JobType) (jobId : Id) (attempts delayMs : ℕ) :
    Act Unit := do
  let raw : Option Stored ← command .retryAfterFailure (.get (.jobData jobId))
  match raw.bind (parseEnvelope · type jobId) with
  | none =>
    let _ ← command .retryAfterFailure (.zrem (.jobQueue type) jobId)
    let _ ← command .retryAfterFailure (.del [.jobInflight jobId])
    return ()
  | some envelope =>
    let updated := Stored.json (envelope.object.set "attempts" (.num attempts))
    command .retryAfterFailure (.set (.jobData jobId) updated env.jobQueuePayloadTtlMs)
    let now ← newDate
    let _ ← command .retryAfterFailure (.zadd (.jobQueue type) (now + delayMs) jobId)
    let _ ← command .retryAfterFailure (.del [.jobInflight jobId])
    return ()

/-! ## What `parseEnvelope` accepts -/

variable {type : JobType} {jobId : Id}

/-- The properties that `parseEnvelope` checks. -/
structure Wellformed (type : JobType) (jobId : Id) (envelope : JobEnvelope) : Prop where
  id : envelope.object.get? "jobId" = some (.str (.id jobId))
  type : envelope.object.get? "type" = some (.str (.lit type.name))
  createdAt : ∃ created, envelope.object.get? "createdAt" = some created ∧ isString created = true
  payload : envelope.object.get? "payload" = some envelope.payload
  object : isObject envelope.payload = true
  attempts : ∃ n, envelope.object.get? "attempts" = some n ∧ natural? n = some envelope.attempts

/-- An envelope is read where the payload is an object with all its fields well formed. -/
theorem parseEnvelope_eq_some {raw : Stored} {envelope : JobEnvelope} :
    parseEnvelope raw type jobId = some envelope ↔
      raw.parse = some envelope.object ∧ Wellformed type jobId envelope := by
  simp only [parseEnvelope, Option.bind_eq_bind, Option.bind_eq_some_iff, guard, Option.pure_def,
    Option.failure_eq_none, Option.ite_none_right_eq_some, Json.beq_str, Option.some.injEq,
    and_true, exists_const]
  constructor
  · rintro ⟨candidate, hraw, _, hid, rfl, _, htype, rfl, created, hcreated, hstr, payload, hpayload,
      hobject, attempts, hattempts, n, hn, rfl⟩
    exact ⟨hraw, hid, htype, ⟨created, hcreated, hstr⟩, hpayload, hobject, attempts, hattempts, hn⟩
  · rintro ⟨hraw, hid, htype, ⟨created, hcreated, hstr⟩, hpayload, hobject, attempts, hattempts, hn⟩
    exact ⟨_, hraw, _, hid, rfl, _, htype, rfl, created, hcreated, hstr, _, hpayload, hobject,
      attempts, hattempts, _, hn, rfl⟩

/-- Setting one property leaves the others. -/
theorem get?_set_of_ne {j : Json} {key key' : String} (hne : key' ≠ key) (value : Json) :
    (j.set key value).get? key' = j.get? key' := by
  cases j with
  | obj fields =>
    simp only [Json.set, Json.get?, List.reverse_append, List.reverse_singleton,
      List.singleton_append, ← List.filter_reverse]
    rw [List.find?_cons_of_neg (by simpa using hne.symm)]
    congr 1
    rw [List.find?_filter]
    congr 1
    funext x
    by_cases hx : x.1 = key'
    · simp [hx, hne]
    · simp [hx]
  | _ => rfl

/-- The property that was set. -/
theorem get?_set_self {fields : List (String × Json)} {key : String} {value : Json} :
    ((Json.obj fields).set key value).get? key = some value := by
  simp [Json.set, Json.get?]

/-- A retry stores an envelope that `parseEnvelope` accepts, with the new count. -/
theorem parseEnvelope_set {raw : Stored} {envelope : JobEnvelope}
    (h : parseEnvelope raw type jobId = some envelope) (attempts : ℕ) :
    parseEnvelope (.json (envelope.object.set "attempts" (.num attempts))) type jobId =
      some ⟨envelope.object.set "attempts" (.num attempts), envelope.payload, attempts⟩ := by
  obtain ⟨-, hid, htype, ⟨created, hcreated, hstr⟩, hpayload, hobject, -⟩ :=
    parseEnvelope_eq_some.mp h
  obtain ⟨fields, hfields⟩ : ∃ fields, envelope.object = .obj fields := by
    cases hj : envelope.object with
    | obj fields => exact ⟨fields, rfl⟩
    | _ =>
      rw [hj] at hid
      cases hid
  rw [hfields] at hid htype hcreated hpayload ⊢
  refine parseEnvelope_eq_some.mpr ⟨rfl, ?_, ?_,
    ⟨created, ?_, hstr⟩, ?_, hobject, _, get?_set_self, ?_⟩
  · rwa [get?_set_of_ne (by decide)]
  · rwa [get?_set_of_ne (by decide)]
  · rwa [get?_set_of_ne (by decide)]
  · rwa [get?_set_of_ne (by decide)]
  · simp [natural?]

/-- `enqueue` stores an envelope that `parseEnvelope` accepts, without attempts. -/
theorem parseEnvelope_enqueue {payload : Json} (hpayload : isObject payload = true)
    (createdAt : Time) (requestId : Option String) :
    ∃ envelope, parseEnvelope (.json (.obj ([
      ("jobId", .str (.id jobId)),
      ("type", .str (.lit type.name)),
      ("payload", payload),
      ("attempts", .num 0),
      ("createdAt", .str (.iso createdAt))] ++
      (requestId.map fun r => ("requestId", .str (.lit r))).toList))) type jobId = some envelope ∧
      envelope.payload = payload ∧ envelope.attempts = 0 := by
  refine ⟨⟨_, payload, 0⟩, parseEnvelope_eq_some.mpr ⟨rfl, ?_⟩, rfl, rfl⟩
  cases requestId with
  | none => exact ⟨rfl, rfl, ⟨_, rfl, rfl⟩, rfl, hpayload, _, rfl, rfl⟩
  | some r => exact ⟨rfl, rfl, ⟨_, rfl, rfl⟩, rfl, hpayload, _, rfl, rfl⟩

/-! ## The database -/

/-- The queue is not in the database. -/
theorem issues_enqueue (P : DbOp → Prop) (env : Env) (type : JobType) (payload : Json)
    (requestId : Option String) (scheduledFor : Option Time) :
    (enqueue env type payload requestId scheduledFor).Issues (Op.OnDb P) := by
  unfold enqueue
  refine .bind (issues_op trivial) fun jobId => .bind (issues_op trivial) fun createdAt => ?_
  refine .bind (issues_op trivial) fun _ => .bind ?_ fun score => ?_
  · cases scheduledFor
    · exact issues_op trivial
    · trivial
  · exact .bind (issues_op trivial) fun _ => trivial

end JobQueue

end SplitBill
