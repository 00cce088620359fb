import SplitBill.Summary.Service

/-!
# The worker

`processType` of `src/queues/workerRunner.ts`, with the registration of
`src/modules/summary/summary.jobs.ts`: one poll of the queue for one job type, which processes at
most one job. The poll loop calls it over and over.
-/

namespace SplitBill

open Interleave

/-- `JobRegistration`: the schema's `safeParse`, and the handler. -/
structure JobRegistration where
  schema : Json → Option Json
  process : JobEnvelope → Act Unit

/-- `trim().min(1)` of a text. -/
def Text.trimmed : Text → Option Text
  | lit s =>
    let chars := ((s.toList.dropWhile Char.isWhitespace).reverse.dropWhile Char.isWhitespace).reverse
    if chars = [] then none else some (lit (String.ofList chars))
  | t => some t

/-- `groupSummaryPayloadSchema`. -/
def groupSummaryPayloadSchema (payload : Json) : Option Json :=
  match payload with
  | .obj fields =>
    if fields.all (·.1 = "groupId") then
      match payload.get? "groupId" with
      | some (.str t) => t.trimmed.map fun t => .obj [("groupId", .str t)]
      | _ => none
    else none
  | _ => none

/-- The group id of a payload that the schema admitted. -/
def payloadGroupId (lib : Lib) (payload : Json) : Id :=
  match payload.get? "groupId" with
  | some (.str (.id n)) => n
  | some (.str t) => lib.identifier t
  | _ => lib.identifier (.lit "")

/-- `processGroupSummaryRecomputeJob`. -/
def processGroupSummaryRecomputeJob (lib : Lib) (order : List Aggregate)
    (envelope : JobEnvelope) : Act Unit := do
  let groupId := payloadGroupId lib envelope.payload
  match ← (SummaryService.recomputeGroupSummary order groupId).attempt with
  | .ok _ => return ()
  | .error error =>
    match error with
    | .app ⟨404, .groupNotFound, _⟩ =>
      throw (.permanentJobFailure ("Group \"" ++ lib.characters (.id groupId) ++
        "\" no longer exists; recompute is impossible."))
    | error => throw error

/-- `groupSummaryRegistration`. -/
def groupSummaryRegistration (lib : Lib) (order : List Aggregate) : JobRegistration where
  schema := groupSummaryPayloadSchema
  process := processGroupSummaryRecomputeJob lib order

/-- `jobRegistry`. -/
def jobRegistry (lib : Lib) (order : List Aggregate) : JobType → JobRegistration
  | .groupSummaryRecompute => groupSummaryRegistration lib order

namespace WorkerRunner

/-- The body of the `try` of `processType`. -/
def runJob (registration : JobRegistration) (type : JobType) (jobId : Id)
    (envelope : JobEnvelope) : Act Unit := do
  match registration.schema envelope.payload with
  | none =>
    JobQueue.discard type jobId
    increment (.backgroundJobsDiscardedTotal type)
  | some payload =>
    Op.perform (.process type jobId)
    let outcome ← (registration.process { envelope with payload }).attempt
    Op.perform (.processed type jobId envelope.attempts outcome)
    Prog.ofExcept outcome
    JobQueue.complete type jobId
    increment (.backgroundJobsSucceededTotal type)

/-- The `catch` of `processType`. -/
def handleFailure (env : Env) (type : JobType) (jobId : Id) (envelope : JobEnvelope)
    (error : Err) : Act Unit := do
  let giveUp : Act Unit := do
    JobQueue.discard type jobId
    increment (.backgroundJobsFailedTotal type)
    increment (.backgroundJobsDiscardedTotal type)
  match error with
  | .permanentJobFailure _ => giveUp
  | _ =>
    let attemptsAfterThisFailure := envelope.attempts + 1
    if env.jobQueueMaxAttempts ≤ attemptsAfterThisFailure then giveUp
    else
      let delayMs :=
        JobQueue.backoffFor env attemptsAfterThisFailure (Nat.succ_pos envelope.attempts)
      JobQueue.retryAfterFailure env type jobId attemptsAfterThisFailure delayMs
      increment (.backgroundJobsFailedTotal type)
      increment (.backgroundJobsRetriedTotal type)

/-- `processType`. -/
def processType (env : Env) (registry : JobType → JobRegistration) (type : JobType) :
    Act Unit := do
  match ← JobQueue.claimNext env type with
  | .empty => return ()
  | .busy => return ()
  | .malformed _ => return ()
  | .claimed jobId envelope =>
    (runJob (registry type) type jobId envelope).tryCatch
      (handleFailure env type jobId envelope)

end WorkerRunner

end SplitBill
