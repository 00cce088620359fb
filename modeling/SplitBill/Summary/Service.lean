import SplitBill.Js.Number
import SplitBill.Queues.JobQueue

/-!
# The summary service

`src/modules/summary/summary.service.ts`.
-/

namespace SplitBill

open Interleave
open Prog (ensure expect)

namespace SummaryRepository

/-- `findGroupById`. -/
def findGroupById (id : Id) : Act (Option Group) :=
  Op.perform (.db (.summary (.findGroupById id)))

/-- `isGroupMember`. -/
def isGroupMember (groupId userId : Id) : Act Bool :=
  Op.perform (.db (.summary (.isGroupMember groupId userId)))

/-- One query of `aggregateGroup`. -/
def aggregate (groupId : Id) (m : GroupSummaryMetrics) (query : Aggregate) :
    Act GroupSummaryMetrics :=
  Op.perform (.db (.summary (.aggregate groupId m query)))

/-- `aggregateGroup`, with the order in which the database answers the queries. -/
def aggregateGroup (order : List Aggregate) (groupId : Id) : Act GroupSummaryMetrics :=
  order.foldlM (aggregate groupId) {}

/-- `upsertSummary`. -/
def upsertSummary (groupId : Id) (m : GroupSummaryMetrics) (computedAt : Time) :
    Act GroupSummary :=
  Op.perform (.db (.summary (.upsertSummary groupId m computedAt)))

/-- `findSummaryByGroupId`. -/
def findSummaryByGroupId (groupId : Id) : Act (Option GroupSummary) :=
  Op.perform (.db (.summary (.findSummaryByGroupId groupId)))

end SummaryRepository

/-- `QueuedJobDto`. -/
structure QueuedJobDto where
  jobId : Id
  type : JobType
  deriving DecidableEq

namespace SummaryService

/-- "Group not found." -/
def groupNotFound : Err := notFoundError .groupNotFound "Group not found."

/-- "You are not a member of this group." -/
def notGroupMember : Err :=
  forbiddenError .notGroupMember "You are not a member of this group."

/-- `toDto`: the fields of the row, with the total as a number. -/
def toDto (s : GroupSummary) : GroupSummary :=
  { s with totalSpentMinorUnits := Js.number s.totalSpentMinorUnits }

/-- `enqueueGroupSummaryRecomputeJob`. -/
def enqueueGroupSummaryRecomputeJob (env : Env) (groupId : Id) (requestId : Option String) :
    Act QueuedJobDto := do
  let jobId ← JobQueue.enqueue env .groupSummaryRecompute (.obj [("groupId", .str (.id groupId))])
    requestId none
  return ⟨jobId, .groupSummaryRecompute⟩

/-- `recomputeGroupSummary`. -/
def recomputeGroupSummary (order : List Aggregate) (groupId : Id) : Act GroupSummary := do
  let group ← SummaryRepository.findGroupById groupId
  let _ ← expect group groupNotFound
  let metrics ← SummaryRepository.aggregateGroup order groupId
  let computedAt ← newDate
  let summary ← SummaryRepository.upsertSummary groupId metrics computedAt
  return toDto summary

/-- `getGroupSummary`. -/
def getGroupSummary (requesterId groupId : Id) : Act GroupSummary := do
  let group ← SummaryRepository.findGroupById groupId
  let _ ← expect group groupNotFound
  let isMember ← SummaryRepository.isGroupMember groupId requesterId
  ensure isMember notGroupMember
  let summary ← SummaryRepository.findSummaryByGroupId groupId
  let summary ← expect summary (notFoundError .groupSummaryNotFound
    "No summary has been computed for this group yet. Queue a recompute to generate one.")
  return toDto summary

/-- `enqueueGroupSummaryRecompute`. -/
def enqueueGroupSummaryRecompute (env : Env) (requesterId groupId : Id)
    (requestId : Option String) : Act QueuedJobDto := do
  let group ← SummaryRepository.findGroupById groupId
  let _ ← expect group groupNotFound
  let isMember ← SummaryRepository.isGroupMember groupId requesterId
  ensure isMember notGroupMember
  match ← (enqueueGroupSummaryRecomputeJob env groupId requestId).attempt with
  | .ok job => return job
  | .error _ =>
    increment .queueFailuresTotal
    throw (.app ⟨500, .jobEnqueueFailed,
      "Could not queue the requested operation. Please try again shortly."⟩)

end SummaryService

end SplitBill
