import SplitBill.Backend
import SplitBill.Expenses.Service

/-!
# The activity service

`src/modules/activity/activity.service.ts`.
-/

namespace SplitBill

open Interleave
open Prog (ensure expect)

namespace ActivityRepository

/-- `findGroupById`. -/
def findGroupById (id : Id) : Act (Option Group) :=
  Op.perform (.db (.activity (.findGroupById id)))

/-- `isGroupMember`. -/
def isGroupMember (groupId userId : Id) : Act Bool :=
  Op.perform (.db (.activity (.isGroupMember groupId userId)))

/-- `findActivityByGroupId`. -/
def findActivityByGroupId (groupId : Id) (page limit : ℕ) :
    Act (List ActivityEventRecord × ℕ) :=
  promiseAll (Op.perform (.db (.activity (.findMany groupId page limit))))
    (Op.perform (.db (.activity (.count groupId))))

end ActivityRepository

/-- `ActivityFeedPage`. -/
structure ActivityFeedPage where
  events : List ActivityEventRecord
  pagination : Pagination
  deriving DecidableEq

namespace ActivityService

/-- `toDto`: the fields of the record, with the amount as a number. -/
def toDto (r : ActivityEventRecord) : ActivityEventRecord :=
  { r with event := { r.event with
      amountMinorUnits := r.event.amountMinorUnits.map Js.number } }

/-- `getGroupActivity`. -/
def getGroupActivity (requesterId groupId : Id) (page limit : ℕ) : Act ActivityFeedPage := do
  let group ← ActivityRepository.findGroupById groupId
  let _ ← expect group (notFoundError .groupNotFound "Group not found.")
  let isMember ← ActivityRepository.isGroupMember groupId requesterId
  ensure isMember (forbiddenError .notGroupMember "You are not a member of this group.")
  let (events, total) ← ActivityRepository.findActivityByGroupId groupId page limit
  return ⟨events.map toDto, ⟨page, limit, total⟩⟩

end ActivityService

end SplitBill
