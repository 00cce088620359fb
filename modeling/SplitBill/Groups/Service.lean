import SplitBill.Groups.Cache

/-!
# The group service

`src/modules/groups/group.service.ts`, on the methods of `GroupRepository` as programs. Listing a
user's groups is left out, since nothing else depends on it.
-/

namespace SplitBill

open Interleave
open Prog (ensure expect)

namespace GroupRepository

/-- `createGroupWithOwner`. -/
def createGroupWithOwner (ownerId : Id) (name : String) (activity : ActivityEventInput) :
    Act Group :=
  Op.perform (.db (.group (.createGroupWithOwner ownerId name activity)))

/-- `findGroupById`. -/
def findGroupById (id : Id) : Act (Option Group) := Op.perform (.db (.group (.findGroupById id)))

/-- `findGroupByIdWithMembers`. -/
def findGroupByIdWithMembers (id : Id) : Act (Option GroupWithMembers) :=
  Op.perform (.db (.group (.findGroupByIdWithMembers id)))

/-- `findUserById`. -/
def findUserById (id : Id) : Act (Option SafeUser) :=
  Op.perform (.db (.group (.findUserById id)))

/-- `isGroupMember`. -/
def isGroupMember (groupId userId : Id) : Act Bool :=
  Op.perform (.db (.group (.isGroupMember groupId userId)))

/-- The check with which `updateGroup` begins. -/
def updateGroupExists (id : Id) : Act Bool := Op.perform (.db (.group (.updateGroupExists id)))

/-- The transaction of `updateGroup`. -/
def updateGroupWithEvent (id : Id) (name : String) (activity : ActivityEventInput) : Act Group :=
  Op.perform (.db (.group (.updateGroup id name activity)))

/-- `updateGroup`. -/
def updateGroup (id : Id) (name : String) (activity : ActivityEventInput) :
    Act (Option Group) := do
  let existing ← updateGroupExists id
  if existing then
    let group ← updateGroupWithEvent id name activity
    return some group
  else return none

/-- `deleteGroup`. -/
def deleteGroup (id : Id) : Act Unit := Op.perform (.db (.group (.deleteGroup id)))

/-- `addGroupMember`. -/
def addGroupMember (groupId memberId : Id) (activity : ActivityEventInput) : Act GroupMember :=
  Op.perform (.db (.group (.addGroupMember groupId memberId activity)))

/-- `findGroupMember`. -/
def findGroupMember (groupId memberId : Id) : Act (Option GroupMember) :=
  Op.perform (.db (.group (.findGroupMember groupId memberId)))

/-- `removeGroupMember`. -/
def removeGroupMember (groupId memberId : Id) (activity : ActivityEventInput) : Act Unit :=
  Op.perform (.db (.group (.removeGroupMember groupId memberId activity)))

end GroupRepository

namespace GroupService

/-- "Group not found." -/
def groupNotFound : Err := notFoundError .groupNotFound "Group not found."

/-- "You are not a member of this group." -/
def notGroupMember : Err :=
  forbiddenError .notGroupMember "You are not a member of this group."

/-- `createGroup`. -/
def createGroup (userId : Id) (name : String) : Act Group := do
  let group ← GroupRepository.createGroupWithOwner userId name
    { userId, type := .groupCreated, message := "created the group" }
  increment .groupsCreatedTotal
  return group

/-- `getGroupById`. -/
def getGroupById (env : Env) (lib : Lib) (userId groupId : Id) : Act GroupWithMembers := do
  match ← GroupCache.getCachedGroupById lib groupId with
  | some cached =>
    let isMember ← GroupRepository.isGroupMember groupId userId
    ensure isMember notGroupMember
    return cached
  | none =>
    let group ← GroupRepository.findGroupByIdWithMembers groupId
    let group ← expect group groupNotFound
    let isMember ← GroupRepository.isGroupMember groupId userId
    ensure isMember notGroupMember
    GroupCache.setCachedGroupById env groupId group
    return group

/-- `updateGroup`. -/
def updateGroup (userId groupId : Id) (name : String) : Act Group := do
  let group ← GroupRepository.findGroupById groupId
  let group ← expect group groupNotFound
  ensure (group.createdById = userId)
    (forbiddenError .notGroupOwner "Only the group owner can update this group.")
  let updated ← GroupRepository.updateGroup groupId name
    { userId, type := .groupUpdated, message := "renamed the group to \"" ++ name ++ "\"" }
  let updated ← expect updated groupNotFound
  GroupCache.invalidateGroupCache groupId
  return updated

/-- `deleteGroup`. -/
def deleteGroup (userId groupId : Id) : Act Unit := do
  let group ← GroupRepository.findGroupById groupId
  let group ← expect group groupNotFound
  ensure (group.createdById = userId)
    (forbiddenError .notGroupOwner "Only the group owner can delete this group.")
  GroupRepository.deleteGroup groupId
  GroupCache.invalidateGroupCache groupId

/-- `addGroupMember`. -/
def addGroupMember (userId groupId memberId : Id) : Act GroupMember := do
  let group ← GroupRepository.findGroupById groupId
  let group ← expect group groupNotFound
  ensure (group.createdById = userId)
    (forbiddenError .notGroupOwner "Only the group owner can add members.")
  let targetUser ← GroupRepository.findUserById memberId
  let targetUser ← expect targetUser (notFoundError .userNotFound "User not found.")
  let isMember ← GroupRepository.isGroupMember groupId memberId
  ensure (isMember = false)
    (conflictError .alreadyGroupMember "This user is already a member of the group.")
  let member ← GroupRepository.addGroupMember groupId memberId
    { userId, type := .memberAdded, message := "added " ++ targetUser.name ++ " to the group" }
  GroupCache.invalidateGroupCache groupId
  return member

/-- `removeGroupMember`. -/
def removeGroupMember (userId groupId memberId : Id) : Act Unit := do
  let group ← GroupRepository.findGroupById groupId
  let group ← expect group groupNotFound
  ensure (group.createdById = userId)
    (forbiddenError .notGroupOwner "Only the group owner can remove members.")
  ensure (memberId ≠ group.createdById)
    (conflictError .cannotRemoveOwner "The group owner cannot be removed from the group.")
  let member ← GroupRepository.findGroupMember groupId memberId
  let _ ← expect member (notFoundError .notGroupMember "Member not found in this group.")
  let targetUser ← GroupRepository.findUserById memberId
  let targetUser ← expect targetUser (notFoundError .userNotFound "User not found.")
  GroupRepository.removeGroupMember groupId memberId
    { userId, type := .memberRemoved,
      message := "removed " ++ targetUser.name ++ " from the group" }
  GroupCache.invalidateGroupCache groupId

end GroupService

end SplitBill
