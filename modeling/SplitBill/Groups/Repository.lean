import SplitBill.Activity.Repository

/-!
# The group repository

`src/modules/groups/group.repository.ts`.
-/

namespace SplitBill

open Prisma

/-- `GroupWithMembers`: a group with its members. -/
structure GroupWithMembers where
  id : Id
  name : String
  createdById : Id
  createdAt : Time
  updatedAt : Time
  members : List SafeUser
  deriving DecidableEq

/-- `createGroupWithOwner`: the group, its owner's membership and the event. -/
def createGroupWithOwner (now : Time) (ownerId : Id) (name : String)
    (activity : ActivityEventInput) : Tx Db Err Metric Group := do
  let group ← Tx.statement (groupCreate now name ownerId)
  let _ ← Tx.statement (groupMemberCreate now group.id ownerId)
  let _ ← createActivityEvent now
    { groupId := group.id, userId := activity.userId, type := activity.type,
      message := activity.message, amountMinorUnits := none, currencyCode := none,
      occurredAt := group.createdAt }
  return group

/-- The transaction of `updateGroup`: the new name and the event. -/
def updateGroupWithEvent (now : Time) (id : Id) (name : String) (activity : ActivityEventInput) :
    Tx Db Err Metric Group := do
  let group ← Tx.statement (groupUpdate now id name)
  let _ ← createActivityEvent now
    { groupId := group.id, userId := activity.userId, type := activity.type,
      message := activity.message, amountMinorUnits := none, currencyCode := none,
      occurredAt := now }
  return group

/-- `addGroupMember`: the membership and the event. -/
def addGroupMemberWithEvent (now : Time) (groupId memberId : Id) (activity : ActivityEventInput) :
    Tx Db Err Metric GroupMember := do
  let member ← Tx.statement (groupMemberCreate now groupId memberId)
  let _ ← createActivityEvent now
    { groupId, userId := activity.userId, type := activity.type, message := activity.message,
      amountMinorUnits := none, currencyCode := none, occurredAt := member.createdAt }
  return member

/-- `removeGroupMember`: the end of the membership and the event. -/
def removeGroupMemberWithEvent (now : Time) (groupId memberId : Id)
    (activity : ActivityEventInput) : Tx Db Err Metric Unit := do
  Tx.statement (groupMemberDelete groupId memberId)
  let _ ← createActivityEvent now
    { groupId, userId := activity.userId, type := activity.type, message := activity.message,
      amountMinorUnits := none, currencyCode := none, occurredAt := now }
  return ()

/-- What `createGroupWithOwner` does when it is committed. -/
theorem createGroupWithOwner_eq_ok {now : Time} {ownerId : Id} {name : String}
    {activity : ActivityEventInput} {db db' : Db} {g : Group}
    (h : (createGroupWithOwner now ownerId name activity).eval db = .ok (g, db')) :
    ∃ event, g = ⟨db.nextId, name, ownerId, now, now⟩ ∧ db.member? g.id ownerId = none ∧
      event.Records g.id activity.type ∧
      db' = { db with
        groups := g :: db.groups
        groupMembers := ⟨db.nextId + 1, g.id, ownerId, now⟩ :: db.groupMembers
        activityEvents := event :: db.activityEvents
        nextId := db.nextId + 3 } := by
  unfold createGroupWithOwner at h
  obtain ⟨g, db₁, hgroup, h⟩ := Tx.eval_bind_eq_ok.mp h
  obtain ⟨m, db₂, hmember, h⟩ := Tx.eval_bind_eq_ok.mp h
  obtain ⟨rfl, event, heg, rfl⟩ := createActivityEvent_return_eq_ok h
  obtain ⟨hg, rfl⟩ := groupCreate_eq_ok hgroup
  obtain ⟨hnone, -, rfl, rfl⟩ := groupMemberCreate_eq_ok hmember
  exact ⟨event, hg, hnone, heg, rfl⟩

/-- What the transaction of `updateGroup` does when it is committed. -/
theorem updateGroupWithEvent_eq_ok {now : Time} {id : Id} {name : String}
    {activity : ActivityEventInput} {db db' : Db} {g : Group}
    (h : (updateGroupWithEvent now id name activity).eval db = .ok (g, db')) :
    ∃ old event, db.group? id = some old ∧ g = { old with name, updatedAt := now } ∧
      event.Records g.id activity.type ∧
      db' = { db with
        groups := updateWhere (·.id = id) (fun g => { g with name, updatedAt := now }) db.groups
        activityEvents := event :: db.activityEvents
        nextId := db.nextId + 1 } := by
  unfold updateGroupWithEvent at h
  obtain ⟨g, db₁, hgroup, h⟩ := Tx.eval_bind_eq_ok.mp h
  obtain ⟨rfl, event, heg, rfl⟩ := createActivityEvent_return_eq_ok h
  obtain ⟨old, hold, hg, rfl⟩ := groupUpdate_eq_ok hgroup
  exact ⟨old, event, hold, hg, heg, rfl⟩

/-- What `addGroupMember` does when it is committed. -/
theorem addGroupMemberWithEvent_eq_ok {now : Time} {groupId memberId : Id}
    {activity : ActivityEventInput} {db db' : Db} {m : GroupMember}
    (h : (addGroupMemberWithEvent now groupId memberId activity).eval db = .ok (m, db')) :
    ∃ event, db.member? groupId memberId = none ∧ (db.group? groupId).isSome ∧
      m = ⟨db.nextId, groupId, memberId, now⟩ ∧ event.Records groupId activity.type ∧
      db' = { db with
        groupMembers := m :: db.groupMembers
        activityEvents := event :: db.activityEvents
        nextId := db.nextId + 2 } := by
  unfold addGroupMemberWithEvent at h
  obtain ⟨m, db₁, hmember, h⟩ := Tx.eval_bind_eq_ok.mp h
  obtain ⟨rfl, event, heg, rfl⟩ := createActivityEvent_return_eq_ok h
  obtain ⟨hnone, hg, hm, rfl⟩ := groupMemberCreate_eq_ok hmember
  exact ⟨event, hnone, hg, hm, heg, rfl⟩

/-- What `removeGroupMember` does when it is committed. -/
theorem removeGroupMemberWithEvent_eq_ok {now : Time} {groupId memberId : Id}
    {activity : ActivityEventInput} {db db' : Db} {r : Unit}
    (h : (removeGroupMemberWithEvent now groupId memberId activity).eval db = .ok (r, db')) :
    ∃ event : ActivityEvent, (db.member? groupId memberId).isSome ∧
      event.Records groupId activity.type ∧ db' = { db with
        groupMembers :=
          db.groupMembers.filter fun m => ¬(m.groupId = groupId ∧ m.userId = memberId)
        activityEvents := event :: db.activityEvents
        nextId := db.nextId + 1 } := by
  unfold removeGroupMemberWithEvent at h
  obtain ⟨_, db₁, hmember, h⟩ := Tx.eval_bind_eq_ok.mp h
  obtain ⟨-, event, heg, rfl⟩ := createActivityEvent_return_eq_ok h
  obtain ⟨hsome, rfl⟩ := groupMemberDelete_eq_ok hmember
  exact ⟨event, hsome, heg, rfl⟩

/-- `findGroupByIdWithMembers`. -/
def groupWithMembers? (c : Choice) (db : Db) (id : Id) : Option GroupWithMembers :=
  (db.group? id).map fun g =>
    ⟨g.id, g.name, g.createdById, g.createdAt, g.updatedAt,
      (c.arrange (·.id) unordered (db.membersOf id)).map fun m => db.safeUser m.userId⟩

/-- The methods of `GroupRepository`. `updateGroup` reads before its transaction, so it is two
operations. -/
inductive GroupOp
  | createGroupWithOwner (ownerId : Id) (name : String) (activity : ActivityEventInput)
  | findGroupById (id : Id)
  | findGroupByIdWithMembers (id : Id)
  | findUserById (id : Id)
  | isGroupMember (groupId userId : Id)
  | updateGroupExists (id : Id)
  | updateGroup (id : Id) (name : String) (activity : ActivityEventInput)
  | deleteGroup (id : Id)
  | addGroupMember (groupId memberId : Id) (activity : ActivityEventInput)
  | findGroupMember (groupId memberId : Id)
  | removeGroupMember (groupId memberId : Id) (activity : ActivityEventInput)

namespace GroupOp

/-- What a method answers. -/
abbrev Res : GroupOp → Type
  | createGroupWithOwner _ _ _ => Group
  | findGroupById _ => Option Group
  | findGroupByIdWithMembers _ => Option GroupWithMembers
  | findUserById _ => Option SafeUser
  | isGroupMember _ _ => Bool
  | updateGroupExists _ => Bool
  | updateGroup _ _ _ => Group
  | deleteGroup _ => Unit
  | addGroupMember _ _ _ => GroupMember
  | findGroupMember _ _ => Option GroupMember
  | removeGroupMember _ _ _ => Unit

/-- What a method does. -/
def access : (o : GroupOp) → Access o.Res
  | createGroupWithOwner ownerId name activity =>
    .write fun _ now => SplitBill.createGroupWithOwner now ownerId name activity
  | findGroupById id => .read fun _ db => db.group? id
  | findGroupByIdWithMembers id => .read fun c db => groupWithMembers? c db id
  | findUserById id => .read fun _ db => (db.user? id).map User.safe
  | isGroupMember groupId userId => .read fun _ db => (db.member? groupId userId).isSome
  | updateGroupExists id => .read fun _ db => (db.group? id).isSome
  | updateGroup id name activity => .write fun _ now => updateGroupWithEvent now id name activity
  | deleteGroup id => .write fun _ _ => Tx.statement (groupDelete id)
  | addGroupMember groupId memberId activity =>
    .write fun _ now => addGroupMemberWithEvent now groupId memberId activity
  | findGroupMember groupId memberId => .read fun _ db => db.member? groupId memberId
  | removeGroupMember groupId memberId activity =>
    .write fun _ now => removeGroupMemberWithEvent now groupId memberId activity

end GroupOp

end SplitBill
