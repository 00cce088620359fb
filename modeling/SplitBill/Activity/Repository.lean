import SplitBill.Prisma

/-!
# The activity feed's repository

`src/modules/activity/activity.repository.ts`. `createActivityEvent` runs in the transaction of the
caller, so that an event is committed together with the record that produced it, and it counts the
event in a metric, which a rollback does not take back.
-/

namespace SplitBill

open Prisma

/-- `ActivityEventInput`: what another operation wants to record. -/
structure ActivityEventInput where
  userId : Id
  type : ActivityType
  message : String
  deriving DecidableEq

/-- `createActivityEvent`. -/
def createActivityEvent (now : Time) (data : ActivityEventData) : Tx Db Err Metric Id := do
  let id ← Tx.statement (activityEventCreate now data)
  Tx.note (.activityEventsCreatedTotal data.type)
  return id

/-- An activity event touches no table but its own. -/
theorem createActivityEvent_eq_ok {now : Time} {data : ActivityEventData} {db db' : Db} {id : Id}
    (h : (createActivityEvent now data).eval db = .ok (id, db')) :
    ∃ event : ActivityEvent, event.Records data.groupId data.type ∧
      db' = { db with activityEvents := event :: db.activityEvents, nextId := db.nextId + 1 } := by
  unfold createActivityEvent at h
  simp only [Tx.eval_bind_eq_ok, Tx.eval_statement, Tx.eval_note, Tx.eval_pure,
    activityEventCreate, ite_error_eq_ok, Except.ok.injEq, Prod.mk.injEq] at h
  obtain ⟨_, _, ⟨-, -, rfl⟩, _, _, ⟨-, rfl⟩, -, rfl⟩ := h
  exact ⟨_, ⟨rfl, rfl⟩, rfl⟩

/-- The event with which a transaction ends before it returns `b`. -/
theorem createActivityEvent_return_eq_ok {β : Type} {now : Time} {data : ActivityEventData}
    {db db' : Db} {b r : β}
    (h : (createActivityEvent now data >>= fun _ => (return b : Tx Db Err Metric β)).eval db =
      .ok (r, db')) :
    r = b ∧ ∃ event : ActivityEvent, event.Records data.groupId data.type ∧
      db' = { db with activityEvents := event :: db.activityEvents, nextId := db.nextId + 1 } := by
  obtain ⟨id, db₁, hevent, hreturn⟩ := Tx.eval_bind_eq_ok.mp h
  obtain ⟨rfl, rfl⟩ := Prod.mk.inj (Except.ok.inj hreturn)
  exact ⟨rfl, createActivityEvent_eq_ok hevent⟩

/-- `ActivityEventRecord`: an event with its actor. -/
structure ActivityEventRecord where
  event : ActivityEvent
  user : SafeUser
  deriving DecidableEq

/-- The methods of `ActivityRepository`, with the two queries of `findActivityByGroupId`. -/
inductive ActivityOp
  | findGroupById (id : Id)
  | isGroupMember (groupId userId : Id)
  | findMany (groupId : Id) (page limit : ℕ)
  | count (groupId : Id)

namespace ActivityOp

/-- What a method answers. -/
abbrev Res : ActivityOp → Type
  | findGroupById _ => Option Group
  | isGroupMember _ _ => Bool
  | findMany _ _ _ => List ActivityEventRecord
  | count _ => ℕ

/-- What a method does. -/
def access : (o : ActivityOp) → Access o.Res
  | findGroupById id => .read fun _ db => db.group? id
  | isGroupMember groupId userId => .read fun _ db => (db.member? groupId userId).isSome
  | findMany groupId page limit => .read fun c db =>
    let events := db.activityEvents.filter (·.groupId = groupId)
    let sorted := c.arrange (·.id)
      (fun a b => b.occurredAt < a.occurredAt ∨ a.occurredAt = b.occurredAt ∧ a.id < b.id) events
    ((sorted.drop ((page - 1) * limit)).take limit).map fun e => ⟨e, db.safeUser e.userId⟩
  | count groupId => .read fun _ db => (db.activityEvents.filter (·.groupId = groupId)).length

end ActivityOp

end SplitBill
