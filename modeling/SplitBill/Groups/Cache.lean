import SplitBill.Backend

/-!
# The group cache

`src/modules/groups/group.cache.ts`. A failed command is counted and otherwise ignored: a failed
read is a miss, and a failed write or invalidation changes nothing for the caller. An entry that is
not what `serialize` writes is a miss as well.
-/

namespace SplitBill

open Interleave

namespace GroupCache

/-- The text of a JSON string. -/
def asText : Json → Option Text
  | .str t => some t
  | _ => none

/-- `toDate`. -/
def toDate (lib : Lib) : Json → Option Time
  | .str (.iso t) => some t
  | .str t => lib.parseDate t
  | _ => none

/-- The string that a text is. -/
def asString (lib : Lib) : Text → String
  | .lit s => s
  | t => lib.characters t

/-- The identifier that a text is. -/
def asId (lib : Lib) : Text → Id
  | .id n => n
  | t => lib.identifier t

/-- `serialize`. -/
def serialize (group : GroupWithMembers) : Json :=
  .obj [
    ("id", .str (.id group.id)),
    ("name", .str (.lit group.name)),
    ("createdById", .str (.id group.createdById)),
    ("createdAt", .str (.iso group.createdAt)),
    ("updatedAt", .str (.iso group.updatedAt)),
    ("members", .arr (group.members.map fun m =>
      .obj [("id", .str (.id m.id)), ("name", .str (.lit m.name)),
        ("email", .str (.lit m.email))]))]

/-- The callback that `deserialize` maps over the members. -/
def deserializeMember (lib : Lib) (member : Json) : Option SafeUser := do
  let id ← (← member.get? "id") |> asText
  let name ← (← member.get? "name") |> asText
  let email ← (← member.get? "email") |> asText
  return ⟨asId lib id, asString lib name, asString lib email⟩

/-- `deserialize`. -/
def deserialize (lib : Lib) (raw : Stored) (groupId : Id) : Option GroupWithMembers := do
  let parsed ← raw.parse
  guard ((← parsed.get? "id") == .str (.id groupId))
  let name ← (← parsed.get? "name") |> asText
  let createdById ← (← parsed.get? "createdById") |> asText
  let members ← match ← parsed.get? "members" with
    | .arr items => some items
    | _ => none
  let createdAt ← (← parsed.get? "createdAt") |> toDate lib
  let updatedAt ← (← parsed.get? "updatedAt") |> toDate lib
  let members ← members.mapM (deserializeMember lib)
  return ⟨groupId, asString lib name, asId lib createdById, createdAt, updatedAt, members⟩

/-- `getCachedGroupById`. -/
def getCachedGroupById (lib : Lib) (groupId : Id) : Act (Option GroupWithMembers) := do
  match ← (Op.perform (.redis .groupCache (.get (.cacheGroup groupId)))).attempt with
  | .error _ =>
    increment (.cacheFailuresTotal "get")
    return none
  | .ok none => return none
  | .ok (some raw) => return deserialize lib raw groupId

/-- `setCachedGroupById`. -/
def setCachedGroupById (env : Env) (groupId : Id) (group : GroupWithMembers) : Act Unit := do
  let value := Stored.json (serialize group)
  match ← (Op.perform (.redis .groupCache
      (.set (.cacheGroup groupId) value (env.cacheGroupTtlSeconds * 1000)))).attempt with
  | .error _ => increment (.cacheFailuresTotal "set")
  | .ok _ => return ()

/-- `invalidateGroupCache`. -/
def invalidateGroupCache (groupId : Id) : Act Unit := do
  match ← (Op.perform (.redis .groupCache (.del [.cacheGroup groupId]))).attempt with
  | .error _ => increment (.cacheFailuresTotal "delete")
  | .ok _ => return ()

/-- The cache is not in the database. -/
theorem issues_invalidateGroupCache (P : DbOp → Prop) (groupId : Id) :
    (invalidateGroupCache groupId).Issues (Op.OnDb P) := by
  unfold invalidateGroupCache
  refine .bind (.attempt (issues_op trivial)) fun r => ?_
  cases r
  · exact issues_op trivial
  · trivial

end GroupCache

end SplitBill
