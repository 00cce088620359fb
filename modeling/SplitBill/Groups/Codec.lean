import Mathlib.Data.Int.Notation
import Mathlib.Data.List.Forall2
import SplitBill.Js.Json

/-!
# The text of a cached group

`serialize` and `deserialize` of `src/modules/groups/group.cache.ts` over the strings themselves:
what `serialize` writes `deserialize` reads back, and it reads nothing but groups, whatever string
is stored. How a date is written and read is a parameter (`Dates`).
-/

namespace SplitBill.GroupCodec

open Js

/-! ## The code -/

/-- A time that a date can have: milliseconds since the epoch, a hundred million days each way. -/
structure TimeValue where
  ms : ℤ
  bound : ms.natAbs ≤ 8640000000000000
  deriving DecidableEq

/-- `Date`: without a time where `getTime` answers `NaN`. -/
structure Date where
  time? : Option TimeValue
  deriving DecidableEq

/-- How dates are read and written. -/
structure Dates where
  /-- `new Date(text)`. -/
  new : Str → Date
  /-- `toISOString` of a date with this time. -/
  iso : TimeValue → Str

/-- What the functions throw. -/
inductive Thrown
  | rangeError
  | syntaxError

/-- `GroupMemberUser`. -/
structure GroupMemberUser where
  id : Str
  name : Str
  email : Str
  deriving DecidableEq

/-- `GroupWithMembers`. -/
structure GroupWithMembers where
  id : Str
  name : Str
  createdById : Str
  createdAt : Date
  updatedAt : Date
  members : List GroupMemberUser
  deriving DecidableEq

/-- `toISOString`. -/
def toISOString (lib : Dates) (date : Date) : Except Thrown Str :=
  match date.time? with
  | some time => .ok (lib.iso time)
  | none => .error .rangeError

/-- The object that is written for a member. -/
def memberValue (member : GroupMemberUser) : Value :=
  .object [(str "id", .string member.id), (str "name", .string member.name),
    (str "email", .string member.email)]

/-- The object that is written for a group with these texts of its dates. -/
def groupValue (group : GroupWithMembers) (createdAt updatedAt : Str) : Value :=
  .object [(str "id", .string group.id), (str "name", .string group.name),
    (str "createdById", .string group.createdById), (str "createdAt", .string createdAt),
    (str "updatedAt", .string updatedAt), (str "members", .array (group.members.map memberValue))]

/-- `serialize`. -/
def serialize (lib : Dates) (group : GroupWithMembers) : Except Thrown Str := do
  let createdAt ← toISOString lib group.createdAt
  let updatedAt ← toISOString lib group.updatedAt
  return Json.stringify (groupValue group createdAt updatedAt)

/-- `typeof value === "string"`. -/
def asString : Option Value → Option Str
  | some (.string s) => some s
  | _ => none

/-- `Array.isArray(value)`. -/
def asArray : Option Value → Option (List Value)
  | some (.array items) => some items
  | _ => none

/-- `isRecord`. -/
def isRecord : Value → Bool
  | .object _ => true
  | _ => false

/-- `toDate`. -/
def toDate (lib : Dates) (value : Option Value) : Option Date := do
  let date := lib.new (← asString value)
  if date.time?.isNone then none else some date

/-- The callback over the members. -/
def deserializeMember (member : Value) : Option GroupMemberUser :=
  if isRecord member = true then do
    let id ← asString (member.get? (str "id"))
    let name ← asString (member.get? (str "name"))
    let email ← asString (member.get? (str "email"))
    return ⟨id, name, email⟩
  else none

/-- `deserialize` behind `JSON.parse`. -/
def deserializeParsed (lib : Dates) (parsed : Value) (groupId : Str) : Option GroupWithMembers :=
  if isRecord parsed = true then do
    let id ← asString (parsed.get? (str "id"))
    if id ≠ groupId then none
    else
      let name ← asString (parsed.get? (str "name"))
      let createdById ← asString (parsed.get? (str "createdById"))
      let members ← asArray (parsed.get? (str "members"))
      let createdAt ← toDate lib (parsed.get? (str "createdAt"))
      let updatedAt ← toDate lib (parsed.get? (str "updatedAt"))
      let members ← members.mapM deserializeMember
      return ⟨id, name, createdById, createdAt, updatedAt, members⟩
  else none

/-- `JSON.parse`. -/
def parse (raw : Str) : Except Thrown Value :=
  match Json.parse raw with
  | some parsed => .ok parsed
  | none => .error .syntaxError

/-- `deserialize`. -/
def deserialize (lib : Dates) (raw groupId : Str) :
    Except Thrown (Option GroupWithMembers) :=
  tryCatch (do
    let parsed ← parse raw
    return deserializeParsed lib parsed groupId) fun _ => return none

/-! ## What is written is read back -/

section

variable {lib : Dates}

/-- The reader takes a member back as it was written. -/
theorem reads_memberValue (member : GroupMemberUser) : Json.Reads (memberValue member) := by
  refine Json.reads_object ?_
  simp only [List.forall_mem_cons, List.not_mem_nil, IsEmpty.forall_iff, implies_true, and_true]
  exact ⟨Json.reads_string _, Json.reads_string _, Json.reads_string _⟩

/-- The reader takes a whole entry back as it was written. -/
theorem reads_groupValue (group : GroupWithMembers) (createdAt updatedAt : Str) :
    Json.Reads (groupValue group createdAt updatedAt) := by
  have hmembers : Json.Reads (.array (group.members.map memberValue)) := by
    refine Json.reads_array fun v hv => ?_
    obtain ⟨member, -, rfl⟩ := List.mem_map.mp hv
    exact reads_memberValue member
  refine Json.reads_object ?_
  simp only [List.forall_mem_cons, List.not_mem_nil, IsEmpty.forall_iff, implies_true, and_true]
  exact ⟨Json.reads_string _, Json.reads_string _, Json.reads_string _, Json.reads_string _,
    Json.reads_string _, hmembers⟩

/-- A member is read back. -/
theorem deserializeMember_memberValue (member : GroupMemberUser) :
    deserializeMember (memberValue member) = some member := rfl

/-- The members are read back. -/
theorem mapM_deserializeMember (members : List GroupMemberUser) :
    (members.map memberValue).mapM deserializeMember = some members := by
  induction members with
  | nil => rfl
  | cons member members ih =>
    rw [List.map_cons, List.mapM_cons, deserializeMember_memberValue, ih]
    rfl

/-- A date is read back. -/
theorem toDate_iso (hlib : ∀ time, lib.new (lib.iso time) = ⟨some time⟩) (time : TimeValue) :
    toDate lib (some (.string (lib.iso time))) = some ⟨some time⟩ := by
  have hdate : toDate lib (some (.string (lib.iso time))) =
      if (lib.new (lib.iso time)).time?.isNone then none else some (lib.new (lib.iso time)) := rfl
  rw [hdate, hlib]
  rfl

/-- The object of a group is read back. -/
theorem deserializeParsed_groupValue (hlib : ∀ time, lib.new (lib.iso time) = ⟨some time⟩)
    {group : GroupWithMembers} {createdAt updatedAt : TimeValue}
    (hcreated : group.createdAt = ⟨some createdAt⟩) (hupdated : group.updatedAt = ⟨some updatedAt⟩) :
    deserializeParsed lib (groupValue group (lib.iso createdAt) (lib.iso updatedAt)) group.id =
      some group := by
  calc deserializeParsed lib (groupValue group (lib.iso createdAt) (lib.iso updatedAt)) group.id
      = if group.id ≠ group.id then none else
          (toDate lib (some (.string (lib.iso createdAt)))).bind fun createdAt =>
            (toDate lib (some (.string (lib.iso updatedAt)))).bind fun updatedAt =>
              ((group.members.map memberValue).mapM deserializeMember).bind fun members =>
                some ⟨group.id, group.name, group.createdById, createdAt, updatedAt, members⟩ := rfl
    _ = some group := by
        rw [if_neg (not_not_intro rfl), toDate_iso hlib, toDate_iso hlib, mapM_deserializeMember,
          ← hcreated, ← hupdated]
        rfl

/-! ## What is read is a group -/

/-- A value holds a member. -/
structure HoldsMember (v : Value) (member : GroupMemberUser) : Prop where
  record : isRecord v = true
  id : v.get? (str "id") = some (.string member.id)
  name : v.get? (str "name") = some (.string member.name)
  email : v.get? (str "email") = some (.string member.email)

/-- A value holds a date with a time. -/
def HoldsDate (lib : Dates) (v : Option Value) (date : Date) : Prop :=
  ∃ text, v = some (.string text) ∧ lib.new text = date ∧ date.time?.isSome = true

/-- A value holds a group. -/
structure HoldsGroup (lib : Dates) (v : Value) (group : GroupWithMembers) : Prop where
  record : isRecord v = true
  id : v.get? (str "id") = some (.string group.id)
  name : v.get? (str "name") = some (.string group.name)
  createdById : v.get? (str "createdById") = some (.string group.createdById)
  createdAt : HoldsDate lib (v.get? (str "createdAt")) group.createdAt
  updatedAt : HoldsDate lib (v.get? (str "updatedAt")) group.updatedAt
  members : ∃ items, v.get? (str "members") = some (.array items) ∧
    List.Forall₂ HoldsMember items group.members

/-- A string is found where the value is one. -/
theorem asString_eq_some {v : Option Value} {s : Str} :
    asString v = some s ↔ v = some (.string s) := by
  constructor
  · intro h
    unfold asString at h
    split at h
    · rw [Option.some.inj h]
    · cases h
  · rintro rfl
    rfl

/-- An array is found where the value is one. -/
theorem asArray_eq_some {v : Option Value} {items : List Value} :
    asArray v = some items ↔ v = some (.array items) := by
  constructor
  · intro h
    unfold asArray at h
    split at h
    · rw [Option.some.inj h]
    · cases h
  · rintro rfl
    rfl

/-- A date is found where the value is a string that `new Date` accepts. -/
theorem toDate_eq_some {v : Option Value} {date : Date} :
    toDate lib v = some date ↔ HoldsDate lib v date := by
  unfold toDate HoldsDate
  simp only [Option.bind_eq_bind, Option.bind_eq_some_iff, asString_eq_some]
  refine exists_congr fun text => and_congr_right fun _ => ?_
  cases htime : (lib.new text).time? with
  | none =>
    rw [Option.isNone_none, if_pos rfl]
    refine iff_of_false nofun ?_
    rintro ⟨rfl, hsome⟩
    rw [htime] at hsome
    cases hsome
  | some time =>
    rw [Option.isNone_some, if_neg Bool.false_ne_true, Option.some.injEq]
    refine (and_iff_left_of_imp ?_).symm
    rintro rfl
    rw [htime]
    rfl

/-- A member is found where all its fields have their types. -/
theorem deserializeMember_eq_some {v : Value} {member : GroupMemberUser} :
    deserializeMember v = some member ↔ HoldsMember v member := by
  unfold deserializeMember
  split_ifs with hrecord
  · simp only [Option.bind_eq_bind, Option.bind_eq_some_iff, asString_eq_some]
    constructor
    · rintro ⟨id, hid, name, hname, email, hemail, hmember⟩
      cases hmember
      exact ⟨hrecord, hid, hname, hemail⟩
    · intro h
      exact ⟨_, h.id, _, h.name, _, h.email, rfl⟩
  · exact iff_of_false nofun fun h => hrecord h.record

/-- All members are read, or none is. -/
theorem mapM_eq_some {α β : Type} {f : α → Option β} {as : List α} {bs : List β} :
    as.mapM f = some bs ↔ List.Forall₂ (fun a b => f a = some b) as bs := by
  induction as generalizing bs with
  | nil => simp [eq_comm]
  | cons a as ih =>
    rw [List.mapM_cons]
    simp only [Option.bind_eq_bind, Option.bind_eq_some_iff, ih, List.forall₂_cons_left_iff]
    constructor
    · rintro ⟨b, hb, bs', hbs, h⟩
      exact ⟨b, bs', hb, hbs, (Option.some.inj h).symm⟩
    · rintro ⟨b, bs', hb, hbs, rfl⟩
      exact ⟨b, hb, bs', hbs, rfl⟩

/-- A group is read from what holds one with the wanted identifier, and from nothing else. -/
theorem deserializeParsed_eq_some {parsed : Value} {groupId : Str} {group : GroupWithMembers} :
    deserializeParsed lib parsed groupId = some group ↔
      HoldsGroup lib parsed group ∧ group.id = groupId := by
  -- The fields are read in the order of the source, each one must be of its kind.
  unfold deserializeParsed
  split_ifs with hrecord
  · simp only [Option.bind_eq_bind, Option.bind_eq_some_iff, asString_eq_some]
    constructor
    · rintro ⟨id, hid, h⟩
      split_ifs at h with hne
      simp only [Option.bind_eq_some_iff, asString_eq_some, asArray_eq_some, toDate_eq_some,
        mapM_eq_some, deserializeMember_eq_some] at h
      obtain ⟨name, hname, createdById, hcreator, items, hitems, createdAt, hcreated, updatedAt,
        hupdated, members, hmembers, hgroup⟩ := h
      cases hgroup
      exact ⟨⟨hrecord, hid, hname, hcreator, hcreated, hupdated, items, hitems, hmembers⟩,
        not_not.mp hne⟩
    · rintro ⟨h, rfl⟩
      obtain ⟨items, hitems, hmembers⟩ := h.members
      refine ⟨_, h.id, ?_⟩
      rw [if_neg (not_not_intro rfl)]
      simp only [Option.bind_eq_some_iff, asString_eq_some, asArray_eq_some, toDate_eq_some,
        mapM_eq_some, deserializeMember_eq_some]
      exact ⟨_, h.name, _, h.createdById, items, hitems, _, h.createdAt, _, h.updatedAt, _,
        hmembers, rfl⟩
  · exact iff_of_false nofun fun h => hrecord h.1.record

/-- Both dates of a group have a time. -/
def DatesValid (group : GroupWithMembers) : Prop :=
  group.createdAt.time?.isSome = true ∧ group.updatedAt.time?.isSome = true

/-- What may be read from a string for a group: that group, as the string's value holds it. -/
structure WellFormed (lib : Dates) (raw groupId : Str) (group : GroupWithMembers) : Prop where
  id : group.id = groupId
  dates : DatesValid group
  held : ∃ parsed, Json.parse raw = some parsed ∧ HoldsGroup lib parsed group

/-- With valid dates the codec writes the entry: `toISOString` does not throw. -/
theorem serialize_of_datesValid {group : GroupWithMembers} (h : DatesValid group) :
    ∃ createdAt updatedAt, group.createdAt = ⟨some createdAt⟩ ∧ group.updatedAt = ⟨some updatedAt⟩ ∧
      serialize lib group =
        .ok (Json.stringify (groupValue group (lib.iso createdAt) (lib.iso updatedAt))) := by
  obtain ⟨createdAt, hcreated⟩ := Option.isSome_iff_exists.mp h.1
  obtain ⟨updatedAt, hupdated⟩ := Option.isSome_iff_exists.mp h.2
  refine ⟨createdAt, updatedAt, congrArg Date.mk hcreated, congrArg Date.mk hupdated, ?_⟩
  unfold serialize toISOString
  rw [hcreated, hupdated]
  rfl

/-- `deserialize` catches what `JSON.parse` throws. -/
theorem deserialize_eq (raw groupId : Str) :
    deserialize lib raw groupId =
      .ok ((Json.parse raw).bind fun parsed => deserializeParsed lib parsed groupId) := by
  unfold deserialize parse
  cases Json.parse raw with
  | none => rfl
  | some parsed => rfl

/-- What is written for a group with valid dates is read back as that group. From any string, for
any group, at most a well-formed group is read, and nothing is thrown. -/
theorem deserialize_inverts_and_validates (hlib : ∀ time, lib.new (lib.iso time) = ⟨some time⟩) :
    (∀ group, DatesValid group → ∃ raw, serialize lib group = .ok raw ∧
      deserialize lib raw group.id = .ok (some group)) ∧
    ∀ raw groupId, ∃ found, deserialize lib raw groupId = .ok found ∧
      ∀ group ∈ found, WellFormed lib raw groupId group := by
  constructor
  · intro group hvalid
    obtain ⟨createdAt, updatedAt, hcreated, hupdated, hraw⟩ := serialize_of_datesValid hvalid
    refine ⟨_, hraw, ?_⟩
    rw [deserialize_eq, Json.parse_stringify (reads_groupValue _ _ _), Option.bind_some,
      deserializeParsed_groupValue hlib hcreated hupdated]
  · intro raw groupId
    refine ⟨_, deserialize_eq raw groupId, fun group hgroup => ?_⟩
    obtain ⟨parsed, hparsed, hread⟩ := Option.bind_eq_some_iff.mp hgroup
    obtain ⟨hholds, hid⟩ := deserializeParsed_eq_some.mp hread
    obtain ⟨-, -, -, hcreated⟩ := hholds.createdAt
    obtain ⟨-, -, -, hupdated⟩ := hholds.updatedAt
    exact ⟨hid, ⟨hcreated, hupdated⟩, parsed, hparsed, hholds⟩

end

/-- The start of the day after the epoch is written as it is, and every other time by its length. -/
def tallies : Dates where
  new text :=
    if text = str "1970-01-02T00:00:00.000Z" then ⟨some ⟨86400000, by decide⟩⟩
    else
      let ms : ℤ := if text.head? = some 45 then -(text.length - 1 : ℕ) else text.length
      if h : ms.natAbs ≤ 8640000000000000 then ⟨some ⟨ms, h⟩⟩ else ⟨none⟩
  iso time :=
    if time.ms = 86400000 then str "1970-01-02T00:00:00.000Z"
    else if time.ms < 0 then 45 :: List.replicate time.ms.natAbs 48
    else List.replicate time.ms.natAbs 48

/-- `new Date` undoes `toISOString` on tallies. -/
theorem tallies_new_iso (time : TimeValue) : tallies.new (tallies.iso time) = ⟨some time⟩ := by
  obtain ⟨ms, hms⟩ := time
  have hnot : ∀ s : Str, (∀ u ∈ s, u = 48 ∨ u = 45) → s ≠ str "1970-01-02T00:00:00.000Z" := by
    rintro s hs rfl
    exact absurd (hs 49 (by decide)) (by decide)
  have hdigits : ∀ u ∈ List.replicate ms.natAbs (48 : UInt16), u = 48 ∨ u = 45 :=
    fun u hu => .inl (List.eq_of_mem_replicate hu)
  unfold tallies
  by_cases hday : ms = 86400000
  · subst hday
    rfl
  by_cases hneg : ms < 0
  · have hsigned : ∀ u ∈ 45 :: List.replicate ms.natAbs (48 : UInt16), u = 48 ∨ u = 45 :=
      List.forall_mem_cons.mpr ⟨.inr rfl, hdigits⟩
    have hlength : -((ms.natAbs : ℕ) : ℤ) = ms := by omega
    simp only [if_neg hday, if_pos hneg, if_neg (hnot _ hsigned), List.head?_cons, if_true,
      List.length_cons, List.length_replicate, Nat.add_sub_cancel, hlength, dif_pos hms]
  · have hhead : (List.replicate ms.natAbs (48 : UInt16)).head? ≠ some 45 := by
      intro h
      exact absurd (List.eq_of_mem_replicate (List.mem_of_head? h)) (by decide)
    have hlength : ((ms.natAbs : ℕ) : ℤ) = ms := by omega
    simp only [if_neg hday, if_neg hneg, if_neg (hnot _ hdigits), if_neg hhead,
      List.length_replicate, hlength, dif_pos hms]

/-- A group, whose name takes escaping. -/
def trip : GroupWithMembers :=
  ⟨str "g1", str "\"Trip\"\n", str "u1", ⟨some ⟨86400000, by decide⟩⟩, ⟨some ⟨86400000, by decide⟩⟩,
    [⟨str "u1", str "Ann", str "ann@example.com"⟩]⟩

/-- A group that comes back, and a payload that is refused. -/
theorem deserialize_inverts_and_validates_trip :
    (∃ raw, serialize tallies trip = .ok raw ∧
      deserialize tallies raw (str "g1") = .ok (some trip)) ∧
    ∃ found, deserialize tallies (str "[1, 2, 3]") (str "g1") = .ok found ∧
      ∀ group ∈ found, WellFormed tallies (str "[1, 2, 3]") (str "g1") group :=
  ⟨(deserialize_inverts_and_validates tallies_new_iso).1 trip ⟨rfl, rfl⟩,
    (deserialize_inverts_and_validates tallies_new_iso).2 _ _⟩

end SplitBill.GroupCodec
