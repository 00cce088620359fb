import SplitBill.Rows

/-!
# Cached groups

What `serialize` writes `deserialize` reads back, and `Db.Shows` says that a group with its members
is what the tables hold, in some order of the members.
-/

namespace SplitBill

open Interleave

namespace GroupCache

variable {lib : Lib}

/-- A member is read back. -/
theorem deserializeMember_serialize (m : SafeUser) :
    deserializeMember lib (.obj [("id", .str (.id m.id)), ("name", .str (.lit m.name)),
      ("email", .str (.lit m.email))]) = some m := rfl

/-- The members are read back. -/
theorem mapM_deserializeMember (members : List SafeUser) :
    (members.map fun m => Json.obj [("id", .str (.id m.id)), ("name", .str (.lit m.name)),
      ("email", .str (.lit m.email))]).mapM (deserializeMember lib) = some members := by
  induction members with
  | nil => rfl
  | cons m members ih =>
    rw [List.map_cons, List.mapM_cons, deserializeMember_serialize, ih]
    rfl

/-- A group is read back. -/
theorem deserialize_serialize (group : GroupWithMembers) :
    deserialize lib (.json (serialize group)) group.id = some group := by
  have hid : (Json.str (.id group.id) == Json.str (.id group.id)) = true := Json.beq_str.mpr rfl
  calc deserialize lib (.json (serialize group)) group.id
      = (guard (Json.str (.id group.id) == Json.str (.id group.id)) : Option Unit).bind fun _ =>
          ((group.members.map fun m => Json.obj [("id", .str (.id m.id)),
            ("name", .str (.lit m.name)), ("email", .str (.lit m.email))]).mapM
            (deserializeMember lib)).bind fun members =>
              some ⟨group.id, group.name, group.createdById, group.createdAt, group.updatedAt,
                members⟩ := rfl
    _ = some group := by
        rw [mapM_deserializeMember, hid]
        rfl

end GroupCache

/-- The backend with a Redis that answers every command. -/
abbrev steadyRedis (lib : Lib) : Machine backend Err World :=
  (machine lib).reliable fun o => ∃ caller c, o = .redis caller c

/-- What a command does there. -/
theorem answer_steadyRedis {lib : Lib} {caller : Caller} {c : Command Key Stored} {w w' : World}
    {did seen : Except Err c.Res} (h : (steadyRedis lib).Answer (.redis caller c) w did seen w') :
    seen = .ok (w.redis.exec w.now c).1 ∧ w' = { w with redis := (w.redis.exec w.now c).2 } := by
  obtain ⟨ch, hseen, hw⟩ := h.of_reliable.2 ⟨caller, c, rfl⟩
  exact ⟨hseen, hw⟩

/-- The group with its members is what the tables hold, in some order of the members. -/
def Db.Shows (db : Db) (groupId : Id) (group : GroupWithMembers) : Prop :=
  ∃ c, groupWithMembers? c db groupId = some group

/-- What the tables show under an id has this id. -/
theorem Db.Shows.id_eq {db : Db} {groupId : Id} {group : GroupWithMembers}
    (h : db.Shows groupId group) : group.id = groupId := by
  obtain ⟨c, hc⟩ := h
  obtain ⟨g, hg, rfl⟩ := Option.map_eq_some_iff.mp hc
  simpa using List.find?_some hg

/-- What the tables show of a group depends on its rows and on the users. -/
theorem groupWithMembers?_congr {d d' : Db} {groupId : Id}
    (hrows : d'.rowsOf groupId = d.rowsOf groupId)
    (husers : d'.users = d.users) (c : Choice) :
    groupWithMembers? c d' groupId = groupWithMembers? c d groupId := by
  have hgroup : d'.group? groupId = d.group? groupId := by
    have hrow := congrArg (fun r => r.groups.head?) hrows
    simp only [Db.rowsOf, List.head?_filter] at hrow
    exact hrow
  have hmembers : d'.membersOf groupId = d.membersOf groupId := congrArg GroupRows.members hrows
  have hsafe : d'.safeUser = d.safeUser := by
    funext u
    unfold Db.safeUser Db.user?
    rw [husers]
  unfold groupWithMembers?
  rw [hgroup, hmembers, hsafe]

/-- What the database shows of a group depends on its rows and on the users only. -/
theorem Db.Shows.congr {d d' : Db} {groupId : Id} (hrows : d'.rowsOf groupId = d.rowsOf groupId)
    (husers : d'.users = d.users) {group : GroupWithMembers} (h : d.Shows groupId group) :
    d'.Shows groupId group := by
  obtain ⟨c, hc⟩ := h
  exact ⟨c, (groupWithMembers?_congr hrows husers c).trans hc⟩

/-- A query of a group shows what the tables show. -/
theorem shows_of_answer {lib : Lib} {groupId : Id} {w w' : World} {group : GroupWithMembers}
    {did : Except Err (Option GroupWithMembers)}
    (h : (machine lib).Answer (.db (.group (.findGroupByIdWithMembers groupId))) w did
      (.ok (some group)) w') : w'.db.Shows groupId group := by
  obtain ⟨hw, ⟨c, hc⟩ | hc⟩ := answer_read (o := .group (.findGroupByIdWithMembers groupId)) rfl h
  · rw [hw]
    exact ⟨c, (Except.ok.inj hc).symm⟩
  · cases hc

/-- The transactions that change what a group shows. -/
inductive GroupWrite (groupId : Id) : DbOp → Prop
  | update (name : String) (a : ActivityEventInput) :
    GroupWrite groupId (.group (.updateGroup groupId name a))
  | delete : GroupWrite groupId (.group (.deleteGroup groupId))
  | addMember (memberId : Id) (a : ActivityEventInput) :
    GroupWrite groupId (.group (.addGroupMember groupId memberId a))
  | removeMember (memberId : Id) (a : ActivityEventInput) :
    GroupWrite groupId (.group (.removeGroupMember groupId memberId a))

/-- Each of them is about one group. -/
theorem GroupWrite.eq {g g' : Id} {o : DbOp} (h : GroupWrite g o) (h' : GroupWrite g' o) :
    g = g' := by
  cases h <;> cases h' <;> rfl

/-- They change nothing that another group shows. -/
theorem GroupWrite.shows {groupId other : Id} {o : DbOp} (ho : GroupWrite groupId o)
    {t : Choice → Time → Tx Db Err Metric o.Res} (ht : o.access = .write t) {c : Choice}
    {now : Time} {d d' : Db} {r : o.Res} (heval : (t c now).eval d = .ok (r, d'))
    (hne : groupId ≠ other) {group : GroupWithMembers} (h : d.Shows other group) :
    d'.Shows other group := by
  -- Each of them is an operation of one group, and the rows of another stay.
  cases ho with
  | update name a =>
    obtain rfl := Access.write.inj ht
    refine h.congr (UpdatesGroup.rowsOf hne ⟨now, a, r, heval⟩) ?_
    obtain ⟨old, event, -, -, -, rfl⟩ := updateGroupWithEvent_eq_ok heval
    rfl
  | delete =>
    obtain rfl := Access.write.inj ht
    refine h.congr (DeletesGroup.rowsOf hne heval) ?_
    obtain rfl := Prisma.groupDelete_eq_ok heval
    rfl
  | addMember memberId a =>
    obtain rfl := Access.write.inj ht
    refine h.congr (AddsMember.rowsOf hne ⟨now, a, r, heval⟩) ?_
    obtain ⟨event, -, -, -, -, rfl⟩ := addGroupMemberWithEvent_eq_ok heval
    rfl
  | removeMember memberId a =>
    obtain rfl := Access.write.inj ht
    refine h.congr (removeGroupMember_rowsOf hne heval) ?_
    obtain ⟨event, -, -, rfl⟩ := removeGroupMemberWithEvent_eq_ok heval
    rfl

end SplitBill
