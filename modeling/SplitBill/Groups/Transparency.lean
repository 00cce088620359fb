import SplitBill.Alone
import SplitBill.Auth.Writes
import SplitBill.Groups.CacheEntry

/-!
# When the group cache cannot be seen

`createGroup`, `updateGroup`, `addGroupMember`, `removeGroupMember`, `deleteGroup`,
`updateCurrentUser` and `getGroupById`, one after another, each run to its end with success or
failure. The calls that change a group drop its entry, but `updateCurrentUser` does not know which
entries show the user whom it changes. After runs in which no change of a name or an address meets
an entry that shows it, `getGroupById` answers as it would without the cache.

The invariant is that what the cache holds of a group is what the tables show (`CacheTrue`). A
transaction on a group breaks it for that group only, until the entry is dropped.
-/

namespace SplitBill

open Interleave
open Prisma (UserData)

/-! ## A backend that acknowledges what it commits -/

/-- The backend with a Redis that answers every command, where no answer to an operation that took
effect is lost. -/
abbrev acknowledged (lib : Lib) : Machine backend Err World :=
  { steadyRedis lib with loses := fun _ _ => False }

/-- Who is told of an error there knows that nothing was done. -/
theorem answer_acknowledged {lib : Lib} {o : Op} {w w' : World}
    {did seen : Except Err (backend.Res o)} (h : (acknowledged lib).Answer o w did seen w') :
    (steadyRedis lib).Answer o w did seen w' ∧ seen = did := by
  cases h with
  | done c => exact ⟨@Machine.Answer.done _ _ _ (steadyRedis lib) o w c, rfl⟩
  | failed e he => exact ⟨@Machine.Answer.failed _ _ _ (steadyRedis lib) o w e he, rfl⟩
  | lost e c he => exact he.elim

/-- The discipline of a program without company on this backend. -/
abbrev served (lib : Lib) : Discipline backend Err World := (acknowledged lib).alone World.Later

section Rules

variable {lib : Lib} {α : Type} {x : World}

/-- What holds on any backend holds on this one. -/
theorem served_of_alone {p : Act α} {Q : Except Err α → World → Prop} (h : wp (alone lib) Q p x) :
    wp (served lib) Q p x :=
  wp_alone_of_answer (fun hans => (answer_acknowledged hans).1.of_reliable.1) h

/-- A query. -/
theorem served_read (o : DbOp) {f : Choice → Db → o.Res} (ho : o.access = .read f)
    {Q : Except Err o.Res → World → Prop} (hok : ∀ c y, x.Idle y → Q (.ok (f c x.db)) y)
    (herr : ∀ y, x.Idle y → Q (.error (.prisma .unavailable)) y) :
    wp (served lib) Q (Op.perform (.db o)) x := by
  apply wp_perform.mpr
  rintro x₁ hx₁ r y ⟨did, hans⟩
  have hans : (machine lib).Answer (.db o) x₁ did r y := (answer_acknowledged hans).1.of_reliable.1
  have hreads : Op.Idle (.db o) := ⟨f, ho⟩
  have hidle : x.Idle y := hx₁.idle.trans (answer_idle hreads hans)
  refine ⟨trivial, ?_⟩
  obtain ⟨-, ⟨c, rfl⟩ | rfl⟩ := answer_read ho hans
  · rw [hx₁.idle.db]
    exact hok c y hidle
  · exact herr y hidle

/-- A transaction. Its caller knows whether it was committed. -/
theorem served_write (o : DbOp) {t : Choice → Time → Tx Db Err Metric o.Res}
    (ho : o.access = .write t) {Q : Except Err o.Res → World → Prop}
    (hcommit : ∀ c now a y, (t c now).eval x.db = .ok (a, y.db) → y.redis = x.redis →
      x.now ≤ y.now → Q (.ok a) y)
    (herr : ∀ e y, x.Idle y → Q (.error e) y) : wp (served lib) Q (Op.perform (.db o)) x := by
  apply wp_perform.mpr
  rintro x₁ hx₁ r y ⟨did, hans⟩
  obtain ⟨hans, rfl⟩ := answer_acknowledged hans
  have hans : (machine lib).Answer (.db o) x₁ r r y := hans.of_reliable.1
  have hidle := hx₁.idle
  obtain ⟨hredis, houtbox, hnow⟩ := answer_db_frame hans
  refine ⟨trivial, ?_⟩
  obtain ⟨-, -, ⟨e, rfl, hdb⟩ | ⟨c, a, rfl, heval⟩⟩ := answer_write ho hans
  · exact herr e y ⟨hdb.trans hidle.db, hredis.trans hidle.redis, houtbox.trans hidle.outbox,
      hnow ▸ hidle.now⟩
  · rw [hidle.db] at heval
    exact hcommit c _ a y heval (hredis.trans hidle.redis) (hnow ▸ hidle.now)

/-- A Redis command. -/
theorem served_redis (caller : Caller) (c : Command Key Stored)
    {Q : Except Err c.Res → World → Prop}
    (hQ : ∀ y, x.Idle y → Q (.ok (y.redis.exec y.now c).1)
      { y with redis := (y.redis.exec y.now c).2 }) :
    wp (served lib) Q (Op.perform (.redis caller c)) x := by
  apply wp_perform.mpr
  rintro x₁ hx₁ r y ⟨did, hans⟩
  refine ⟨trivial, ?_⟩
  obtain ⟨hr, rfl⟩ := answer_steadyRedis (answer_acknowledged hans).1
  rw [hr]
  exact hQ x₁ hx₁.idle

end Rules

/-! ## True entries -/

/-- What the cache holds of a group is what the tables show, except perhaps of the group `but`. -/
structure CacheTrue (lib : Lib) (but : Option Id) (w : World) : Prop where
  shows : ∀ groupId group, but ≠ some groupId → cachedGroup lib w groupId = some group →
    w.db.Shows groupId group
  ids : ∀ g ∈ w.db.groups, g.id < w.db.nextId

section CacheTrue

variable {lib : Lib} {but : Option Id} {x y : World} {groupId : Id}

/-- An entry is only there until it expires. -/
theorem lookup_of_later {r : Redis Key Stored} {now now' : Time} {k : Key} {raw : Stored}
    (hnow : now ≤ now') (h : r.lookup now' k = some raw) : r.lookup now k = some raw := by
  obtain ⟨slot, hslot, hlive, hvalue⟩ := Redis.lookup_eq_some.mp h
  refine Redis.lookup_eq_some.mpr ⟨slot, hslot, ?_, hvalue⟩
  unfold Slot.live at *
  cases hexp : slot.expiresAt with
  | none => rfl
  | some t =>
    rw [hexp] at hlive
    have hlt : now' < t := of_decide_eq_true hlive
    exact decide_eq_true (lt_of_le_of_lt hnow hlt)

/-- What is in the cache now was in it before, if nothing was put there. -/
theorem cachedGroup_of_later (hredis : y.redis = x.redis) (hnow : x.now ≤ y.now)
    {group : GroupWithMembers} (h : cachedGroup lib y groupId = some group) :
    cachedGroup lib x groupId = some group := by
  obtain ⟨raw, hraw, hgroup⟩ := Option.bind_eq_some_iff.mp h
  rw [hredis] at hraw
  exact Option.bind_eq_some_iff.mpr ⟨raw, lookup_of_later hnow hraw, hgroup⟩

/-- The entries stay true while nothing is written. -/
theorem CacheTrue.idle (h : CacheTrue lib but x) (hidle : x.Idle y) : CacheTrue lib but y where
  shows := fun g group hg hcached => by
    rw [hidle.db]
    exact h.shows g group hg (cachedGroup_of_later hidle.redis hidle.now hcached)
  ids := by
    rw [hidle.db]
    exact h.ids

/-- The transactions on a group draw new ids and add no group. -/
theorem GroupWrite.ids {o : DbOp} (ho : GroupWrite groupId o)
    {t : Choice → Time → Tx Db Err Metric o.Res} (ht : o.access = .write t) {c : Choice}
    {now : Time} {d d' : Db} {r : o.Res} (heval : (t c now).eval d = .ok (r, d')) :
    (∀ g' ∈ d'.groups, ∃ g ∈ d.groups, g.id = g'.id) ∧ d.nextId ≤ d'.nextId := by
  -- Of the group's row only the name changes.
  cases ho with
  | update name a =>
    obtain rfl := Access.write.inj ht
    obtain ⟨old, event, -, -, -, rfl⟩ := updateGroupWithEvent_eq_ok heval
    refine ⟨fun g' hg' => ?_, Nat.le_succ _⟩
    obtain ⟨g, hg, ⟨-, rfl⟩ | ⟨-, rfl⟩⟩ := mem_updateWhere.mp hg' <;> exact ⟨g, hg, rfl⟩
  | delete =>
    obtain rfl := Access.write.inj ht
    obtain rfl := Prisma.groupDelete_eq_ok heval
    exact ⟨fun g hg => ⟨g, List.mem_of_mem_filter hg, rfl⟩, Nat.le_refl _⟩
  | addMember memberId a =>
    obtain rfl := Access.write.inj ht
    obtain ⟨event, -, -, -, -, rfl⟩ := addGroupMemberWithEvent_eq_ok heval
    exact ⟨fun g hg => ⟨g, hg, rfl⟩, Nat.le_add_right _ 2⟩
  | removeMember memberId a =>
    obtain rfl := Access.write.inj ht
    obtain ⟨event, -, -, rfl⟩ := removeGroupMemberWithEvent_eq_ok heval
    exact ⟨fun g hg => ⟨g, hg, rfl⟩, Nat.le_add_right _ 1⟩

/-- A transaction on a group leaves the entries of the others true. -/
theorem CacheTrue.write (h : CacheTrue lib none x) {o : DbOp} (ho : GroupWrite groupId o)
    {t : Choice → Time → Tx Db Err Metric o.Res} (ht : o.access = .write t) {c : Choice}
    {now : Time} {r : o.Res} (heval : (t c now).eval x.db = .ok (r, y.db))
    (hredis : y.redis = x.redis) (hnow : x.now ≤ y.now) : CacheTrue lib (some groupId) y := by
  obtain ⟨hgroups, hnext⟩ := ho.ids ht heval
  constructor
  · intro g group hg hcached
    have hne : groupId ≠ g := fun heq => hg (congrArg some heq)
    have hold : x.db.Shows g group := by
      apply h.shows g group
      · rintro ⟨⟩
      · exact cachedGroup_of_later hredis hnow hcached
    exact ho.shows ht heval hne hold
  · intro g' hg'
    obtain ⟨g, hg, hid⟩ := hgroups g' hg'
    exact hid ▸ lt_of_lt_of_le (h.ids g hg) hnext

/-- Once the entry of a group is dropped, all entries are true. -/
theorem CacheTrue.drop (h : CacheTrue lib (some groupId) x) :
    CacheTrue lib none { x with redis := (x.redis.exec x.now (.del [.cacheGroup groupId])).2 } := by
  refine ⟨fun g group _ hcached => ?_, h.ids⟩
  obtain ⟨raw, hraw, hgroup⟩ := Option.bind_eq_some_iff.mp hcached
  obtain ⟨slot, hslot, hlive, hvalue⟩ := Redis.lookup_eq_some.mp hraw
  have hslot : (if Key.cacheGroup g ∈ [Key.cacheGroup groupId] then none else
      x.redis.strings (.cacheGroup g)) = some slot := hslot
  split at hslot
  · cases hslot
  · next hne =>
    apply h.shows g group
    · intro heq
      obtain rfl := Option.some.inj heq
      exact hne List.mem_cons_self
    · exact Option.bind_eq_some_iff.mpr
        ⟨raw, Redis.lookup_eq_some.mpr ⟨slot, hslot, hlive, hvalue⟩, hgroup⟩

/-- What was read from the tables may be put into the cache. -/
theorem CacheTrue.put (h : CacheTrue lib none x) {group : GroupWithMembers}
    (hgroup : x.db.Shows groupId group) (ttlMs : ℕ) :
    CacheTrue lib none { x with redis := (x.redis.exec x.now
      (.set (.cacheGroup groupId) (.json (GroupCache.serialize group)) ttlMs)).2 } := by
  refine ⟨fun g found _ hcached => ?_, h.ids⟩
  obtain ⟨raw, hraw, hfound⟩ := Option.bind_eq_some_iff.mp hcached
  obtain ⟨slot, hslot, hlive, hvalue⟩ := Redis.lookup_eq_some.mp hraw
  by_cases heq : g = groupId
  · -- The new entry reads back as the group that was put.
    subst heq
    rw [Redis.exec_set_self] at hslot
    obtain rfl := Option.some.inj hslot
    have hvalue : Stored.json (GroupCache.serialize group) = raw := hvalue
    have hread : GroupCache.deserialize lib (.json (GroupCache.serialize group)) g =
        some found := by
      rw [hvalue]
      exact hfound
    rw [← hgroup.id_eq, GroupCache.deserialize_serialize] at hread
    exact Option.some.inj hread ▸ hgroup
  · have hleaves : Command.LeavesKey (Key.cacheGroup g)
        (Command.set (.cacheGroup groupId) (Stored.json (GroupCache.serialize group)) ttlMs) := by
      intro hkey
      exact heq (Key.cacheGroup.inj hkey).symm
    rw [Redis.exec_strings_of_leavesKey x.redis hleaves] at hslot
    apply h.shows g found
    · rintro ⟨⟩
    · exact Option.bind_eq_some_iff.mpr
        ⟨raw, Redis.lookup_eq_some.mpr ⟨slot, hslot, hlive, hvalue⟩, hfound⟩

end CacheTrue

/-! ## The calls -/

/-- The calls that show a group or change something that a group shows. -/
inductive DetailCall
  | createGroup (userId : Id) (name : String)
  | updateGroup (userId groupId : Id) (name : String)
  | addGroupMember (userId groupId memberId : Id)
  | removeGroupMember (userId groupId memberId : Id)
  | deleteGroup (userId groupId : Id)
  | updateCurrentUser (userId : Id) (name email : Option String)
  | getGroupById (userId groupId : Id)

namespace DetailCall

/-- The program of a call. -/
def body (env : Env) (lib : Lib) : DetailCall → Act Unit
  | createGroup userId name => void (GroupService.createGroup userId name)
  | updateGroup userId groupId name => void (GroupService.updateGroup userId groupId name)
  | addGroupMember userId groupId memberId =>
    void (GroupService.addGroupMember userId groupId memberId)
  | removeGroupMember userId groupId memberId =>
    GroupService.removeGroupMember userId groupId memberId
  | deleteGroup userId groupId => GroupService.deleteGroup userId groupId
  | updateCurrentUser userId name email => void (AuthService.updateCurrentUser lib userId name email)
  | getGroupById userId groupId => void (GroupService.getGroupById env lib userId groupId)

/-- A call that changes a user leaves the name and the address as they are, or is refused since the
address belongs to someone else, or the cache holds no group of which the user is a member. -/
def Unseen (lib : Lib) (w : World) : DetailCall → Prop
  | updateCurrentUser userId name email =>
    (∀ u ∈ w.db.user? userId, (∀ n ∈ name, n = u.name) ∧ ∀ a ∈ email, a = u.email) ∨
    (∃ a ∈ email, ∃ u ∈ w.db.users.find? (·.email = a), u.id ≠ userId) ∨
    ∀ m ∈ w.db.groupMembers, m.userId = userId → (cachedGroup lib w m.groupId).isNone
  | _ => True

instance (lib : Lib) (w : World) : DecidablePred (Unseen lib w) := fun c => by
  cases c <;> unfold Unseen <;> infer_instance

end DetailCall

section Calls

variable {lib : Lib} {α : Type} {w x : World} {groupId : Id}

/-- The entry of a group is dropped. -/
theorem invalidateGroupCache_wp (h : CacheTrue lib (some groupId) x)
    {Q : Except Err Unit → World → Prop} (hQ : ∀ r y, CacheTrue lib none y → Q r y) :
    wp (served lib) Q (GroupCache.invalidateGroupCache groupId) x := by
  unfold GroupCache.invalidateGroupCache
  apply wp_bind.mpr
  apply wp_attempt.mpr
  apply served_redis
  intro y hidle
  apply hQ
  exact (h.idle hidle).drop

/-- A transaction on a group is committed, and then all entries but the group's are true, or it is
not. -/
theorem groupWrite_wp {o : DbOp} (ho : GroupWrite groupId o)
    {t : Choice → Time → Tx Db Err Metric o.Res} (ht : o.access = .write t)
    (h : CacheTrue lib none x) {Q : Except Err o.Res → World → Prop}
    (hcommit : ∀ a y, CacheTrue lib (some groupId) y → Q (.ok a) y)
    (herr : ∀ e y, CacheTrue lib none y → Q (.error e) y) :
    wp (served lib) Q (Op.perform (.db o)) x := by
  apply served_write o ht
  · intro c now a y heval hredis hnow
    exact hcommit a y (h.write ho ht heval hredis hnow)
  · intro e y hidle
    exact herr e y (h.idle hidle)

/-- A query before the rest of a call that keeps the entries true. -/
theorem read_bind_wp (o : DbOp) {f : Choice → Db → o.Res} (ho : o.access = .read f)
    {g : o.Res → Act α} (h : CacheTrue lib none x)
    (hg : ∀ r y, CacheTrue lib none y → wp (served lib) (fun _ => CacheTrue lib none) (g r) y) :
    wp (served lib) (fun _ => CacheTrue lib none) ((Op.perform (.db o)).bind g) x := by
  apply wp_bind.mpr
  apply served_read o ho
  · intro c y hidle
    exact hg _ y (h.idle hidle)
  · intro y hidle
    exact h.idle hidle

/-- The check with which the calls of a group's owner begin. -/
theorem ownerCheck_served {userId : Id} {message : String} {rest : Group → Act α}
    (h : CacheTrue lib none x)
    (hrest : ∀ g y, CacheTrue lib none y →
      wp (served lib) (fun _ => CacheTrue lib none) (rest g) y) :
    wp (served lib) (fun _ => CacheTrue lib none)
      ((GroupRepository.findGroupById groupId).bind fun group =>
        (Prog.expect group GroupService.groupNotFound).bind fun group =>
          (Prog.ensure (group.createdById = userId)
            (forbiddenError .notGroupOwner message)).bind fun _ => rest group) x := by
  refine read_bind_wp (.group (.findGroupById groupId)) rfl h fun group y hy => ?_
  refine wp_expect_bind.mpr ⟨fun g _ => ?_, fun _ => hy⟩
  exact wp_ensure_bind.mpr ⟨fun _ => hrest g y hy, fun _ => hy⟩

/-- A rename leaves no entry behind that is not true. -/
theorem updateGroup_true (h : CacheTrue lib none w) (userId groupId : Id) (name : String) :
    wp (served lib) (fun _ => CacheTrue lib none) (GroupService.updateGroup userId groupId name)
      w := by
  refine ownerCheck_served h fun g x hx => ?_
  apply wp_bind.mpr
  apply wp_bind.mpr
  refine served_read (.group (.updateGroupExists groupId)) rfl (fun c x₁ h₁ => ?_)
    fun y hidle => hx.idle hidle
  show wp _ _ (if _ then _ else _) x₁
  split
  · apply wp_bind.mpr
    refine groupWrite_wp (.update name _) rfl (hx.idle h₁) (fun updated x₂ h₂ => ?_)
      fun e y hy => hy
    refine wp_expect_bind.mpr ⟨fun _ _ => ?_, fun hnone => by cases hnone⟩
    apply wp_bind.mpr
    apply invalidateGroupCache_wp h₂
    intro r y hy
    cases r <;> exact hy
  · exact hx.idle h₁

/-- A deletion leaves no entry behind that is not true. -/
theorem deleteGroup_true (h : CacheTrue lib none w) (userId groupId : Id) :
    wp (served lib) (fun _ => CacheTrue lib none) (GroupService.deleteGroup userId groupId) w := by
  refine ownerCheck_served h fun g x hx => ?_
  apply wp_bind.mpr
  refine groupWrite_wp .delete rfl hx (fun _ x₁ h₁ => ?_) fun e y hy => hy
  exact invalidateGroupCache_wp h₁ fun r y hy => hy

/-- A new member leaves no entry behind that is not true. -/
theorem addGroupMember_true (h : CacheTrue lib none w) (userId groupId memberId : Id) :
    wp (served lib) (fun _ => CacheTrue lib none)
      (GroupService.addGroupMember userId groupId memberId) w := by
  refine ownerCheck_served h fun g x hx => ?_
  refine read_bind_wp (.group (.findUserById memberId)) rfl hx fun user x₁ h₁ => ?_
  refine wp_expect_bind.mpr ⟨fun u _ => ?_, fun _ => h₁⟩
  refine read_bind_wp (.group (.isGroupMember groupId memberId)) rfl h₁ fun isMember x₂ h₂ => ?_
  refine wp_ensure_bind.mpr ⟨fun _ => ?_, fun _ => h₂⟩
  apply wp_bind.mpr
  refine groupWrite_wp (.addMember memberId _) rfl h₂ (fun member x₃ h₃ => ?_) fun e y hy => hy
  apply wp_bind.mpr
  apply invalidateGroupCache_wp h₃
  intro r y hy
  cases r <;> exact hy

/-- A member's removal leaves no entry behind that is not true. -/
theorem removeGroupMember_true (h : CacheTrue lib none w) (userId groupId memberId : Id) :
    wp (served lib) (fun _ => CacheTrue lib none)
      (GroupService.removeGroupMember userId groupId memberId) w := by
  refine ownerCheck_served h fun g x hx => ?_
  refine wp_ensure_bind.mpr ⟨fun _ => ?_, fun _ => hx⟩
  refine read_bind_wp (.group (.findGroupMember groupId memberId)) rfl hx fun member x₁ h₁ => ?_
  refine wp_expect_bind.mpr ⟨fun m _ => ?_, fun _ => h₁⟩
  refine read_bind_wp (.group (.findUserById memberId)) rfl h₁ fun user x₂ h₂ => ?_
  refine wp_expect_bind.mpr ⟨fun u _ => ?_, fun _ => h₂⟩
  apply wp_bind.mpr
  refine groupWrite_wp (.removeMember memberId _) rfl h₂ (fun _ x₃ h₃ => ?_) fun e y hy => hy
  exact invalidateGroupCache_wp h₃ fun r y hy => hy

/-- A new group has a new id, which no entry names. -/
theorem createGroup_true (h : CacheTrue lib none w) (userId : Id) (name : String) :
    wp (served lib) (fun _ => CacheTrue lib none) (GroupService.createGroup userId name) w := by
  apply wp_bind.mpr
  apply served_write (.group (.createGroupWithOwner userId name _)) rfl
  · intro c now g y heval hredis hnow
    obtain ⟨event, hg, -, hevent, hdb⟩ := createGroupWithOwner_eq_ok heval
    have hid : g.id = w.db.nextId := by rw [hg]
    have hy : CacheTrue lib none y := by
      constructor
      · intro other group _ hcached
        have hold : w.db.Shows other group := by
          apply h.shows other group
          · rintro ⟨⟩
          · exact cachedGroup_of_later hredis hnow hcached
        -- The new group has an id that no cached group has, so that the rows of those are the same.
        obtain ⟨c, hc⟩ := hold
        obtain ⟨row, hrow, -⟩ := Option.map_eq_some_iff.mp hc
        have hrowid : row.id = other := by simpa using List.find?_some hrow
        have hne : g.id ≠ other := by
          rw [hid, ← hrowid]
          exact (h.ids row (List.mem_of_find?_eq_some hrow)).ne'
        have hrows : y.db.rowsOf other = w.db.rowsOf other := by
          rw [hdb]
          unfold Db.rowsOf
          congr 1
          · exact List.filter_cons_of_neg (by simpa using hne)
          · exact List.filter_cons_of_neg (by simpa using hne)
          · exact List.filter_cons_of_neg (by simpa [hevent.1] using hne)
        have husers : y.db.users = w.db.users := by rw [hdb]
        exact Db.Shows.congr hrows husers ⟨c, hc⟩
      · intro g' hg'
        have hnext : y.db.nextId = w.db.nextId + 3 := by rw [hdb]
        have hgroups : y.db.groups = g :: w.db.groups := by rw [hdb]
        rw [hgroups] at hg'
        rw [hnext]
        rcases List.mem_cons.mp hg' with rfl | hg'
        · rw [hid]
          exact Nat.lt_add_of_pos_right (by decide)
        · exact Nat.lt_add_right 3 (h.ids g' hg')
    apply wp_bind.mpr
    apply served_of_alone
    apply alone_idle (.metric _) trivial
    intro r z hidle
    cases r <;> exact hy.idle hidle
  · intro e y hidle
    exact h.idle hidle

/-- What a user looks like after a change of `userId`. -/
theorem safeUser_update {d d' : Db} {userId : Id} {data : UserData} {old : User}
    (hold : d.user? userId = some old)
    (hdb : d' = { d with users := updateWhere (·.id = userId) data.applyTo d.users }) (v : Id) :
    d'.safeUser v = if v = userId then (data.applyTo old).safe else d.safeUser v := by
  let changed : User → Bool := fun u => u.id = userId
  -- The change keeps every identifier, so it may be made before or after the search.
  have hkeeps : ∀ u : User, decide ((data.applyTo u).id = v) = decide (u.id = v) := fun _ => rfl
  have hfind : d'.user? v =
      (d.user? v).map fun u => if changed u then data.applyTo u else u := by
    rw [hdb]
    exact @find?_updateWhere _ changed (fun u => decide (u.id = v)) _ hkeeps d.users
  unfold Db.safeUser
  rw [hfind]
  by_cases hv : v = userId
  · have hid : old.id = userId := by simpa using List.find?_some hold
    rw [hv, hold, Option.map_some, if_pos (decide_eq_true hid), if_pos rfl]
  · rw [if_neg hv]
    cases hother : d.user? v with
    | none => rfl
    | some u =>
      have hid : u.id = v := by simpa using List.find?_some hother
      have hkept : changed u ≠ true := fun hchanged => hv (hid ▸ of_decide_eq_true hchanged)
      rw [Option.map_some, if_neg hkept]

/-- A group whose members look the same is shown as before. -/
theorem shows_of_users {d d' : Db} {users : List User} (hdb : d' = { d with users := users })
    (hsafe : ∀ m ∈ d.membersOf groupId, d'.safeUser m.userId = d.safeUser m.userId)
    {group : GroupWithMembers} (h : d.Shows groupId group) : d'.Shows groupId group := by
  obtain ⟨c, hc⟩ := h
  refine ⟨c, ?_⟩
  rw [← hc]
  have hgroup : d'.group? groupId = d.group? groupId := by rw [hdb]; rfl
  have hmembers : d'.membersOf groupId = d.membersOf groupId := by rw [hdb]; rfl
  unfold groupWithMembers?
  rw [hgroup, hmembers]
  congr 1
  funext g
  congr 1
  apply List.map_congr_left
  intro m hm
  exact hsafe m (Choice.mem_arrange.mp hm)

/-- A change of a user that no entry shows. -/
theorem CacheTrue.updateUser (h : CacheTrue lib none w) {userId : Id} {name email : Option String}
    {marker : Option (Option Time)} {u : User} (hidle : w.Idle x)
    (hunseen : (∀ u ∈ w.db.user? userId, (∀ n ∈ name, n = u.name) ∧ ∀ a ∈ email, a = u.email) ∨
      ∀ m ∈ w.db.groupMembers, m.userId = userId → (cachedGroup lib w m.groupId).isNone)
    {y : World} (hupdate : Prisma.userUpdate userId ⟨name, email, marker⟩ x.db = .ok (u, y.db))
    (hredis : y.redis = x.redis) (hnow : x.now ≤ y.now) : CacheTrue lib none y := by
  rw [hidle.db] at hupdate
  obtain ⟨old, hold, -, hdb⟩ := userUpdate_eq_ok hupdate
  have hsafe := safeUser_update hold hdb
  constructor
  · intro g group _ hcached
    have hcached : cachedGroup lib w g = some group :=
      cachedGroup_of_later (hredis.trans hidle.redis) (Nat.le_trans hidle.now hnow) hcached
    have hshows : w.db.Shows g group := by
      apply h.shows g group
      · rintro ⟨⟩
      · exact hcached
    refine shows_of_users hdb (fun m hm => ?_) hshows
    rw [hsafe]
    split
    · next hm' =>
      rcases hunseen with hsame | hnone
      · obtain ⟨hname, hemail⟩ := hsame old hold
        have hname' : name.getD old.name = old.name := by
          cases name with
          | none => rfl
          | some n => exact hname n rfl
        have hemail' : email.getD old.email = old.email := by
          cases email with
          | none => rfl
          | some a => exact hemail a rfl
        have hold' : w.db.safeUser m.userId = old.safe := by
          unfold Db.safeUser
          rw [hm', hold]
        rw [hold']
        show (⟨old.id, name.getD old.name, email.getD old.email⟩ : SafeUser) = _
        rw [hname', hemail']
        rfl
      · -- The group of this member is in the cache.
        obtain ⟨hmem, hgroup⟩ := List.mem_filter.mp hm
        have hnone := hnone m hmem hm'
        rw [of_decide_eq_true hgroup, hcached] at hnone
        cases hnone
    · rfl
  · have hgroups : y.db.groups = w.db.groups := by rw [hdb]
    have hnext : y.db.nextId = w.db.nextId := by rw [hdb]
    rw [hgroups, hnext]
    exact h.ids

/-- A change of the profile invalidates nothing: the entries stay true where no cached group shows
the user. -/
theorem updateCurrentUser_true (h : CacheTrue lib none w) {userId : Id}
    {name email : Option String}
    (hunseen : DetailCall.Unseen lib w (.updateCurrentUser userId name email)) :
    wp (served lib) (fun _ => CacheTrue lib none)
      (AuthService.updateCurrentUser lib userId name email)
      w := by
  apply wp_bind.mpr
  refine served_read (.auth (.findById userId)) rfl (fun c x₁ h₁ => ?_) fun y hidle => h.idle hidle
  refine wp_expect_bind.mpr ⟨fun user _ => ?_, fun _ => h.idle h₁⟩
  apply wp_bind.mpr
  -- The address is free, or the call is refused.
  have hfree : wp (served lib) (fun r y => w.Idle y ∧ (r = .ok () →
      ¬∃ a ∈ email, ∃ u ∈ w.db.users.find? (·.email = a), u.id ≠ userId))
      (AuthService.assertEmailFree userId email) x₁ := by
    cases email with
    | none =>
      refine ⟨h₁, fun _ hused => ?_⟩
      obtain ⟨a, ha, -⟩ := hused
      cases ha
    | some address =>
      apply wp_bind.mpr
      refine served_read (.auth (.findByEmail address)) rfl (fun c x₂ h₂ => ?_) fun y hidle =>
        ⟨h₁.trans hidle, fun hok => by cases hok⟩
      refine wp_ensure.mpr ⟨fun hown => ⟨h₁.trans h₂, fun _ hused => ?_⟩, fun _ =>
        ⟨h₁.trans h₂, fun hok => by cases hok⟩⟩
      obtain ⟨a, ha, u, hu, hne⟩ := hused
      obtain rfl := Option.some.inj ha
      rw [← h₁.db] at hu
      exact hne (hown u hu)
  refine wp_mono ?_ hfree
  rintro (e | _) x₂ ⟨h₂, hused⟩
  · exact h.idle h₂
  have hunseen := hunseen.imp_right fun hrest => hrest.resolve_left (hused rfl)
  apply wp_bind.mpr
  apply wp_bind.mpr
  refine served_read (.auth (.updateExists userId)) rfl (fun c x₃ h₃ => ?_) fun y hidle =>
    h.idle (h₂.trans hidle)
  show wp _ _ (if _ then _ else _) x₃
  split
  · apply wp_bind.mpr
    refine served_write (.auth (.update userId _)) rfl (fun c now r x₄ heval hredis hnow => ?_)
      fun e y hidle => h.idle ((h₂.trans h₃).trans hidle)
    obtain ⟨updated, d₁, hupdate, hpure⟩ := Tx.eval_bind_eq_ok.mp heval
    obtain ⟨-, rfl⟩ := Prod.mk.inj (Except.ok.inj hpure)
    exact h.updateUser (h₂.trans h₃) hunseen hupdate hredis hnow
  · exact h.idle (h₂.trans h₃)

/-- What the tables answer to `getGroupById`, if the database answers. -/
def FromTables (db : Db) (userId groupId : Id) : Except Err GroupWithMembers → Prop
  | .ok group => db.Shows groupId group ∧ userId ∈ db.memberIds groupId
  | .error e => e = .prisma .unavailable ∨
    db.group? groupId = none ∧ e = GroupService.groupNotFound ∨
    (∃ c group, groupWithMembers? c db groupId = some group) ∧ userId ∉ db.memberIds groupId ∧
      e = GroupService.notGroupMember

/-- `getGroupById` answers what the tables answer, and keeps the entries true. -/
theorem getGroupById_true (h : CacheTrue lib none w) (env : Env) (userId groupId : Id) :
    wp (served lib) (fun r y => CacheTrue lib none y ∧ FromTables w.db userId groupId r)
      (GroupService.getGroupById env lib userId groupId) w := by
  have hunavailable : ∀ y, w.Idle y → CacheTrue lib none y ∧
      FromTables w.db userId groupId (.error (.prisma .unavailable)) :=
    fun y hidle => ⟨h.idle hidle, .inl rfl⟩
  apply wp_bind.mpr
  have hcached : wp (served lib)
      (fun r y => w.Idle y ∧ ∃ found, r = .ok found ∧ ∀ group ∈ found, w.db.Shows groupId group)
      (GroupCache.getCachedGroupById lib groupId) w := by
    unfold GroupCache.getCachedGroupById
    apply wp_bind.mpr
    apply wp_attempt.mpr
    apply served_redis
    intro y hidle
    have hlookup : (y.redis.exec y.now (.get (.cacheGroup groupId))).1 =
        y.redis.lookup y.now (.cacheGroup groupId) := rfl
    rw [hlookup]
    cases hraw : y.redis.lookup y.now (.cacheGroup groupId) with
    | none =>
      refine ⟨hidle, none, rfl, fun group hgroup => ?_⟩
      cases hgroup
    | some raw =>
      refine ⟨hidle, _, rfl, fun group hgroup => ?_⟩
      have hfound : cachedGroup lib y groupId = some group :=
        Option.bind_eq_some_iff.mpr ⟨raw, hraw, hgroup⟩
      apply h.shows groupId group
      · rintro ⟨⟩
      · exact cachedGroup_of_later hidle.redis hidle.now hfound
  refine wp_mono ?_ hcached
  rintro _ x ⟨hx, found, rfl, hfound⟩
  cases found with
  | some group =>
    -- The entry shows the group, and only the requester is looked up.
    have hshows : w.db.Shows groupId group := hfound group rfl
    apply wp_bind.mpr
    refine served_read (.group (.isGroupMember groupId userId)) rfl (fun c y hy => ?_)
      fun y hidle => hunavailable y (hx.trans hidle)
    have hidle : w.Idle y := hx.trans hy
    rw [hx.db]
    refine wp_ensure_bind.mpr ⟨fun hmem => ?_, fun hno => ?_⟩
    · exact ⟨h.idle hidle, hshows, Db.isSome_member?.mp hmem⟩
    · obtain ⟨c, hc⟩ := hshows
      exact ⟨h.idle hidle, .inr (.inr ⟨⟨c, group, hc⟩,
        fun hmem => hno (Db.isSome_member?.mpr hmem), rfl⟩)⟩
  | none =>
    apply wp_bind.mpr
    refine served_read (.group (.findGroupByIdWithMembers groupId)) rfl (fun c y hy => ?_)
      fun y hidle => hunavailable y (hx.trans hidle)
    have hidle : w.Idle y := hx.trans hy
    rw [hx.db]
    refine wp_expect_bind.mpr ⟨fun group hgroup => ?_, fun hnone => ?_⟩
    · apply wp_bind.mpr
      refine served_read (.group (.isGroupMember groupId userId)) rfl (fun c' z hz => ?_)
        fun z hidle' => hunavailable z (hidle.trans hidle')
      have hidle' : w.Idle z := hidle.trans hz
      rw [hidle.db]
      refine wp_ensure_bind.mpr ⟨fun hmem => ?_, fun hno => ?_⟩
      · -- What was read is put into the cache.
        have hmember := Db.isSome_member?.mp hmem
        have hshows : w.db.Shows groupId group := ⟨c, hgroup⟩
        apply wp_bind.mpr
        unfold GroupCache.setCachedGroupById
        apply wp_bind.mpr
        apply wp_attempt.mpr
        apply served_redis
        intro z' hz'
        have hlast : w.Idle z' := hidle'.trans hz'
        have hshows' : z'.db.Shows groupId group := hlast.db ▸ hshows
        exact ⟨(h.idle hlast).put hshows' _, hshows, hmember⟩
      · exact ⟨h.idle hidle', .inr (.inr ⟨⟨c, group, hgroup⟩,
          fun hmem => hno (Db.isSome_member?.mpr hmem), rfl⟩)⟩
    · exact ⟨h.idle hidle, .inr (.inl ⟨Option.map_eq_none_iff.mp hnone, rfl⟩)⟩

/-- A call that no entry gives away keeps the entries true. -/
theorem detailCall_true (h : CacheTrue lib none w) (env : Env) {c : DetailCall}
    (hc : c.Unseen lib w) :
    wp (served lib) (fun _ => CacheTrue lib none) (c.body env lib) w := by
  cases c with
  | createGroup userId name => exact wp_void (createGroup_true h userId name)
  | updateGroup userId groupId name => exact wp_void (updateGroup_true h userId groupId name)
  | addGroupMember userId groupId memberId =>
    exact wp_void (addGroupMember_true h userId groupId memberId)
  | removeGroupMember userId groupId memberId =>
    exact removeGroupMember_true h userId groupId memberId
  | deleteGroup userId groupId => exact deleteGroup_true h userId groupId
  | updateCurrentUser userId name email => exact wp_void (updateCurrentUser_true h hc)
  | getGroupById userId groupId =>
    apply wp_void
    exact wp_mono (fun _ _ hy => hy.1) (getGroupById_true h env userId groupId)

end Calls

/-! ## Without the cache -/

/-- `getGroupById` with the cache removed. -/
def getGroupByIdUncached (userId groupId : Id) : Act GroupWithMembers := do
  let group ← GroupRepository.findGroupByIdWithMembers groupId
  let group ← Prog.expect group GroupService.groupNotFound
  let isMember ← GroupRepository.isGroupMember groupId userId
  Prog.ensure isMember GroupService.notGroupMember
  return group

section Uncached

variable {lib : Lib} {w w' : World} {userId groupId : Id} {r : Except Err GroupWithMembers}

/-- What the tables answer is what can be answered without the cache. -/
theorem exec_of_fromTables (h : FromTables w.db userId groupId r) :
    ∃ w', Exec (acknowledged lib) World.Later (getGroupByIdUncached userId groupId) w r w' := by
  have hread : ∀ (o : DbOp) (f : Choice → Db → o.Res), o.access = .read f → ∀ c,
      (acknowledged lib).Answer (.db o) w (.ok (f c w.db)) (.ok (f c w.db)) w := by
    intro o f ho c
    have hexec : (Op.db o).exec lib c w = (.ok (f c w.db), w) := by
      show o.access.exec c w = _
      rw [ho]
      rfl
    have hdone := @Machine.Answer.done _ _ _ (acknowledged lib) (.db o) w c
    have hexec' : (acknowledged lib).exec (.db o) c w = (.ok (f c w.db), w) := hexec
    rw [hexec'] at hdone
    exact hdone
  have hgroup : ∀ c, _ := hread (.group (.findGroupByIdWithMembers groupId)) _ rfl
  have hmember : ∀ c, _ := hread (.group (.isGroupMember groupId userId)) _ rfl
  -- Every answer from the tables is that of a run in which they answer so.
  cases r with
  | ok group =>
    obtain ⟨⟨c, hc⟩, hmem⟩ := h
    refine ⟨w, .call (World.later_refl w) (hgroup c) ?_⟩
    rw [hc]
    refine .call (World.later_refl w) (hmember {}) ?_
    have hmem : (w.db.member? groupId userId).isSome = true := Db.isSome_member?.mpr hmem
    rw [hmem]
    exact .ret group w
  | error e =>
    rcases h with rfl | ⟨hnone, rfl⟩ | ⟨⟨c, group, hc⟩, hmem, rfl⟩
    · have hfails : (acknowledged lib).fails
          (.db (.group (.findGroupByIdWithMembers groupId))) (.prisma .unavailable) := by
        refine ⟨?_, rfl⟩
        rintro ⟨caller, c, ho⟩
        cases ho
      exact ⟨w, .call (World.later_refl w) (.failed _ hfails) (.throw _ w)⟩
    · refine ⟨w, .call (World.later_refl w) (hgroup {}) ?_⟩
      have hnone : groupWithMembers? {} w.db groupId = none := Option.map_eq_none_iff.mpr hnone
      rw [hnone]
      exact .throw _ w
    · refine ⟨w, .call (World.later_refl w) (hgroup c) ?_⟩
      rw [hc]
      refine .call (World.later_refl w) (hmember {}) ?_
      have hmem : (w.db.member? groupId userId).isSome = false := by
        rw [Bool.eq_false_iff]
        exact fun h => hmem (Db.isSome_member?.mp h)
      rw [hmem]
      exact .throw _ w

/-- What is answered without the cache is what the tables answer. -/
theorem fromTables_of_uncached
    (hx : Exec (acknowledged lib) World.Later (getGroupByIdUncached userId groupId) w r w') :
    FromTables w.db userId groupId r := by
  have hwp : wp (served lib) (fun r _ => FromTables w.db userId groupId r)
      (getGroupByIdUncached userId groupId) w := by
    apply wp_bind.mpr
    refine served_read (.group (.findGroupByIdWithMembers groupId)) rfl (fun c x hx => ?_)
      fun _ _ => .inl rfl
    refine wp_expect_bind.mpr ⟨fun group hgroup => ?_, fun hnone => ?_⟩
    · apply wp_bind.mpr
      refine served_read (.group (.isGroupMember groupId userId)) rfl (fun c' y hy => ?_)
        fun _ _ => .inl rfl
      rw [hx.db]
      refine wp_ensure_bind.mpr ⟨fun hmem => ?_, fun hno => ?_⟩
      · exact ⟨⟨c, hgroup⟩, Db.isSome_member?.mp hmem⟩
      · exact .inr (.inr ⟨⟨c, group, hgroup⟩, fun hmem => hno (Db.isSome_member?.mpr hmem), rfl⟩)
    · exact .inr (.inl ⟨Option.map_eq_none_iff.mp hnone, rfl⟩)
  exact hx.sound hwp

/-- The same answer, up to the order of the members. -/
def SameAnswer : Except Err GroupWithMembers → Except Err GroupWithMembers → Prop
  | .ok g, .ok g' => { g with members := g'.members } = g' ∧ g.members.Perm g'.members
  | .error e, .error e' => e = e'
  | _, _ => False

/-- The tables show a group in one way, up to the order of its members. -/
theorem Db.Shows.same {db : Db} {g g' : GroupWithMembers} (h : db.Shows groupId g)
    (h' : db.Shows groupId g') : SameAnswer (.ok g) (.ok g') := by
  obtain ⟨c, hc⟩ := h
  obtain ⟨c', hc'⟩ := h'
  obtain ⟨row, hrow, rfl⟩ := Option.map_eq_some_iff.mp hc
  obtain ⟨row', hrow', rfl⟩ := Option.map_eq_some_iff.mp hc'
  obtain rfl := Option.some.inj (hrow.symm.trans hrow')
  refine ⟨rfl, ?_⟩
  exact ((c.arrange_perm _ _ _).trans (c'.arrange_perm _ _ _).symm).map _

/-- If the database answers, the tables leave open nothing but the order of the members. -/
theorem FromTables.same {db : Db} {r r' : Except Err GroupWithMembers}
    (h : FromTables db userId groupId r) (h' : FromTables db userId groupId r')
    (hr : r ≠ .error (.prisma .unavailable)) (hr' : r' ≠ .error (.prisma .unavailable)) :
    SameAnswer r r' := by
  -- A group that is shown exists, so that the refusals exclude each other.
  have hgroup : ∀ {g}, db.Shows groupId g → db.group? groupId ≠ none := by
    rintro g ⟨c, hc⟩ hnone
    have hc : (db.group? groupId).map _ = some g := hc
    rw [hnone] at hc
    cases hc
  cases r with
  | ok g =>
    cases r' with
    | ok g' => exact h.1.same h'.1
    | error e' =>
      rcases h' with rfl | ⟨hnone, -⟩ | ⟨-, hno, -⟩
      · exact hr' rfl
      · exact hgroup h.1 hnone
      · exact hno h.2
  | error e =>
    rcases h with rfl | ⟨hnone, rfl⟩ | ⟨⟨c, g, hg⟩, hno, rfl⟩
    · exact absurd rfl hr
    · cases r' with
      | ok g' => exact hgroup h'.1 hnone
      | error e' =>
        rcases h' with rfl | ⟨-, rfl⟩ | ⟨⟨c, g, hg⟩, -, -⟩
        · exact absurd rfl hr'
        · rfl
        · exact absurd hnone (hgroup ⟨c, hg⟩)
    · cases r' with
      | ok g' => exact hno h'.2
      | error e' =>
        rcases h' with rfl | ⟨hnone, -⟩ | ⟨-, -, rfl⟩
        · exact absurd rfl hr'
        · exact absurd hnone (hgroup ⟨c, hg⟩)
        · rfl

end Uncached

/-! ## Runs -/

/-- No group is in the cache, and the next id is new to the groups. -/
def NothingCached (w : World) : Prop :=
  (∀ groupId, w.redis.lookup w.now (.cacheGroup groupId) = none) ∧
    ∀ g ∈ w.db.groups, g.id < w.db.nextId

/-- After runs in which no change of a user meets an entry that shows it, the entries are true. -/
theorem cacheTrue_of_sequence {lib : Lib} {env : Env} {w : World}
    (h : Sequence (acknowledged lib) World.Later (DetailCall.body env lib)
      (fun c w => c.Unseen lib w) NothingCached w) : CacheTrue lib none w := by
  refine Sequence.invariant (CacheTrue lib none) ?_ ?_ ?_ h
  · rintro w ⟨hnone, hids⟩
    refine ⟨fun g group _ hcached => ?_, hids⟩
    unfold cachedGroup at hcached
    rw [hnone g] at hcached
    cases hcached
  · intro w w' hw hlater
    exact hw.idle hlater.idle
  · intro c w hw hc
    exact detailCall_true hw env hc

/-- `getGroupById` cannot be told from itself without the cache: its answer is one that may be given
without the cache, and every answer that is given without it is the same, up to the order of the
members, unless the database is unavailable to one of them. -/
structure Transparent (env : Env) (lib : Lib) (w : World) (userId groupId : Id) : Prop where
  answered : ∀ r w', Exec (acknowledged lib) World.Later
    (GroupService.getGroupById env lib userId groupId) w r w' →
      ∃ w'', Exec (acknowledged lib) World.Later (getGroupByIdUncached userId groupId) w r w''
  same : ∀ r w' r' w'', Exec (acknowledged lib) World.Later
    (GroupService.getGroupById env lib userId groupId) w r w' →
      Exec (acknowledged lib) World.Later (getGroupByIdUncached userId groupId) w r' w'' →
        r ≠ .error (.prisma .unavailable) → r' ≠ .error (.prisma .unavailable) → SameAnswer r r'

/-- After such runs nobody can tell that there is a cache. -/
theorem cache_transparent {lib : Lib} {env : Env} {w : World}
    (h : Sequence (acknowledged lib) World.Later (DetailCall.body env lib)
      (fun c w => c.Unseen lib w) NothingCached w) (userId groupId : Id) :
    Transparent env lib w userId groupId := by
  have htrue := cacheTrue_of_sequence h
  constructor
  · intro r w' hx
    exact exec_of_fromTables (hx.sound (getGroupById_true htrue env userId groupId)).2
  · intro r w' r' w'' hx hx' hr hr'
    have htables := (hx.sound (getGroupById_true htrue env userId groupId)).2
    exact htables.same (fromTables_of_uncached hx') hr hr'

/-- A group of two users is shown, and a user who is no member takes another name. -/
def renamesStranger : List DetailCall :=
  [.createGroup 1 "Trip", .addGroupMember 1 20 2, .updateGroup 1 20 "Tour", .getGroupById 1 20,
    .updateCurrentUser 3 (some "Cid") none]

/-- A user whom the cached group does not show takes another name. -/
theorem cache_transparent_stranger : ∃ w,
    (acknowledged .plain).runAll (DetailCall.body {} .plain) (fun c w => c.Unseen .plain w) {}
      renamesStranger threeMembers = some w ∧
    (cachedGroup .plain w 20).map (·.name) = some "Tour" ∧ Transparent {} .plain w 1 20 := by
  have hrun : ((acknowledged .plain).runAll (DetailCall.body {} .plain)
      (fun c w => c.Unseen .plain w) {} renamesStranger threeMembers).map
        (fun w => (cachedGroup .plain w 20).map (·.name)) = some (some "Tour") := by decide +kernel
  obtain ⟨w, h, hcached⟩ := Option.map_eq_some_iff.mp hrun
  have hstart : NothingCached threeMembers := ⟨fun _ => rfl, by decide⟩
  have hseq : Sequence (acknowledged .plain) World.Later (DetailCall.body {} .plain)
      (fun c w => c.Unseen .plain w) NothingCached w :=
    .of_runAll World.later_refl (.start hstart) h
  exact ⟨w, h, hcached, cache_transparent hseq 1 20⟩

/-- A group of two users is shown, and one of them takes another name. -/
def renamesMember : List DetailCall :=
  [.createGroup 1 "Trip", .addGroupMember 1 20 2, .getGroupById 1 20,
    .updateCurrentUser 2 (some "Bob") none]

/-- The names of the members that an answer shows. -/
def namesIn (r : Except Err GroupWithMembers) : Option (List String) :=
  r.toOption.map fun group => group.members.map (·.name)

/-- The group is shown with the old name afterwards. -/
theorem not_cache_transparent : ∃ w,
    Sequence (acknowledged .plain) World.Later (DetailCall.body {} .plain) (fun _ _ => True)
      NothingCached w ∧ ¬Transparent {} .plain w 1 20 := by
  let M := acknowledged .plain
  let shown := GroupService.getGroupById {} .plain 1 20
  let uncached := getGroupByIdUncached 1 20
  have hrun : (M.runAll (DetailCall.body {} .plain) (fun _ _ => True) {} renamesMember
      threeMembers).map (fun w => (namesIn (M.run {} shown w).1, namesIn (M.run {} uncached w).1)) =
        some (some ["A", "B"], some ["A", "Bob"]) := by decide +kernel
  obtain ⟨w, h, hnames⟩ := Option.map_eq_some_iff.mp hrun
  obtain ⟨hshown, huncached⟩ := Prod.mk.inj hnames
  have hstart : NothingCached threeMembers := ⟨fun _ => rfl, by decide⟩
  refine ⟨w, .of_runAll World.later_refl (.start hstart) h, fun htransparent => ?_⟩
  have hok : ∀ {r : Except Err GroupWithMembers} {names}, namesIn r = some names →
      ∃ group, r = .ok group ∧ group.members.map (·.name) = names := by
    intro r names hr
    cases r with
    | error e => cases hr
    | ok group => exact ⟨group, rfl, Option.some.inj hr⟩
  obtain ⟨g, hg, hold⟩ := hok hshown
  obtain ⟨g', hg', hnew⟩ := hok huncached
  have hx := M.exec_run World.later_refl {} shown w
  have hx' := M.exec_run World.later_refl {} uncached w
  rw [hg] at hx
  rw [hg'] at hx'
  -- The two answers would be the same up to order, and one has the old name.
  have hsame : SameAnswer (.ok g) (.ok g') :=
    htransparent.same _ _ _ _ hx hx' (fun he => by cases he) fun he => by cases he
  have hperm := hsame.2.map (·.name)
  rw [hold, hnew] at hperm
  exact absurd hperm (by decide)

end SplitBill
