import Mathlib.Data.List.Infix
import SplitBill.Groups.CacheEntry
import SplitBill.Interleave.Replay

/-!
# Freshness of cached groups

`getGroupById` puts into the cache what it read from the database some steps before, and the calls
that change a group delete its entry after their transaction. A reader whose query comes before a
transaction and whose put comes after the deletion therefore leaves an old entry behind. In runs in
which no reader puts a group that some call has changed and deleted since the reader's query, a
reader that starts when a change has returned shows the group as it was at the change or later.
-/

namespace SplitBill

open Interleave

/-- A reader of a group, or a call that changes one. -/
inductive CacheCall
  | getGroupById (userId groupId : Id)
  | updateGroup (userId groupId : Id) (name : String)
  | deleteGroup (userId groupId : Id)
  | addGroupMember (userId groupId memberId : Id)
  | removeGroupMember (userId groupId memberId : Id)
  deriving DecidableEq

/-- The program of a call, which shows a group if it is a reader. -/
def CacheCall.body (env : Env) (lib : Lib) : CacheCall → Act (Option GroupWithMembers)
  | getGroupById userId groupId => do
    let group ← GroupService.getGroupById env lib userId groupId
    return some group
  | updateGroup userId groupId name => do
    let _ ← GroupService.updateGroup userId groupId name
    return none
  | deleteGroup userId groupId => do
    GroupService.deleteGroup userId groupId
    return none
  | addGroupMember userId groupId memberId => do
    let _ ← GroupService.addGroupMember userId groupId memberId
    return none
  | removeGroupMember userId groupId memberId => do
    GroupService.removeGroupMember userId groupId memberId
    return none

/-- These calls, side by side, with a Redis that answers every command. -/
abbrev cacheSystem (lib : Lib) (env : Env) :
    System backend Err (Option GroupWithMembers) World where
  machine := steadyRedis lib
  Call := CacheCall
  body := CacheCall.body env lib
  valid := fun _ => True
  env := World.Later

instance (lib : Lib) (env : Env) : DecidablePred (cacheSystem lib env).valid :=
  fun _ => isTrue trivial

/-! ## What the log says -/

/-- The group that an entry read from the database, with what its caller saw. -/
def groupRead? : BackendEntry → Option (Id × GroupWithMembers)
  | ⟨_, .db (.group (.findGroupByIdWithMembers groupId)), _, _, .ok (some group), _⟩ =>
    some (groupId, group)
  | _ => none

/-- The group that an entry changed. -/
def groupChanged? : BackendEntry → Option Id
  | ⟨_, .db (.group (.updateGroup groupId _ _)), _, .ok _, _, _⟩ => some groupId
  | ⟨_, .db (.group (.deleteGroup groupId)), _, .ok _, _, _⟩ => some groupId
  | ⟨_, .db (.group (.addGroupMember groupId _ _)), _, .ok _, _, _⟩ => some groupId
  | ⟨_, .db (.group (.removeGroupMember groupId _ _)), _, .ok _, _, _⟩ => some groupId
  | _ => none

/-- The group whose entry an operation puts into the cache. -/
def cachePut? : Op → Option Id
  | .redis _ (.set (.cacheGroup groupId) _ _) => some groupId
  | _ => none

/-- The group whose entry an operation deletes from the cache. -/
def cacheDropped? : Op → Option Id
  | .redis _ (.del [.cacheGroup groupId]) => some groupId
  | _ => none

/-- The group that an entry found in the cache, with what it reads as. -/
def cacheHit? (lib : Lib) : BackendEntry → Option (Id × GroupWithMembers)
  | ⟨_, .redis _ (.get (.cacheGroup groupId)), _, _, .ok (some raw), _⟩ =>
    (GroupCache.deserialize lib raw groupId).map (groupId, ·)
  | _ => none

/-- At the entry `x` of the log or later, the tables showed the group like this. -/
def ShownSince (x : BackendEntry) (groupId : Id) (group : GroupWithMembers)
    (log : List BackendEntry) : Prop :=
  ∃ y l, y :: l <:+ log ∧ (y = x ∨ x ∈ l) ∧ y.post.db.Shows groupId group

/-- The entries since a call read a group from the database. -/
def sinceGroupRead (pid : ℕ) (log : List BackendEntry) : List BackendEntry :=
  sinceLast pid (fun e => (groupRead? e).isSome) log

/-- A group is put into the cache only when no call both changed it and deleted its entry since the
reader read it. -/
def PutsInTime (pid : ℕ) (o : Op) (h : Hist backend Err World) : Prop :=
  match cachePut? o with
  | some groupId => ∀ d ∈ sinceGroupRead pid h.log, cacheDropped? d.op = some groupId →
    ∀ x ∈ sinceGroupRead pid h.log, x.pid = d.pid → groupChanged? x ≠ some groupId
  | none => True

instance (pid : ℕ) (o : Op) (h : Hist backend Err World) : Decidable (PutsInTime pid o h) := by
  unfold PutsInTime
  split <;> infer_instance

/-- The system, in runs in which no reader puts a group too late. -/
abbrev timelyCacheSystem (lib : Lib) (env : Env) :
    System backend Err (Option GroupWithMembers) World :=
  { cacheSystem lib env with allow := PutsInTime }

instance (lib : Lib) (env : Env) : DecidablePred (timelyCacheSystem lib env).valid :=
  fun _ => isTrue trivial

/-! ## What a call does -/

/-- An operation reads the cache, deletes from it, or puts into it a group that the call has just
read. -/
def UsesCache (own : List BackendEntry) (o : Op) : Prop :=
  ∀ caller c, o = .redis caller c → (∃ k, c = .get k) ∨ (∃ ks, c = .del ks) ∨
    ∃ groupId group ttl r, c = .set (.cacheGroup groupId) (.json (GroupCache.serialize group)) ttl ∧
      own.find? (fun e => (groupRead? e).isSome) = some r ∧ groupRead? r = some (groupId, group)

/-- What a reader shows it read from the database or found in the cache, and it changed nothing. -/
structure Shown (lib : Lib) (groupId : Id) (group : GroupWithMembers)
    (own : List BackendEntry) : Prop where
  quiet : ∀ x ∈ own, groupChanged? x = none
  seen : ∃ x ∈ own, groupRead? x = some (groupId, group) ∨ cacheHit? lib x = some (groupId, group)

/-- The entry of every group that a call changed it deleted from the cache later. -/
def Dropped (own : List BackendEntry) : Prop :=
  ∀ x ∈ own, ∀ groupId, groupChanged? x = some groupId →
    ∃ y l, y :: l <:+ own ∧ x ∈ l ∧ cacheDropped? y.op = some groupId

/-- How a call ends that returns. -/
def CacheCall.Ends (lib : Lib) (c : CacheCall) (r : Except Err (Option GroupWithMembers))
    (own : List BackendEntry) : Prop :=
  ∀ a, r = .ok a → Dropped own ∧ ∀ group, a = some group → ∀ userId groupId,
    c = .getGroupById userId groupId → Shown lib groupId group own

section Calls

variable {lib : Lib} {env : Env} {pid : ℕ} {own : List BackendEntry}

/-- A database access. -/
theorem usesCache_db {o : DbOp} : UsesCache own (.db o) := by
  rintro caller c ⟨⟩

/-- What a reader shows when the cache had nothing for it. -/
theorem readThrough_wp (userId groupId : Id) {e : BackendEntry} (he : groupChanged? e = none) :
    wp ((steadyRedis lib).ownLog pid UsesCache)
      (fun r own => ∀ group, r = .ok group → Shown lib groupId group own)
      (do
        let group ← GroupRepository.findGroupByIdWithMembers groupId
        let group ← Prog.expect group GroupService.groupNotFound
        let isMember ← GroupRepository.isGroupMember groupId userId
        Prog.ensure isMember GroupService.notGroupMember
        GroupCache.setCachedGroupById env groupId group
        return group) [e] := by
  have herr : ∀ (e : Err) (own : List BackendEntry) (group : GroupWithMembers),
      (.error e : Except Err GroupWithMembers) = .ok group → Shown lib groupId group own := by
    rintro e own group ⟨⟩
  -- The two queries of a miss, and then the put of what the first one read.
  refine wp_ownLog_bind herr usesCache_db fun w₁ did₁ found w₁' _ => ?_
  refine wp_expect_bind.mpr ⟨?_, fun _ => herr _ _⟩
  rintro group rfl
  refine wp_ownLog_bind herr usesCache_db fun w₂ did₂ isMember w₂' _ => ?_
  refine wp_ensure_bind.mpr ⟨fun _ => ?_, fun _ => herr _ _⟩
  refine wp_bind.mpr ?_
  unfold GroupCache.setCachedGroupById
  refine wp_bind.mpr (wp_attempt.mpr (wp_ownLog_perform ?_ fun w₃ did₃ r₃ w₃' hans => ?_))
  · rintro caller c h
    cases h
    exact .inr (.inr ⟨groupId, group, _, _, rfl, rfl, rfl⟩)
  obtain ⟨rfl, -⟩ := answer_steadyRedis hans
  rintro group' h
  cases h
  refine ⟨fun x hx => ?_, _, List.mem_cons_of_mem _ (List.mem_cons_of_mem _ List.mem_cons_self),
    .inl rfl⟩
  simp only [List.mem_cons, List.not_mem_nil, or_false] at hx
  rcases hx with rfl | rfl | rfl | rfl
  · rfl
  · rfl
  · rfl
  · exact he

/-- The reader. -/
theorem getGroupById_wp (userId groupId : Id) :
    wp ((steadyRedis lib).ownLog pid UsesCache)
      (fun r own => ∀ group, r = .ok group → Shown lib groupId group own)
      (GroupService.getGroupById env lib userId groupId) [] := by
  have herr : ∀ (e : Err) (own : List BackendEntry) (group : GroupWithMembers),
      (.error e : Except Err GroupWithMembers) = .ok group → Shown lib groupId group own := by
    rintro e own group ⟨⟩
  refine wp_bind.mpr ?_
  unfold GroupCache.getCachedGroupById
  refine wp_bind.mpr (wp_attempt.mpr (wp_ownLog_perform ?_ fun w did r w' hans => ?_))
  · rintro caller c h
    cases h
    exact .inl ⟨_, rfl⟩
  obtain ⟨rfl, -⟩ := answer_steadyRedis hans
  generalize (w.redis.exec w.now (.get (.cacheGroup groupId))).1 = hit
  rcases hit with _ | raw
  · exact readThrough_wp userId groupId rfl
  · cases hcached : GroupCache.deserialize lib raw groupId with
    | none =>
      -- An entry that does not read as the group is a miss as well.
      have hmiss := @readThrough_wp lib env pid userId groupId
        ⟨pid, .redis .groupCache (.get (.cacheGroup groupId)), w, did, .ok (some raw), w'⟩ rfl
      simp only [andThen, wp, Prog.pure_eq, hcached]
      exact hmiss
    | some cached =>
      simp only [andThen, wp, Prog.pure_eq, hcached]
      refine wp_ownLog_bind herr usesCache_db fun w₁ did₁ isMember w₁' _ => ?_
      refine wp_ensure_bind.mpr ⟨fun _ => ?_, fun _ => herr _ _⟩
      rintro group h
      cases h
      refine ⟨fun x hx => ?_, _, List.mem_cons_of_mem _ List.mem_cons_self, .inr ?_⟩
      · simp only [List.mem_cons, List.not_mem_nil, or_false] at hx
        rcases hx with rfl | rfl <;> rfl
      · exact congrArg (Option.map fun group => (groupId, group)) hcached

/-- An entry changed a group by one of the transactions for it. -/
theorem groupWrite_of_changed {e : BackendEntry} {groupId : Id}
    (h : groupChanged? e = some groupId) : ∃ o, e.op = .db o ∧ GroupWrite groupId o := by
  unfold groupChanged? at h
  split at h
  · obtain rfl := Option.some.inj h
    exact ⟨_, rfl, .update _ _⟩
  · obtain rfl := Option.some.inj h
    exact ⟨_, rfl, .delete⟩
  · obtain rfl := Option.some.inj h
    exact ⟨_, rfl, .addMember _ _⟩
  · obtain rfl := Option.some.inj h
    exact ⟨_, rfl, .removeMember _ _⟩
  · cases h

/-- The deletion of a group's entry after the call changed this group. -/
theorem invalidate_wp {groupId : Id} {o : DbOp} (ho : GroupWrite groupId o) {x : BackendEntry}
    (hx : x.op = .db o) {l : List BackendEntry} (hl : ∀ e ∈ l, groupChanged? e = none) :
    wp ((steadyRedis lib).ownLog pid UsesCache) (fun r own => ∀ b, r = .ok b → Dropped own)
      (GroupCache.invalidateGroupCache groupId) (x :: l) := by
  unfold GroupCache.invalidateGroupCache
  refine wp_bind.mpr (wp_attempt.mpr (wp_ownLog_perform ?_ fun w did r w' hans => ?_))
  · rintro caller c h
    cases h
    exact .inr (.inl ⟨_, rfl⟩)
  obtain ⟨rfl, -⟩ := answer_steadyRedis hans
  rintro _ - e he g hg
  rcases List.mem_cons.mp he with rfl | he
  · cases hg
  · rcases List.mem_cons.mp he with rfl | he
    · obtain ⟨o', ho', hwrite⟩ := groupWrite_of_changed hg
      obtain rfl := Op.db.inj (hx.symm.trans ho')
      obtain rfl := ho.eq hwrite
      exact ⟨_, _, List.suffix_rfl, List.mem_cons_self, rfl⟩
    · rw [hl e he] at hg
      cases hg

/-- A call that shows no group. -/
theorem ends_of_dropped {α : Type} {c : CacheCall} {p : Act α} {own : List BackendEntry}
    (h : wp ((steadyRedis lib).ownLog pid UsesCache)
      (fun r own => ∀ b, r = .ok b → Dropped own) p own) :
    wp ((steadyRedis lib).ownLog pid UsesCache) (CacheCall.Ends lib c)
      (p.bind fun _ => .ret none) own := by
  refine wp_bind.mpr (wp_mono ?_ h)
  rintro (e | b) own hdropped
  · rintro a ⟨⟩
  · rintro a ⟨⟩
    exact ⟨hdropped b rfl, fun group h => by cases h⟩

/-- An error says nothing. -/
theorem dropped_of_error {α : Type} (e : Err) (own : List BackendEntry) (b : α)
    (h : (.error e : Except Err α) = .ok b) : Dropped own := by
  cases h

/-- The rest of a call after its transaction, which changed this group: it deletes the group's entry
and returns. -/
theorem dropAndReturn_wp {α : Type} {groupId : Id} {o : DbOp} (ho : GroupWrite groupId o)
    {x : BackendEntry} (hx : x.op = .db o) {l : List BackendEntry}
    (hl : ∀ e ∈ l, groupChanged? e = none) (a : α) :
    wp ((steadyRedis lib).ownLog pid UsesCache) (fun r own => ∀ b, r = .ok b → Dropped own)
      ((GroupCache.invalidateGroupCache groupId).bind fun _ => .ret a) (x :: l) := by
  refine wp_bind.mpr (wp_mono ?_ (invalidate_wp ho hx hl))
  rintro (e | b) own hdropped
  · exact dropped_of_error e own
  · intro b' _
    exact hdropped b rfl

/-- The name of a group. -/
theorem updateGroup_wp (userId groupId : Id) (name : String) :
    wp ((steadyRedis lib).ownLog pid UsesCache) (fun r own => ∀ b, r = .ok b → Dropped own)
      (GroupService.updateGroup userId groupId name) [] := by
  refine wp_ownLog_bind dropped_of_error usesCache_db fun w₁ did₁ group w₁' _ => ?_
  refine wp_expect_bind.mpr ⟨fun group _ => ?_, fun _ => dropped_of_error _ _⟩
  refine wp_ensure_bind.mpr ⟨fun _ => ?_, fun _ => dropped_of_error _ _⟩
  refine wp_bind.mpr ?_
  refine wp_ownLog_bind (fun e own => dropped_of_error e own) usesCache_db
    fun w₂ did₂ existing w₂' _ => ?_
  cases existing with
  | false => exact dropped_of_error _ _
  | true =>
    refine wp_ownLog_bind (fun e own => dropped_of_error e own) usesCache_db
      fun w₃ did₃ updated w₃' _ => ?_
    refine dropAndReturn_wp (.update _ _) rfl (fun e he => ?_) updated
    simp only [List.mem_cons, List.not_mem_nil, or_false] at he
    rcases he with rfl | rfl <;> rfl

/-- A group goes away. -/
theorem deleteGroup_wp (userId groupId : Id) :
    wp ((steadyRedis lib).ownLog pid UsesCache) (fun r own => ∀ b, r = .ok b → Dropped own)
      (GroupService.deleteGroup userId groupId) [] := by
  refine wp_ownLog_bind dropped_of_error usesCache_db fun w₁ did₁ group w₁' _ => ?_
  refine wp_expect_bind.mpr ⟨fun group _ => ?_, fun _ => dropped_of_error _ _⟩
  refine wp_ensure_bind.mpr ⟨fun _ => ?_, fun _ => dropped_of_error _ _⟩
  refine wp_ownLog_bind dropped_of_error usesCache_db fun w₂ did₂ _ w₂' _ => ?_
  refine invalidate_wp .delete rfl fun e he => ?_
  rcases List.mem_singleton.mp he with rfl
  rfl

/-- One member more. -/
theorem addGroupMember_wp (userId groupId memberId : Id) :
    wp ((steadyRedis lib).ownLog pid UsesCache) (fun r own => ∀ b, r = .ok b → Dropped own)
      (GroupService.addGroupMember userId groupId memberId) [] := by
  refine wp_ownLog_bind dropped_of_error usesCache_db fun w₁ did₁ group w₁' _ => ?_
  refine wp_expect_bind.mpr ⟨fun group _ => ?_, fun _ => dropped_of_error _ _⟩
  refine wp_ensure_bind.mpr ⟨fun _ => ?_, fun _ => dropped_of_error _ _⟩
  refine wp_ownLog_bind dropped_of_error usesCache_db fun w₂ did₂ target w₂' _ => ?_
  refine wp_expect_bind.mpr ⟨fun target _ => ?_, fun _ => dropped_of_error _ _⟩
  refine wp_ownLog_bind dropped_of_error usesCache_db fun w₃ did₃ isMember w₃' _ => ?_
  refine wp_ensure_bind.mpr ⟨fun _ => ?_, fun _ => dropped_of_error _ _⟩
  refine wp_ownLog_bind dropped_of_error usesCache_db
    fun w₄ did₄ member w₄' _ => ?_
  refine dropAndReturn_wp (.addMember _ _) rfl (fun e he => ?_) member
  simp only [List.mem_cons, List.not_mem_nil, or_false] at he
  rcases he with rfl | rfl | rfl <;> rfl

/-- One member less. -/
theorem removeGroupMember_wp (userId groupId memberId : Id) :
    wp ((steadyRedis lib).ownLog pid UsesCache) (fun r own => ∀ b, r = .ok b → Dropped own)
      (GroupService.removeGroupMember userId groupId memberId) [] := by
  refine wp_ownLog_bind dropped_of_error usesCache_db fun w₁ did₁ group w₁' _ => ?_
  refine wp_expect_bind.mpr ⟨fun group _ => ?_, fun _ => dropped_of_error _ _⟩
  refine wp_ensure_bind.mpr ⟨fun _ => ?_, fun _ => dropped_of_error _ _⟩
  refine wp_ensure_bind.mpr ⟨fun _ => ?_, fun _ => dropped_of_error _ _⟩
  refine wp_ownLog_bind dropped_of_error usesCache_db fun w₂ did₂ member w₂' _ => ?_
  refine wp_expect_bind.mpr ⟨fun member _ => ?_, fun _ => dropped_of_error _ _⟩
  refine wp_ownLog_bind dropped_of_error usesCache_db fun w₃ did₃ target w₃' _ => ?_
  refine wp_expect_bind.mpr ⟨fun target _ => ?_, fun _ => dropped_of_error _ _⟩
  refine wp_ownLog_bind dropped_of_error usesCache_db
    fun w₄ did₄ _ w₄' _ => ?_
  refine invalidate_wp (.removeMember _ _) rfl fun e he => ?_
  simp only [List.mem_cons, List.not_mem_nil, or_false] at he
  rcases he with rfl | rfl | rfl <;> rfl

/-- Every call. -/
theorem body_ends (c : CacheCall) :
    wp ((steadyRedis lib).ownLog pid UsesCache) (CacheCall.Ends lib c) (c.body env lib) [] := by
  cases c with
  | getGroupById userId groupId =>
    refine wp_bind.mpr (wp_mono ?_ (@getGroupById_wp _ env _ userId groupId))
    rintro (e | group) own hshown
    · rintro a ⟨⟩
    · rintro a ⟨⟩
      have hgroup := hshown group rfl
      refine ⟨fun x hx g hg => ?_, fun group' h userId' groupId' hc => ?_⟩
      · rw [hgroup.quiet x hx] at hg
        cases hg
      · cases h
        cases hc
        exact hgroup
  | updateGroup userId groupId name => exact ends_of_dropped (updateGroup_wp userId groupId name)
  | deleteGroup userId groupId => exact ends_of_dropped (deleteGroup_wp userId groupId)
  | addGroupMember userId groupId memberId =>
    exact ends_of_dropped (addGroupMember_wp userId groupId memberId)
  | removeGroupMember userId groupId memberId =>
    exact ends_of_dropped (removeGroupMember_wp userId groupId memberId)

end Calls

/-! ## What the cache holds -/

/-- What a query of a group read, the tables show. -/
theorem shows_of_read {lib : Lib} {e : BackendEntry}
    (hans : (machine lib).Answer e.op e.pre e.did e.seen e.post) {groupId : Id}
    {group : GroupWithMembers} (h : groupRead? e = some (groupId, group)) :
    e.post.db.Shows groupId group := by
  unfold groupRead? at h
  split at h
  · obtain ⟨rfl, rfl⟩ := Prod.mk.inj (Option.some.inj h)
    exact shows_of_answer hans
  · cases h

/-- After the deletion of its entry nothing is cached for a group. -/
theorem empty_of_dropped {lib : Lib} {e : BackendEntry}
    (hans : (steadyRedis lib).Answer e.op e.pre e.did e.seen e.post) {groupId : Id}
    (h : cacheDropped? e.op = some groupId) :
    e.post.redis.strings (.cacheGroup groupId) = none := by
  obtain ⟨pid, o, pre, did, seen, post⟩ := e
  replace h : cacheDropped? o = some groupId := h
  unfold cacheDropped? at h
  split at h
  · rename_i g
    obtain rfl := Option.some.inj h
    have hpost : post = { pre with redis := pre.redis.remove [.cacheGroup g] } :=
      (answer_steadyRedis hans).2
    rw [hpost]
    exact if_pos (List.mem_singleton.mpr rfl)
  · cases h

/-- What a reader found in the cache was there, and reads as the group. -/
theorem slot_of_hit {lib : Lib} {e : BackendEntry}
    (hans : (steadyRedis lib).Answer e.op e.pre e.did e.seen e.post) {groupId : Id}
    {group : GroupWithMembers} (h : cacheHit? lib e = some (groupId, group)) :
    ∃ slot, e.pre.redis.strings (.cacheGroup groupId) = some slot ∧
      GroupCache.deserialize lib slot.value groupId = some group := by
  unfold cacheHit? at h
  split at h
  · rename_i pid caller g pre did raw post
    obtain ⟨group', hgroup, heq⟩ := Option.map_eq_some_iff.mp h
    obtain ⟨rfl, rfl⟩ := Prod.mk.inj heq
    have hseen : some raw = pre.redis.lookup pre.now (.cacheGroup g) :=
      Except.ok.inj (answer_steadyRedis hans).1
    obtain ⟨slot, hslot, hlive⟩ := Option.bind_eq_some_iff.mp hseen.symm
    split at hlive
    · obtain rfl := Option.some.inj hlive
      exact ⟨slot, hslot, hgroup⟩
    · cases hlive
  · cases h

section Runs

variable {lib : Lib} {env : Env} {cfg : (timelyCacheSystem lib env).Config}

/-- What the entries of a run are. -/
theorem follows (h : (timelyCacheSystem lib env).Reachable (fun _ => True) cfg) :
    (∀ e l, e :: l <:+ cfg.hist.log → UsesCache (l.filter (·.pid = e.pid)) e.op) ∧
      ∀ pid c a, cfg.procs[pid]? = some (c, .ret a) →
        CacheCall.Ends lib c (.ok a) (cfg.hist.own pid) :=
  System.follows_of_ownLog (fun _ c _ => body_ends c) h

/-- What a reader puts into the cache after a call has changed the group and deleted its entry, it
read after the change. -/
theorem shownSince_put (h : (timelyCacheSystem lib env).Reachable (fun _ => True) cfg)
    {e : BackendEntry} {l : List BackendEntry} (he : e :: l <:+ cfg.hist.log) {groupId : Id}
    {group : GroupWithMembers} (hput : cachePut? e.op = some groupId)
    (hread : ∃ r, (l.filter (·.pid = e.pid)).find? (fun e => (groupRead? e).isSome) = some r ∧
      groupRead? r = some (groupId, group)) {x d : BackendEntry} {earlier : List BackendEntry}
    (hd : d :: earlier <:+ l) (hx : x ∈ earlier) (hpid : x.pid = d.pid)
    (hchanged : groupChanged? x = some groupId) (hdropped : cacheDropped? d.op = some groupId) :
    ShownSince x groupId group cfg.hist.log := by
  obtain ⟨⟨w₀, -, hlinked⟩, -, -⟩ := System.replays h
  obtain ⟨r, hfind, hr⟩ := hread
  obtain ⟨l', hsince⟩ := eq_sinceLast_append hfind
  have hrl : r :: l' <:+ cfg.hist.log :=
    List.IsSuffix.trans ⟨_, hsince.symm⟩ ((List.suffix_cons e l).trans he)
  have hshows : r.post.db.Shows groupId group :=
    shows_of_read (hlinked.of_suffix hrl).2.2.of_reliable.1 hr
  obtain ⟨later, hlater⟩ := hd
  rcases mem_or_between (hlater.trans hsince) hx with hxr | ⟨hxsince, hdsince⟩
  · refine ⟨r, l', hrl, ?_, hshows⟩
    rcases List.mem_cons.mp hxr with rfl | hxl
    · exact .inl rfl
    · exact .inr hxl
  · -- Otherwise both came after the reader's query, and the reader would be too late.
    have htimely : PutsInTime e.pid e.op ⟨e.pre, l⟩ := (hlinked.of_suffix he).2.1
    unfold PutsInTime at htimely
    rw [hput] at htimely
    exact absurd hchanged (htimely d hdsince hdropped x hxsince hpid)

/-- What the cache holds of a group, the tables showed at the entry `x` or later. -/
def FreshSlot (x : BackendEntry) (groupId : Id) (log : List BackendEntry) (w : World) : Prop :=
  ∀ slot, w.redis.strings (.cacheGroup groupId) = some slot →
    ∃ group, slot.value = .json (GroupCache.serialize group) ∧ group.id = groupId ∧
      ShownSince x groupId group log

/-- It stays so once a call has changed the group and deleted its entry. -/
theorem freshSlot_step (h : (timelyCacheSystem lib env).Reachable (fun _ => True) cfg)
    {e : BackendEntry} {l : List BackendEntry} (he : e :: l <:+ cfg.hist.log) {groupId : Id}
    {x d : BackendEntry} {earlier : List BackendEntry} (hd : d :: earlier <:+ l)
    (hx : x ∈ earlier) (hpid : x.pid = d.pid) (hchanged : groupChanged? x = some groupId)
    (hdropped : cacheDropped? d.op = some groupId)
    (hpre : FreshSlot x groupId cfg.hist.log e.pre) :
    FreshSlot x groupId cfg.hist.log e.post := by
  obtain ⟨⟨w₀, -, hlinked⟩, -, -⟩ := System.replays h
  have hans := (hlinked.of_suffix he).2.2
  have huses := (follows h).1 e l he
  have hputs := fun group hput hread =>
    @shownSince_put _ _ _ h _ _ he groupId group hput hread _ _ _ hd hx hpid hchanged hdropped
  intro slot hslot
  obtain ⟨pid, o, pre, did, seen, post⟩ := e
  cases o with
  | redis caller c =>
    obtain rfl : post = { pre with redis := (pre.redis.exec pre.now c).2 } :=
      (answer_steadyRedis hans).2
    -- The cache is read, dropped, or written with a group that its caller has read.
    rcases huses caller c rfl with ⟨k, rfl⟩ | ⟨ks, rfl⟩ | ⟨g, group, ttl, r, rfl, hfind, hr⟩
    · exact hpre slot hslot
    · have hdel : (if Key.cacheGroup groupId ∈ ks then none
          else pre.redis.strings (.cacheGroup groupId)) = some slot := hslot
      split at hdel
      · cases hdel
      · exact hpre slot hdel
    · by_cases hg : g = groupId
      · subst hg
        have hset := (pre.redis.exec_set_self pre.now (.cacheGroup g)
          (.json (GroupCache.serialize group)) ttl).symm.trans hslot
        -- A put after the drop puts what was read after the change.
        have hshown := hputs group rfl ⟨r, hfind, hr⟩
        have hid : group.id = g := by
          obtain ⟨y, l', -, -, hshows⟩ := hshown
          exact hshows.id_eq
        refine ⟨group, ?_, hid, hshown⟩
        rw [← Option.some.inj hset]
      · have hleaves : (Command.set (Key.cacheGroup g) (Stored.json (GroupCache.serialize group))
            ttl).LeavesKey (.cacheGroup groupId) := fun hk => hg (Key.cacheGroup.inj hk)
        refine hpre slot ?_
        rw [← pre.redis.exec_strings_of_leavesKey hleaves]
        exact hslot
  | _ =>
    have hredis : post.redis = pre.redis := answer_redis_eq (by rintro _ _ ⟨⟩) hans.of_reliable.1
    rw [hredis] at hslot
    exact hpre slot hslot

/-- In runs in which no reader puts a group too late, a reader that starts when a change has
returned shows the group as the tables showed it at the change or later. -/
theorem reads_are_fresh {cfg' : (timelyCacheSystem lib env).Config}
    (h : (timelyCacheSystem lib env).Reachable (fun _ => True) cfg)
    (hrun : Relation.ReflTransGen (timelyCacheSystem lib env).Step cfg cfg') {pid : ℕ}
    {c : CacheCall} {a : Option GroupWithMembers} (hwriter : cfg.procs[pid]? = some (c, .ret a))
    {x : BackendEntry} (hx : x ∈ cfg.hist.log) (hpid : x.pid = pid) {groupId : Id}
    (hchanged : groupChanged? x = some groupId) {q : ℕ} {userId : Id} {group : GroupWithMembers}
    (hq : cfg.procs.length ≤ q)
    (hreader : cfg'.procs[q]? = some (.getGroupById userId groupId, .ret (some group))) :
    ShownSince x groupId group cfg'.hist.log := by
  have h' := h.run hrun
  obtain ⟨⟨w₀, -, hlinked⟩, -, -⟩ := System.replays h'
  -- The writer deleted the cached entry after its change, and the reader came later.
  obtain ⟨d, l, hd, hxl, hdpid, hdropped⟩ : ∃ d l, d :: l <:+ cfg.hist.log ∧ x ∈ l ∧
      x.pid = d.pid ∧ cacheDropped? d.op = some groupId := by
    obtain ⟨d, l, hd, hxl, hdropped⟩ :=
      ((follows h).2 pid c a hwriter a rfl).1 x (Hist.mem_own.mpr ⟨hx, hpid⟩) groupId hchanged
    have hdown := (Hist.mem_own.mp (hd.subset List.mem_cons_self)).2
    obtain ⟨l', hd', rfl⟩ := exists_suffix_of_filter hd
    exact ⟨d, l', hd', (List.mem_filter.mp hxl).1, hpid.trans hdown.symm, hdropped⟩
  obtain ⟨y, hy, hseen⟩ := (((follows h').2 q _ _ hreader _ rfl).2 group rfl userId groupId rfl).seen
  obtain ⟨hylog, hyq⟩ := Hist.mem_own.mp hy
  obtain ⟨new, hnew⟩ := System.log_suffix hrun
  have hynew : y ∈ new := by
    rcases List.mem_append.mp (hnew ▸ hylog) with hmem | hmem
    · exact hmem
    · have hlt := (System.replays h).2.1 y hmem
      omega
  obtain ⟨later, earlier, rfl⟩ := List.append_of_mem hynew
  obtain ⟨gone, hgone⟩ := hd
  have hlater : y :: ((earlier ++ gone) ++ d :: l) <:+ cfg'.hist.log := by
    refine ⟨later, ?_⟩
    rw [← hnew, ← hgone]
    simp only [List.append_assoc, List.cons_append]
  have hbefore : x ∈ (earlier ++ gone) ++ d :: l :=
    List.mem_append_right _ (List.mem_cons_of_mem _ hxl)
  obtain ⟨hbetween, -, hans⟩ := hlinked.of_suffix hlater
  rcases hseen with hread | hhit
  · exact ⟨y, _, hlater, .inr hbefore, shows_of_read hans.of_reliable.1 hread⟩
  · -- What the reader found was put there after the deletion.
    have hfresh : FreshSlot x groupId cfg'.hist.log y.pre := by
      refine (hbetween.keeps (P := FreshSlot x groupId cfg'.hist.log) ?_ ?_ ?_).1
      · rintro w w' hw ⟨t, -, rfl⟩
        exact hw
      · intro slot hslot
        have hd : d ∈ cfg'.hist.log :=
          hlater.subset (List.mem_cons_of_mem _ (List.mem_append_right _ List.mem_cons_self))
        rw [empty_of_dropped (hlinked.answer hd) hdropped] at hslot
        cases hslot
      · intro e he hpre
        obtain ⟨l₁, l₂, hsplit⟩ := List.append_of_mem he
        have hsuffix : e :: (l₂ ++ d :: l) <:+ cfg'.hist.log := by
          refine List.IsSuffix.trans ⟨y :: l₁, ?_⟩ hlater
          rw [hsplit]
          simp only [List.append_assoc, List.cons_append]
        exact freshSlot_step h' hsuffix (List.suffix_append _ _) hxl hdpid hchanged hdropped hpre
    obtain ⟨slot, hslot, hcached⟩ := slot_of_hit hans hhit
    obtain ⟨cached, hvalue, hid, hshown⟩ := hfresh slot hslot
    rw [hvalue, ← hid, GroupCache.deserialize_serialize] at hcached
    exact Option.some.inj hcached ▸ hshown

end Runs

/-- A group of two. -/
def tripOfTwo : World where
  db :=
    { users := [⟨1, "A", "a@x.io", none, none⟩, ⟨2, "B", "b@x.io", none, none⟩]
      groups := [⟨10, "Trip", 1, 0, 0⟩]
      groupMembers := [⟨11, 10, 1, 0⟩, ⟨12, 10, 2, 0⟩]
      nextId := 20 }

/-- A reader performs `n` operations, and then the group is renamed. -/
def readAndRename (allow : ℕ → Op → Hist backend Err World → Prop) (n : ℕ) :
    List (System.Action { cacheSystem .plain {} with allow := allow }) := List.flatten
  [[.spawn (.getGroupById 2 10), .spawn (.updateGroup 1 10 "Tour")], System.turns _ 0 {} n,
    System.turns _ 1 {} 4]

/-- The reader performs the rest of its operations, and then another one reads the group. -/
def readAgain (allow : ℕ → Op → Hist backend Err World → Prop) (n : ℕ) :
    List (System.Action { cacheSystem .plain {} with allow := allow }) := List.flatten
  [System.turns _ 0 {} (4 - n), [.spawn (.getGroupById 2 10)], System.turns _ 2 {} 2]

/-- A group is read, renamed and read again. -/
theorem reads_are_fresh_renamed : ∃ cfg cfg', ∃ x ∈ cfg.hist.log, ∃ group,
    (timelyCacheSystem .plain {}).play (readAndRename PutsInTime 1)
      ((timelyCacheSystem .plain {}).start tripOfTwo) = some cfg ∧
    (timelyCacheSystem .plain {}).play (readAgain PutsInTime 1) cfg = some cfg' ∧
    groupChanged? x = some 10 ∧ cfg'.procs[2]? = some (.getGroupById 2 10, .ret (some group)) ∧
    group.name = "Tour" ∧ ShownSince x 10 group cfg'.hist.log := by
  obtain ⟨cfg, hplay, hwriter, ⟨x, hx, hpid, hchanged⟩, hlen, hnext⟩ : ∃ cfg,
      (timelyCacheSystem .plain {}).play (readAndRename PutsInTime 1)
        ((timelyCacheSystem .plain {}).start tripOfTwo) = some cfg ∧
      cfg.returned? Option.isSome 1 = some (.updateGroup 1 10 "Tour", some false) ∧
      (∃ x ∈ cfg.hist.log, x.pid = 1 ∧ groupChanged? x = some 10) ∧ cfg.procs.length = 2 ∧
      ((timelyCacheSystem .plain {}).play (readAgain PutsInTime 1) cfg).any (fun cfg' =>
        decide ((timelyCacheSystem .plain {}).Allowed cfg'.hist.log ∧
          cfg'.returned? (Option.map (·.name)) 2 =
            some (.getGroupById 2 10, some (some "Tour")))) = true :=
    System.exists_of_play (by decide +kernel)
  obtain ⟨cfg', hplay', hall, hreader⟩ := System.exists_of_play hnext
  obtain ⟨a, hwriter, -⟩ := System.Config.exists_of_returned? hwriter
  obtain ⟨shown, hreader, hshown⟩ := System.Config.exists_of_returned? hreader
  obtain ⟨group, rfl, hname⟩ := Option.map_eq_some_iff.mp hshown
  have hrun := System.run_of_play hplay' hall
  have hreach : (timelyCacheSystem .plain {}).Reachable (fun _ => True) cfg :=
    System.reachable_of_allowed (.start trivial) hplay (hall.of_suffix (System.log_suffix hrun))
  exact ⟨cfg, cfg', x, hx, group, hplay, hplay', hchanged, hreader, hname,
    reads_are_fresh hreach hrun hwriter hx hpid hchanged hlen.le hreader⟩

/-- A reader that was told of the old name after the group had been renamed. -/
theorem reads_are_stale : ¬∀ (lib : Lib) (env : Env) (cfg cfg' : (cacheSystem lib env).Config)
    (pid : ℕ) (c : CacheCall) (a : Option GroupWithMembers) (x : BackendEntry) (groupId : Id)
    (q : ℕ) (userId : Id) (group : GroupWithMembers),
    (cacheSystem lib env).Reachable (fun _ => True) cfg →
    Relation.ReflTransGen (cacheSystem lib env).Step cfg cfg' →
    cfg.procs[pid]? = some (c, .ret a) → x ∈ cfg.hist.log → x.pid = pid →
    groupChanged? x = some groupId → cfg.procs.length ≤ q →
    cfg'.procs[q]? = some (.getGroupById userId groupId, .ret (some group)) →
    ShownSince x groupId group cfg'.hist.log := by
  intro hfresh
  obtain ⟨cfg, hplay, hwriter, ⟨x, hx, hpid, hchanged⟩, hlen, hnext⟩ : ∃ cfg,
      (cacheSystem .plain {}).play (readAndRename (fun _ _ _ => True) 3)
        ((cacheSystem .plain {}).start tripOfTwo) = some cfg ∧
      cfg.returned? Option.isSome 1 = some (.updateGroup 1 10 "Tour", some false) ∧
      (∃ x ∈ cfg.hist.log, x.pid = 1 ∧ groupChanged? x = some 10) ∧ cfg.procs.length = 2 ∧
      ((cacheSystem .plain {}).play (readAgain (fun _ _ _ => True) 3) cfg).any (fun cfg' =>
        decide (cfg'.returned? (Option.map (·.name)) 2 =
            some (.getGroupById 2 10, some (some "Trip")) ∧
          ∀ l ∈ cfg'.hist.log.tails, (l.any fun e => groupChanged? e = some 10) = true →
            (l.head?.all fun y => (y.post.db.group? 10).all (·.name = "Tour")) = true)) = true :=
    System.exists_of_play (by decide +kernel)
  obtain ⟨cfg', hplay', hreader, hrenamed⟩ := System.exists_of_play hnext
  obtain ⟨a, hwriter, -⟩ := System.Config.exists_of_returned? hwriter
  obtain ⟨shown, hreader, hshown⟩ := System.Config.exists_of_returned? hreader
  obtain ⟨group, rfl, hname⟩ := Option.map_eq_some_iff.mp hshown
  have hreach : (cacheSystem .plain {}).Reachable (fun _ => True) cfg :=
    System.reachable_of_play (fun _ _ _ => trivial) (.start trivial) hplay
  have hrun := System.run_of_play hplay' (System.allowed_of_forall (fun _ _ _ => trivial) _)
  obtain ⟨y, l, hl, hxy, c, hshows⟩ := hfresh .plain {} cfg cfg' 1 _ a x 10 2 2 group hreach hrun
    hwriter hx hpid hchanged hlen.le hreader
  -- From the change on the tables held the new name.
  have hchange : ((y :: l).any fun e => groupChanged? e = some 10) = true := by
    refine List.any_eq_true.mpr ⟨x, ?_, decide_eq_true hchanged⟩
    rcases hxy with rfl | hxl
    · exact List.mem_cons_self
    · exact List.mem_cons_of_mem _ hxl
  obtain ⟨g, hg, rfl⟩ := Option.map_eq_some_iff.mp hshows
  have htour := hrenamed (y :: l) ((List.mem_tails _ _).mpr hl) hchange
  simp only [List.head?_cons, Option.all_some, hg, decide_eq_true_eq] at htour
  exact absurd (hname.symm.trans htour) (by decide)

end SplitBill
