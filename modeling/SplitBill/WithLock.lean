import SplitBill.DistributedLock
import SplitBill.Interleave.Replay

/-!
# What a lock does to the operation under it

`withLock` of `src/redis/distributedLock.ts`. A whole run of it is a list of entries, and such a
list is cut here into the entries of `acquire`, those of a whole run of the operation, and the one
of `release`. Nothing is assumed of the answers: each operation may be answered in any way, so that
all outcomes of the three parts meet.
-/

namespace SplitBill.DistributedLock

open Interleave

section

variable {α : Type} {env : Env} {key : Key} {operation : Act α} {l : List BackendEntry}
  {r : Except Err α}

/-- The whole runs under a lock, with their outcomes. -/
inductive Guarded (env : Env) (key : Key) (operation : Act α) :
    List BackendEntry → Except Err α → Prop
  /-- Redis failed: the operation is run without the lock. -/
  | degraded {before during : List BackendEntry} {e : Err} {r : Except Err α}
      (hacquire : Replay (acquire env key) before (.ofExcept (.error e)))
      (hrun : Replay operation during (.ofExcept r)) : Guarded env key operation (before ++ during) r
  /-- Another process holds the lock: the operation is not run. -/
  | conflict {before : List BackendEntry}
      (hacquire : Replay (acquire env key) before (.ofExcept (.ok none))) :
      Guarded env key operation before (.error .lockConflict)
  /-- The operation is run under the lock, which is released afterwards, with any answer. -/
  | held {before during : List BackendEntry} {token : Id} {r : Except Err α} {pid : ℕ}
      {pre post : World} {did seen : Except Err Bool}
      (hacquire : Replay (acquire env key) before (.ofExcept (.ok (some token))))
      (hrun : Replay operation during (.ofExcept r)) :
      Guarded env key operation (before ++ during ++
        [⟨pid, .redis .distributedLock (.delIfEq key (.token token)), pre, did, seen, post⟩]) r

/-- What a run of `acquire` tells of the lock: it is refused while the key exists, it is granted
when the key is missing and then the key holds the token, and otherwise Redis failed. -/
def TellsOwner (env : Env) (key : Key) (l : List BackendEntry) : Except Err (Option Id) → Prop
  | .ok none => ∃ e ∈ l, (e.pre.redis.lookup e.pre.now key).isSome = true
  | .ok (some token) => ∃ e ∈ l, e.pre.redis.lookup e.pre.now key = none ∧
      e.post.redis.strings key = some ⟨.token token, some (e.pre.now + env.distributedLockTtlMs)⟩
  | .error e => e = .redis

/-- A run of the operation with the release that follows it. -/
theorem replay_held {token : Id} :
    Replay (operation.attempt.bind fun outcome => (release key token).attempt.bind fun _ =>
      Prog.ofExcept outcome) l (.ofExcept r) ↔
    ∃ during pid pre did seen post, l = during ++
      [⟨pid, .redis .distributedLock (.delIfEq key (.token token)), pre, did, seen, post⟩] ∧
      Replay operation during (.ofExcept r) := by
  constructor
  -- Read forwards, the attempt neither throws nor is skipped, and the release comes last.
  · intro h
    rcases Replay.bind_iff.mp h with ⟨e, -, hattempt⟩ | ⟨outcome, during, rest, rfl, hattempt, hrest⟩
    · obtain ⟨_, ⟨⟩, -⟩ := Replay.attempt_iff.mp hattempt
    obtain ⟨_, ⟨⟩, hrun⟩ := Replay.attempt_iff.mp hattempt
    rcases Replay.bind_iff.mp hrest with ⟨e, -, hattempt⟩ | ⟨answer, after, rest, rfl, hattempt, hend⟩
    · obtain ⟨_, ⟨⟩, -⟩ := Replay.attempt_iff.mp hattempt
    obtain ⟨_, ⟨⟩, hrelease⟩ := Replay.attempt_iff.mp hattempt
    obtain ⟨pid, pre, did, post, rfl⟩ := Replay.perform_iff.mp hrelease
    obtain ⟨rfl, rfl⟩ := Replay.ofExcept_iff.mp hend
    exact ⟨during, pid, pre, did, answer, post, by simp, hrun⟩
  · rintro ⟨during, pid, pre, did, seen, post, rfl, hrun⟩
    have hrelease : Replay (release key token).attempt
        [⟨pid, .redis .distributedLock (.delIfEq key (.token token)), pre, did, seen, post⟩]
        (.ofExcept (.ok seen)) :=
      Replay.attempt_iff.mpr ⟨seen, rfl, Replay.perform_iff.mpr ⟨pid, pre, did, post, rfl⟩⟩
    refine Replay.bind_iff.mpr (.inr ⟨r, during, _, rfl, Replay.attempt_iff.mpr ⟨r, rfl, hrun⟩, ?_⟩)
    exact Replay.bind_iff.mpr (.inr ⟨seen, _, [], by simp, hrelease, .nil _⟩)

/-- The whole runs of `withLock` are those. -/
theorem replay_withLock :
    Replay (withLock env key operation) l (.ofExcept r) ↔ Guarded env key operation l r := by
  unfold withLock
  constructor
  -- The acquisition failed, found the lock taken, or brought the token.
  · intro h
    rcases Replay.bind_iff.mp h with ⟨e, -, hattempt⟩ | ⟨answer, before, rest, rfl, hattempt, h⟩
    · obtain ⟨_, ⟨⟩, -⟩ := Replay.attempt_iff.mp hattempt
    obtain ⟨_, ⟨⟩, hacquire⟩ := Replay.attempt_iff.mp hattempt
    rcases answer with e | _ | token
    · exact .degraded hacquire h
    · obtain ⟨rfl, rfl⟩ := Replay.throw_iff.mp h
      rw [List.append_nil]
      exact .conflict hacquire
    · obtain ⟨during, pid, pre, did, seen, post, rfl, hrun⟩ := replay_held.mp h
      rw [← List.append_assoc]
      exact .held hacquire hrun
  · intro h
    cases h with
    | degraded hacquire hrun =>
      exact Replay.bind_iff.mpr (.inr ⟨_, _, _, rfl, Replay.attempt_iff.mpr ⟨_, rfl, hacquire⟩, hrun⟩)
    | conflict hacquire =>
      exact Replay.bind_iff.mpr
        (.inr ⟨_, _, [], by simp, Replay.attempt_iff.mpr ⟨_, rfl, hacquire⟩, .nil _⟩)
    | held hacquire hrun =>
      refine Replay.bind_iff.mpr (.inr ⟨_, _, _, List.append_assoc _ _ _,
        Replay.attempt_iff.mpr ⟨_, rfl, hacquire⟩, ?_⟩)
      exact replay_held.mpr ⟨_, _, _, _, _, _, rfl, hrun⟩

/-- What the answers of Redis tell of the lock. -/
theorem tellsOwner_acquire {lib : Lib} {r : Except Err (Option Id)}
    (hl : ∀ e ∈ l, (machine lib).Answer e.op e.pre e.did e.seen e.post)
    (h : Replay (acquire env key) l (.ofExcept r)) : TellsOwner env key l r := by
  unfold acquire at h
  rcases Replay.bind_iff.mp h with ⟨e, rfl, hrandom⟩ | ⟨token, before, rest, rfl, hrandom, hrest⟩
  · -- Drawing a random value does not fail.
    obtain ⟨pid, pre, did, post, rfl⟩ := Replay.perform_iff.mp hrandom
    obtain ⟨_, -, ⟨⟩⟩ := answer_of_fault_none rfl (hl _ (List.mem_singleton_self _))
  rcases Replay.bind_iff.mp hrest with ⟨e, rfl, hset⟩ | ⟨ok, during, after, rfl, hset, hend⟩
  · obtain ⟨pid, pre, did, post, rfl⟩ := Replay.perform_iff.mp hset
    have hans := hl _ (List.mem_append_right _ (List.mem_singleton_self _))
    rcases answer_cases hans with ⟨c, hdid, -, hseen | ⟨e', he, hseen⟩⟩ | ⟨-, e', he, -, hseen⟩
    · rw [hdid] at hseen
      cases hseen
    · rw [Except.error.inj hseen]
      exact (Option.some.inj he).symm
    · rw [Except.error.inj hseen]
      exact (Option.some.inj he).symm
  · obtain ⟨pid, pre, did, post, rfl⟩ := Replay.perform_iff.mp hset
    obtain ⟨rfl, rfl⟩ := Replay.ret_iff.mp hend
    have hans : (machine lib).Answer (.redis .distributedLock
        (.setNx key (.token token) env.distributedLockTtlMs)) pre did (.ok ok) post :=
      hl _ (List.mem_append_right _ List.mem_cons_self)
    rcases answer_redis hans with ⟨hdid, hpost, hseen | ⟨e, ⟨⟩⟩⟩ | ⟨-, e, -, ⟨⟩⟩
    have hok := Except.ok.inj (hseen.trans hdid)
    obtain ⟨hfree, hexec⟩ | ⟨htaken, hexec⟩ :=
      pre.redis.exec_setNx pre.now key (.token token) env.distributedLockTtlMs
    · rw [hexec] at hok hpost
      subst hok hpost
      exact ⟨_, List.mem_append_right _ List.mem_cons_self, hfree, Function.update_self _ _ _⟩
    · rw [hexec] at hok
      subst hok
      exact ⟨_, List.mem_append_right _ List.mem_cons_self, htaken⟩

end

/-- `withLock` runs the operation once, with the operation's outcome, unless the lock is refused.
Then it does not run it, and throws the conflict. It asks for a release once and after the
operation, exactly if it was granted the lock. -/
theorem withLock_runs_operation_once (lib : Lib) {α : Type} (env : Env) (key : Key)
    (operation : Act α) :
    (∀ l r, Replay (withLock env key operation) l (.ofExcept r) ↔ Guarded env key operation l r) ∧
      ∀ l r, (∀ e ∈ l, (machine lib).Answer e.op e.pre e.did e.seen e.post) →
        Replay (acquire env key) l (.ofExcept r) → TellsOwner env key l r :=
  ⟨fun _ _ => replay_withLock, fun _ _ hl h => tellsOwner_acquire hl h⟩

/-- A store in which the lock was set at the instant `0`. -/
def lockedStore : Redis Key Stored :=
  ({} : Redis Key Stored).write (.lockSettlementGroup 1) (some ⟨.token 0, some 10000⟩)

/-- A lock that is granted. -/
def granted : List BackendEntry :=
  [⟨0, .random, {}, .ok 0, .ok 0, { random := 1 }⟩,
    ⟨0, .redis .distributedLock (.setNx (.lockSettlementGroup 1) (.token 0) 10000), { random := 1 },
      .ok true, .ok true, { random := 1, redis := lockedStore }⟩]

/-- An operation that throws, under a lock whose release fails. -/
theorem withLock_runs_operation_once_granted :
    (∃ e, Replay (withLock {} (.lockSettlementGroup 1) (Prog.throw .mail : Act Unit))
      (granted ++ [] ++ [e]) (.ofExcept (.error .mail)) ∧ e.seen = .error .redis) ∧
      TellsOwner {} (.lockSettlementGroup 1) granted (.ok (some 0)) := by
  have hacquire : Replay (acquire {} (.lockSettlementGroup 1)) granted
      (.ofExcept (.ok (some 0))) := .cons (.cons (.nil _))
  obtain ⟨hguarded, htells⟩ := withLock_runs_operation_once .plain {} (.lockSettlementGroup 1)
    (Prog.throw .mail : Act Unit)
  refine ⟨⟨⟨0, .redis .distributedLock (.delIfEq (.lockSettlementGroup 1) (.token 0)), {},
    .error .redis, .error .redis, {}⟩, (hguarded _ _).mpr (.held hacquire (.nil _)), rfl⟩, ?_⟩
  refine htells granted _ ?_ hacquire
  unfold granted
  simp only [List.forall_mem_cons, List.not_mem_nil, IsEmpty.forall_iff, implies_true, and_true]
  exact ⟨.done ({} : Choice), .done ({} : Choice)⟩

end SplitBill.DistributedLock
