import SplitBill.Queues.Delivery

/-!
# Finished jobs

A job that `complete` or `discard` removed stays out of its queue as long as no retry puts it back.
`retryAfterFailure` does put it back when another worker removed the job between its commands. In
runs in which every retry finds its job still in the queue, a removed job is never due again, so
every call of `claimNext` that reads its payload has started before the removal.
-/

namespace SplitBill

open Interleave

variable {lib : Lib}

/-- The job that an entry removed from its queue. -/
def removed? : BackendEntry → Option (JobType × Id)
  | ⟨_, .redis _ (.zrem (.jobQueue type) j), _, .ok _, _, _⟩ => some (type, j)
  | _ => none

instance (type : JobType) (j : Id) (w : World) : Decidable (Queued type j w) :=
  inferInstanceAs (Decidable (j ∈ w.redis.members (.jobQueue type)))

/-- A retry puts back only a job that is still in the queue. -/
def RetriesQueued (_ : ℕ) (o : Op) (h : Hist backend Err World) : Prop :=
  match o with
  | .redis caller (.zadd (.jobQueue type) _ j) => caller = .retryAfterFailure →
    Queued type j h.world
  | _ => True

instance (pid : ℕ) (o : Op) (h : Hist backend Err World) : Decidable (RetriesQueued pid o h) := by
  unfold RetriesQueued
  split <;> infer_instance

/-- Producers and workers, in runs in which no retry puts a removed job back. -/
abbrev finishingSystem (lib : Lib) (env : Env) (registry : WorkerRegistry) :
    System backend Err (Option Id) World :=
  { queueSystem lib env registry with allow := RetriesQueued }

/-- The job was added to the queue of the type. -/
def Added (type : JobType) (j : Id) (log : List BackendEntry) : Prop :=
  ∃ e ∈ log, added? e = some (type, j)

/-- How the queues go with the log. -/
structure FinishedInv (h : Hist backend Err World) : Prop where
  fresh : Draws h
  /-- A job is added by the call that drew its number. -/
  drawn : ∀ e ∈ h.log, ∀ type j, added? e = some (type, j) → (e.pid, j) ∈ draws h.log
  /-- Only jobs that were added are in the queue, were due or were removed. -/
  queued : ∀ type j, Queued type j h.world → Added type j h.log
  due : ∀ e ∈ h.log, ∀ type j, dueJob? e = some (type, j) → Added type j h.log
  removed : ∀ e ∈ h.log, ∀ type j, removed? e = some (type, j) → Added type j h.log
  gone : ∀ e ∈ h.log, ∀ type j, removed? e = some (type, j) → ¬Queued type j h.world
  late : ∀ e log, e :: log <:+ h.log → ∀ type j, dueJob? e = some (type, j) →
    ∀ r ∈ log, removed? r ≠ some (type, j)
  claims : ∀ e log, e :: log <:+ h.log → ∀ j raw, payloadRead? .claimNext e = some (j, raw) →
    ∃ d ∈ log, d.pid = e.pid ∧ ∃ type, dueJob? d = some (type, j)

namespace FinishedInv

variable {h : Hist backend Err World} {pid : ℕ} {o : Op} {did seen : Except Err o.Res} {w : World}

/-- Time and the expiry of entries bring no finished job back. -/
theorem later (hi : FinishedInv h) (hw : h.world.Later w) : FinishedInv (h.withWorld w) := by
  obtain ⟨t, ht, rfl⟩ := hw
  exact ⟨⟨hi.fresh.bound, hi.fresh.distinct⟩, hi.drawn, hi.queued, hi.due, hi.removed, hi.gone,
    hi.late, hi.claims⟩

/-- What a step has to keep. -/
theorem record (hi : FinishedInv h) (hans : (machine lib).Answer o h.world did seen w)
    (hadded : ∀ type j, added? ⟨pid, o, h.world, did, seen, w⟩ = some (type, j) →
      (pid, j) ∈ draws h.log)
    (hnew : ∀ type j, Queued type j w → Queued type j h.world ∨
      added? ⟨pid, o, h.world, did, seen, w⟩ = some (type, j) ∧ ¬Added type j h.log)
    (hdue : ∀ type j, dueJob? ⟨pid, o, h.world, did, seen, w⟩ = some (type, j) →
      Queued type j h.world)
    (hremoved : ∀ type j, removed? ⟨pid, o, h.world, did, seen, w⟩ = some (type, j) →
      Added type j h.log ∧ ¬Queued type j w)
    (hclaim : ∀ j raw, payloadRead? .claimNext ⟨pid, o, h.world, did, seen, w⟩ = some (j, raw) →
      ∃ d ∈ h.own pid, ∃ type, dueJob? d = some (type, j)) :
    FinishedInv (h.record pid o did seen w) := by
  have hold : ∀ type j, Added type j h.log → Added type j (h.record pid o did seen w).log :=
    fun type j ⟨e, he, ha⟩ => ⟨e, List.mem_cons_of_mem _ he, ha⟩
  constructor
  case fresh => exact hi.fresh.record pid hans
  case drawn =>
    refine List.forall_mem_cons.mpr ⟨fun type j ha => ?_, fun e he type j ha => ?_⟩
    · exact mem_draws_cons _ (hadded type j ha)
    · exact mem_draws_cons _ (hi.drawn e he type j ha)
  case queued =>
    intro type j hq
    -- A job is queued since before, or was added just now.
    rcases hnew type j hq with hq | ⟨ha, -⟩
    · exact hold _ _ (hi.queued type j hq)
    · exact ⟨_, List.mem_cons_self, ha⟩
  case due =>
    refine List.forall_mem_cons.mpr ⟨fun type j hd => ?_, fun e he type j hd => ?_⟩
    · exact hold _ _ (hi.queued type j (hdue type j hd))
    · exact hold _ _ (hi.due e he type j hd)
  case removed =>
    refine List.forall_mem_cons.mpr ⟨fun type j hr => ?_, fun e he type j hr => ?_⟩
    · exact hold _ _ (hremoved type j hr).1
    · exact hold _ _ (hi.removed e he type j hr)
  case gone =>
    refine List.forall_mem_cons.mpr ⟨fun type j hr => ?_, fun e he type j hr hq => ?_⟩
    · exact (hremoved type j hr).2
    -- A job that was removed is not added again, since it had been added before.
    · rcases hnew type j hq with hq | ⟨-, hnot⟩
      · exact hi.gone e he type j hr hq
      · exact hnot (hi.removed e he type j hr)
  case late =>
    refine forall_suffix_cons.mpr ⟨fun type j hd r hr hremoved => ?_, hi.late⟩
    exact hi.gone r hr type j hremoved (hdue type j hd)
  case claims =>
    refine forall_suffix_cons.mpr ⟨fun j raw hread => ?_, hi.claims⟩
    obtain ⟨d, hd, type, hdue⟩ := hclaim j raw hread
    obtain ⟨hmem, hpid⟩ := Hist.mem_own.mp hd
    exact ⟨d, hmem, hpid, type, hdue⟩

/-- A step that leaves the queues alone and reads no payload for a claim. -/
theorem still (hi : FinishedInv h) (hans : (machine lib).Answer o h.world did seen w)
    (hset : ∀ type, w.redis.zsets (.jobQueue type) = h.world.redis.zsets (.jobQueue type))
    (hadded : added? ⟨pid, o, h.world, did, seen, w⟩ = none)
    (hdue : dueJob? ⟨pid, o, h.world, did, seen, w⟩ = none)
    (hremoved : removed? ⟨pid, o, h.world, did, seen, w⟩ = none)
    (hclaim : payloadRead? .claimNext ⟨pid, o, h.world, did, seen, w⟩ = none) :
    FinishedInv (h.record pid o did seen w) := by
  apply hi.record hans
  · rw [hadded]
    rintro type j ⟨⟩
  · intro type j hq
    left
    unfold Queued Redis.members at hq ⊢
    rwa [hset type] at hq
  · rw [hdue]
    rintro type j ⟨⟩
  · rw [hremoved]
    rintro type j ⟨⟩
  · rw [hclaim]
    rintro j raw ⟨⟩

/-- A command on string keys leaves the queues alone. -/
theorem zsets_of_strings {caller : Caller} {c : Command Key Stored}
    (hkeys : ∀ type, .jobQueue type ∉ c.keys) {did seen : Except Err c.Res}
    (hans : (machine lib).Answer (.redis caller c) h.world did seen w) (type : JobType) :
    w.redis.zsets (.jobQueue type) = h.world.redis.zsets (.jobQueue type) := by
  rcases answer_redis hans with ⟨-, rfl, -⟩ | ⟨rfl, -⟩
  · exact (Redis.exec_of_not_mem_keys _ (hkeys type)).2
  · rfl

/-- A job is put into its queue: a new one, or one that is in it. -/
theorem put (hi : FinishedInv h) {caller : Caller} {type : JobType} {j : Id} {score : ℕ}
    {did seen : Except Err ℕ}
    (hans : (machine lib).Answer (.redis caller (.zadd (.jobQueue type) score j)) h.world did seen
      w)
    (hmay : caller = .enqueue ∧ (pid, j) ∈ draws h.log ∧ (∀ type, ¬Added type j h.log) ∨
      caller = .retryAfterFailure ∧ Queued type j h.world) :
    FinishedInv (h.record pid (.redis caller (.zadd (.jobQueue type) score j)) did seen w) := by
  apply hi.record hans
  · intro type' i ha
    -- An enqueue adds a job that was never added, a retry one that is still queued.
    rcases hmay with ⟨rfl, hdrawn, -⟩ | ⟨rfl, -⟩
    · rcases did with e | n
      · cases ha
      · obtain ⟨-, rfl⟩ := Prod.mk.inj (Option.some.inj ha)
        exact hdrawn
    · cases ha
  · intro type' i hq
    rcases answer_redis hans with ⟨rfl, rfl, -⟩ | ⟨rfl, -⟩
    · rw [JobType.eq type' type] at hq ⊢
      rcases (Redis.mem_members_zadd h.world.now).mp hq with rfl | hq
      · rcases hmay with ⟨rfl, -, hnot⟩ | ⟨-, hq⟩
        · exact .inr ⟨rfl, hnot type⟩
        · exact .inl hq
      · exact .inl hq
    · exact .inl hq
  · rcases hmay with ⟨rfl, -⟩ | ⟨rfl, -⟩ <;> rintro type' i ⟨⟩
  · rcases hmay with ⟨rfl, -⟩ | ⟨rfl, -⟩ <;> rintro type' i ⟨⟩
  · rintro i raw ⟨⟩

/-- A job that was added is taken out of its queue. -/
theorem unqueue (hi : FinishedInv h) {caller : Caller} {type : JobType} {j : Id}
    {did seen : Except Err ℕ}
    (hans : (machine lib).Answer (.redis caller (.zrem (.jobQueue type) j)) h.world did seen w)
    (hadded : Added type j h.log) :
    FinishedInv (h.record pid (.redis caller (.zrem (.jobQueue type) j)) did seen w) := by
  apply hi.record hans
  · cases caller <;> rintro type' i ⟨⟩
  · intro type' i hq
    left
    rcases answer_redis hans with ⟨rfl, rfl, -⟩ | ⟨rfl, -⟩
    · rw [JobType.eq type' type] at hq ⊢
      exact ((Redis.mem_members_zrem h.world.now).mp hq).1
    · exact hq
  · cases caller <;> rintro type' i ⟨⟩
  · intro type' i hr
    rcases answer_redis hans with ⟨rfl, rfl, -⟩ | ⟨rfl, e, rfl, -⟩
    · obtain ⟨rfl, rfl⟩ := Prod.mk.inj (Option.some.inj hr)
      exact ⟨hadded, fun hq => ((Redis.mem_members_zrem h.world.now).mp hq).2 rfl⟩
    · cases hr
  · rintro i raw ⟨⟩

/-- The first due job is looked for. -/
theorem look (hi : FinishedInv h) {type : JobType} {max : ℕ} {did seen : Except Err (Option Id)}
    (hans : (machine lib).Answer (.redis .claimNext (.firstDue (.jobQueue type) max)) h.world did
      seen w) :
    FinishedInv
      (h.record pid (.redis .claimNext (.firstDue (.jobQueue type) max)) did seen w) := by
  have hw : w = h.world := by
    rcases answer_redis hans with ⟨-, rfl, -⟩ | ⟨rfl, -⟩ <;> rfl
  subst hw
  apply hi.record hans
  · rintro type' i ⟨⟩
  · exact fun type' i hq => .inl hq
  · exact fun type' i hd => queued_of_dueJob hans hd
  · rintro type' i ⟨⟩
  · rintro i raw ⟨⟩

/-- Every step of a call of the queue whose retries find their jobs in the queue keeps the
invariant. -/
theorem step {env : Env} {registry : JobType → JobRegistration} (hi : FinishedInv h)
    (ho : QueueStep env registry pid (h.own pid) o) (hretry : RetriesQueued pid o h)
    (hans : (machine lib).Answer o h.world did seen w) :
    FinishedInv (h.record pid o did seen w) := by
  cases ho with
  | away ho =>
    have hsilent : Silent ⟨pid, o, h.world, did, seen, w⟩ := silent_of_offQueue ho
    have hqueue : ∀ type, ¬Key.OffQueue (.jobQueue type) := fun _ => id
    have hremoved : removed? ⟨pid, o, h.world, did, seen, w⟩ = none := by
      cases o with
      | redis caller c =>
        cases c with
        | zrem k i =>
          cases k with
          | jobQueue type => exact (ho.2 _ List.mem_cons_self).elim
          | _ => rfl
        | _ => rfl
      | _ => rfl
    exact hi.still hans (fun type => (redis_of_offQueue ho hans (hqueue type)).2) hsilent.added
      hsilent.due hremoved (hsilent.read _)
  | create hj hv hattempts hnew =>
    exact hi.still hans (zsets_of_strings (by simp [Command.keys]) hans) rfl rfl rfl rfl
  | add hj hc hnew =>
    refine hi.put hans (.inl ⟨rfl, draws_own hj, ?_⟩)
    rintro type' ⟨e, he, ha⟩
    -- Only the call that drew the number adds the job, and this call has added none so far.
    have hpid : e.pid = pid := hi.fresh.pid_eq (hi.drawn e he _ _ ha) (draws_own hj)
    have hnone := hnew e (Hist.mem_own.mpr ⟨he, hpid⟩)
    rw [hnone] at ha
    cases ha
  | due => exact hi.look hans
  | lease hdue ht =>
    exact hi.still hans (zsets_of_strings (by simp [Command.keys]) hans) rfl rfl rfl rfl
  | claim hdue hlease hnew =>
    have hw : w = h.world := by
      rcases answer_redis hans with ⟨-, rfl, -⟩ | ⟨rfl, -⟩ <;> rfl
    subst hw
    apply hi.record hans
    · rintro type' i ⟨⟩
    · exact fun type' i hq => .inl hq
    · rintro type' i ⟨⟩
    · rintro type' i ⟨⟩
    · intro i raw hread
      obtain ⟨-, rfl, -⟩ := payloadRead?_get hread
      obtain ⟨d, hd, hdj⟩ := hdue
      exact ⟨d, hd, _, hdj⟩
  | process hw hschema hnew =>
    have hw := answer_redis_eq (by rintro _ _ ⟨⟩) hans
    exact hi.still hans (fun _ => by rw [hw]) rfl rfl rfl rfl
  | processed hw =>
    have hw := answer_redis_eq (by rintro _ _ ⟨⟩) hans
    exact hi.still hans (fun _ => by rw [hw]) rfl rfl rfl rfl
  | unqueue hdue hmay =>
    obtain ⟨d, hd, hdj⟩ := hdue
    exact hi.unqueue hans (hi.due d (Hist.mem_own.mp hd).1 _ _ hdj)
  | @erase caller type i hdue hmay =>
    exact hi.still hans (zsets_of_strings (by simp [Command.keys]) hans)
      (by cases caller <;> rfl) (by cases caller <;> rfl) rfl (by cases caller <;> rfl)
  | reread hdue =>
    exact hi.still hans (zsets_of_strings (by simp [Command.keys]) hans) rfl rfl rfl (by
      rcases seen with e | raw <;> rfl)
  | count hw hbegun hread hraw hv hpayload hattempts hlt =>
    exact hi.still hans (zsets_of_strings (by simp [Command.keys]) hans) rfl rfl rfl rfl
  | reschedule hdue => exact hi.put hans (.inr ⟨rfl, hretry rfl⟩)
  | release hdue =>
    exact hi.still hans (zsets_of_strings (by simp [Command.keys]) hans) rfl rfl rfl rfl

/-- The invariant holds of an empty queue. -/
theorem start {w : World} (hw : NoJobs w) : FinishedInv ⟨w, []⟩ := by
  constructor
  case fresh => exact ⟨by simp [draws], by simp [draws]⟩
  case drawn => simp
  case queued =>
    intro type j hq
    unfold Queued Redis.members at hq
    rw [hw.queue type] at hq
    cases hq
  case due => simp
  case removed => simp
  case gone => simp
  case late =>
    intro e log hsuffix
    cases List.suffix_nil.mp hsuffix
  case claims =>
    intro e log hsuffix
    cases List.suffix_nil.mp hsuffix

end FinishedInv

/-! ## Runs -/

/-- As long as no retry puts a removed job back, a job that was removed is not in the queue any
more, and every call of `claimNext` that reads its payload had begun before the removal. -/
theorem finished_forever {lib : Lib} {env : Env} {registry : WorkerRegistry}
    {cfg : (finishingSystem lib env registry).Config}
    (h : (finishingSystem lib env registry).Reachable NoJobs cfg) {type : JobType} {j : Id}
    {r : BackendEntry} {l : List BackendEntry} (hl : r :: l <:+ cfg.hist.log)
    (hr : removed? r = some (type, j)) :
    ¬Queued type j cfg.hist.world ∧
      ∀ e ∈ cfg.hist.log, ∀ raw, payloadRead? .claimNext e = some (j, raw) →
        ∃ d ∈ l, d.pid = e.pid := by
  obtain ⟨hi, -⟩ := System.keeps_of_ownLog
    (fun pid _ => QueueStep env registry.registration pid)
    (fun _ _ r l => ∀ j, r = .ok (some j) → ∃ type, ∃ e ∈ l, added? e = some (type, j))
    FinishedInv (fun pid c _ => queueCall_wp registry c) (fun w hw => .start hw)
    (fun h w hi (hw : h.world.Later w) => hi.later hw)
    (fun pid c o h did seen w ho hi hretry hans => hi.step ho hretry hans) h
  have hmem : r ∈ cfg.hist.log := hl.subset List.mem_cons_self
  refine ⟨hi.gone r hmem type j hr, fun e he raw hread => ?_⟩
  obtain ⟨before, after, hsplit⟩ := List.append_of_mem he
  have hsuffix : e :: after <:+ cfg.hist.log := ⟨before, hsplit.symm⟩
  obtain ⟨d, hd, hpid, type', hdue⟩ := hi.claims e after hsuffix j raw hread
  rw [JobType.eq type' type] at hdue
  obtain ⟨between, log, rfl⟩ := List.append_of_mem hd
  have hdsuffix : d :: log <:+ cfg.hist.log := by
    refine List.IsSuffix.trans ?_ hsuffix
    exact ⟨e :: between, by simp⟩
  have hne : d ≠ r := by
    rintro rfl
    obtain ⟨pid, o, pre, did, seen, post⟩ := d
    cases o with
    | redis caller c => cases c <;> cases caller <;> first | cases hr | cases hdue
    | _ => cases hr
  -- The call found the job due before the removal, for no removed job is due.
  refine ⟨d, ?_, hpid⟩
  rcases List.suffix_or_suffix_of_suffix hdsuffix hl with hdr | hrd
  · rcases List.suffix_cons_iff.mp hdr with heq | hdl
    · exact absurd (List.cons.inj heq).1 hne
    · exact hdl.subset List.mem_cons_self
  · rcases List.suffix_cons_iff.mp hrd with heq | hrl
    · exact absurd (List.cons.inj heq).1.symm hne
    · exact absurd hr (hi.late d log hdsuffix type j hdue r (hrl.subset List.mem_cons_self))

instance (lib : Lib) (env : Env) (registry : WorkerRegistry) :
    DecidablePred (finishingSystem lib env registry).valid :=
  fun _ => isTrue trivial

instance (lib : Lib) (env : Env) (registry : WorkerRegistry) (pid : ℕ) (o : Op)
    (h : Hist backend Err World) :
    Decidable ((finishingSystem lib env registry).allow pid o h) :=
  inferInstanceAs (Decidable (RetriesQueued pid o h))

/-- A worker finishes the job, and another one finds no job any more. -/
def finishedQueue : List (System.Action (finishingSystem .plain {} plainRegistry)) :=
  List.flatten [[.spawn recomputeJob], System.turns _ 0 {} 5,
    [.spawn (.processType .groupSummaryRecompute)], System.turns _ 1 {} 11,
    [.spawn (.processType .groupSummaryRecompute)], System.turns _ 2 {} 2]

/-- A job is done, and the next worker finds the queue empty. -/
theorem finished_forever_polled : ∃ cfg,
    (finishingSystem .plain {} plainRegistry).play finishedQueue
      ((finishingSystem .plain {} plainRegistry).start {}) = some cfg ∧
    ∃ r l, r :: l <:+ cfg.hist.log ∧ removed? r = some (.groupSummaryRecompute, 0) ∧
      ¬Queued .groupSummaryRecompute 0 cfg.hist.world ∧
      ∀ e ∈ cfg.hist.log, ∀ raw, payloadRead? .claimNext e = some (0, raw) →
        ∃ d ∈ l, d.pid = e.pid := by
  obtain ⟨cfg, hplay, ⟨r, l, hsplit, hr⟩, hall⟩ : ∃ cfg,
      (finishingSystem .plain {} plainRegistry).play finishedQueue
        ((finishingSystem .plain {} plainRegistry).start {}) = some cfg ∧
      (∃ r l, cfg.hist.log.drop 4 = r :: l ∧ removed? r = some (.groupSummaryRecompute, 0)) ∧
      (finishingSystem .plain {} plainRegistry).Allowed cfg.hist.log :=
    ⟨_, rfl, ⟨_, _, rfl, rfl⟩, by decide +kernel⟩
  have hreach : (finishingSystem .plain {} plainRegistry).Reachable NoJobs cfg :=
    System.reachable_of_allowed (.start ⟨fun _ => rfl, fun _ => rfl, fun _ => rfl⟩) hplay hall
  have hl : r :: l <:+ cfg.hist.log := hsplit ▸ List.drop_suffix _ _
  exact ⟨cfg, hplay, r, l, hl, hr, finished_forever hreach hl hr⟩

/-- The first worker's handler fails, and it reads the payload for its retry. Its lease ends, a
second worker completes the job, and only then the first one goes on with its retry. A third worker
starts when the job is due again. -/
def requeuedJob : List (System.Action (queueSystem .plain {} plainRegistry)) :=
  List.flatten [[.spawn recomputeJob], System.turns _ 0 {} 5,
    [.spawn (.processType .groupSummaryRecompute)], System.turns _ 1 {} 12,
    [.op 1 { cut := some 0 }], System.turns _ 1 {} 2,
    [waits 30000, .spawn (.processType .groupSummaryRecompute)], System.turns _ 2 {} 17,
    System.turns _ 1 {} 4,
    [waits 2000, .spawn (.processType .groupSummaryRecompute)], System.turns _ 3 {} 5]

/-- The completed job is in the queue again, and the third worker claims it. -/
theorem finished_forever_requeued : ∃ cfg,
    (queueSystem .plain {} plainRegistry).Reachable NoJobs cfg ∧
    ∃ r l, r :: l <:+ cfg.hist.log ∧ removed? r = some (.groupSummaryRecompute, 0) ∧
      Queued .groupSummaryRecompute 0 cfg.hist.world ∧
      ∃ e ∈ cfg.hist.log, ∃ raw, payloadRead? .claimNext e = some (0, some raw) ∧
        ∀ d ∈ l, d.pid ≠ e.pid := by
  obtain ⟨cfg, hplay, ⟨e, he, hread, hpid⟩, ⟨r, l, hsplit, hr, hpids⟩, hqueued⟩ : ∃ cfg,
      (queueSystem .plain {} plainRegistry).play requeuedJob
        ((queueSystem .plain {} plainRegistry).start
          { db := { groups := [⟨10, "", 1, 0, 0⟩] } }) = some cfg ∧
      (∃ e ∈ cfg.hist.log, ((payloadRead? .claimNext e).map (·.1) = some 0 ∧
        ((payloadRead? .claimNext e).bind (·.2)).isSome) ∧ e.pid = 3) ∧
      (∃ r l, cfg.hist.log.drop 11 = r :: l ∧
        removed? r = some (.groupSummaryRecompute, 0) ∧ ∀ d ∈ l, d.pid ≠ 3) ∧
      Queued .groupSummaryRecompute 0 cfg.hist.world :=
    ⟨_, rfl, by decide +kernel, ⟨_, _, rfl, rfl, by decide +kernel⟩, by decide +kernel⟩
  have hl : r :: l <:+ cfg.hist.log := hsplit ▸ List.drop_suffix _ _
  -- The claim of consumer 3 read the payload before the other consumer completed the job.
  obtain ⟨raw, hraw⟩ : ∃ raw, payloadRead? .claimNext e = some (0, some raw) := by
    rcases hcase : payloadRead? .claimNext e with _ | ⟨i, _ | raw⟩
    · simp [hcase] at hread
    · simp [hcase] at hread
    · simp only [hcase, Option.map_some, Option.some.injEq] at hread
      exact ⟨raw, by rw [hread.1]⟩
  exact ⟨cfg, System.reachable_of_play (fun _ _ _ => trivial)
    (.start ⟨fun _ => rfl, fun _ => rfl, fun _ => rfl⟩) hplay, r, l, hl, hr, hqueued, e, he, raw,
    hraw, fun d hd => hpid ▸ hpids d hd⟩

end SplitBill
