import SplitBill.Interleave.Replay
import SplitBill.Queues.Delivery

/-!
# Backoff

A worker finds a job due in one command and takes its lease in another, and in between a worker
whose lease has run out may have scheduled another attempt of the job for later. In runs in which no
job is postponed between the two commands of a worker, every job that is claimed is due.
-/

namespace SplitBill

open Interleave

variable {lib : Lib} {env : Env}

/-! ## What the log says -/

/-- The job, if it is in the queue, is due. -/
def Due (type : JobType) (j : Id) (w : World) : Prop :=
  ∀ m ∈ w.redis.zsets (.jobQueue type), m.id = j → m.score ≤ w.now

instance (type : JobType) (j : Id) (w : World) : Decidable (Due type j w) :=
  inferInstanceAs (Decidable (∀ m ∈ w.redis.zsets (.jobQueue type), _))

/-- An entry found the job due. -/
def foundDue (j : Id) (e : BackendEntry) : Bool := (dueJob? e).any fun d => d.2 = j

/-- The job that an operation leases. -/
def leased? : Op → Option Id
  | .redis .claimNext (.setNx (.jobInflight j) _ _) => some j
  | _ => none

/-- The job whose next attempt an entry scheduled, and when. -/
def scheduled? : BackendEntry → Option (Id × Time)
  | ⟨_, .redis _ (.zadd (.jobQueue _) score j), _, .ok _, _, _⟩ => some (j, score)
  | _ => none

/-- The job whose lease an entry was granted. -/
def granted? : BackendEntry → Option Id
  | ⟨_, .redis .claimNext (.setNx (.jobInflight j) _ _), _, _, .ok true, _⟩ => some j
  | _ => none

/-- The job that `claimNext` returns when it has read the payload. -/
def claimed? (type : JobType) : BackendEntry → Option Id
  | ⟨_, .redis .claimNext (.get (.jobData j)), _, _, .ok (some raw), _⟩ =>
    if (JobQueue.parseEnvelope raw type j).isSome then some j else none
  | _ => none

/-- Every job that a call of `claimNext` returned was due when its lease was granted. -/
def ClaimsDue (type : JobType) : List BackendEntry → Prop
  | [] => True
  | e :: log =>
    (∀ j ∈ claimed? type e, ∃ g ∈ log, g.pid = e.pid ∧ granted? g = some j ∧ Due type j g.pre) ∧
      ClaimsDue type log

instance (type : JobType) : DecidablePred (ClaimsDue type) := fun log => by
  induction log with
  | nil => exact isTrue trivial
  | cons e log ih => exact inferInstanceAs (Decidable (_ ∧ _))

/-- No job is leased that has been postponed since the worker found it due. -/
def NotPostponed (pid : ℕ) (o : Op) (h : Hist backend Err World) : Prop :=
  ∀ j ∈ leased? o, ∀ e ∈ sinceLast pid (foundDue j) h.log, ∀ s ∈ scheduled? e,
    s.1 = j → s.2 ≤ h.world.now

instance (pid : ℕ) (o : Op) (h : Hist backend Err World) : Decidable (NotPostponed pid o h) := by
  unfold NotPostponed
  infer_instance

/-- Producers and workers, in runs in which no job is postponed before its lease. -/
abbrev promptSystem (lib : Lib) (env : Env) (registry : WorkerRegistry) :
    System backend Err (Option Id) World :=
  { queueSystem lib env registry with allow := NotPostponed }

instance (lib : Lib) (env : Env) (registry : WorkerRegistry) :
    DecidablePred (promptSystem lib env registry).valid :=
  fun _ => isTrue trivial

/-! ## What a call looks for -/

/-- A call looks for jobs that are due at a time which it has read from the clock. -/
def LooksByClock (own : List BackendEntry) (o : Op) : Prop :=
  ∀ caller type max, o = .redis caller (.firstDue (.jobQueue type) max) → ∃ e ∈ own, max ≤ e.pre.now

section Programs

variable {pid : ℕ} {type : JobType}

/-- The bookkeeping looks for no job. -/
theorem looksByClock_of_bookkeeping {o : Op} (ho : o.Bookkeeping) (own : List BackendEntry) :
    LooksByClock own o := by
  rintro caller type max rfl
  exact ho.elim

/-- Code that does not look for jobs. -/
theorem bookkeeping_wp {α : Type} {p : Act α} (hp : p.Issues Op.Bookkeeping)
    (own : List BackendEntry) :
    wp ((machine lib).ownLog pid LooksByClock) (fun _ _ => True) p own := by
  refine wp_ownLog_of_issues (I := fun _ => True) hp ?_ ?_ ?_ trivial
  · exact fun own o _ ho => looksByClock_of_bookkeeping ho own
  · exact fun _ _ _ _ _ _ _ _ _ => trivial
  · exact fun _ _ _ => trivial

/-- A handler does not look for jobs. -/
theorem runJob_looks {registration : JobRegistration}
    (hoff : ∀ envelope, (registration.process envelope).Issues Op.OffQueue) (jobId : Id)
    (envelope : JobEnvelope) (own : List BackendEntry) :
    wp ((machine lib).ownLog pid LooksByClock) (fun _ _ => True)
      (WorkerRunner.runJob registration type jobId envelope) own := by
  -- Both ways of taking a job out are bookkeeping and look at no queue.
  have hremove : ∀ caller m own, wp ((machine lib).ownLog pid LooksByClock) (fun _ _ => True)
      (do
        JobQueue.remove caller type jobId
        increment m : Act Unit) own := by
    intro caller m own
    exact bookkeeping_wp (.bind (remove_bookkeeping caller) fun _ => increment_bookkeeping m) own
  unfold WorkerRunner.runJob
  cases registration.schema envelope.payload with
  | none => exact hremove .discard _ own
  | some payload =>
    refine wp_ownLog_bind (fun _ _ => trivial) (by rintro _ _ _ ⟨⟩) fun _ _ _ _ _ => ?_
    refine wp_bind.mpr (wp_attempt.mpr (wp_ownLog_of_issues (I := fun _ => True) (hoff _) ?_ ?_ ?_
      trivial))
    · rintro own o - ho caller type max rfl
      exact (ho.2 _ List.mem_cons_self).elim
    · exact fun _ _ _ _ _ _ _ _ _ => trivial
    · intro outcome own _
      refine wp_ownLog_bind (fun _ _ => trivial) (by rintro _ _ _ ⟨⟩) fun _ _ _ _ _ => ?_
      refine wp_ofExcept_bind.mpr ⟨fun _ _ => ?_, fun _ _ => trivial⟩
      exact hremove .complete _ _

/-- A poll looks for a due job with the time that it has read just before. -/
theorem processType_looks (registry : WorkerRegistry) :
    wp ((machine lib).ownLog pid LooksByClock) (fun _ _ => True)
      (WorkerRunner.processType env registry.registration type) [] := by
  -- What follows a claim looks for no job.
  have hclaimed : ∀ jobId envelope (own : List BackendEntry),
      wp ((machine lib).ownLog pid LooksByClock) (fun _ _ => True)
        ((WorkerRunner.runJob (registry.registration type) type jobId envelope).tryCatch
          (WorkerRunner.handleFailure env type jobId envelope)) own := by
    intro jobId envelope own
    refine wp_tryCatch.mpr (wp_mono ?_ (runJob_looks (registry.offQueue type) jobId envelope own))
    rintro (error | a) own -
    · exact bookkeeping_wp (handleFailure_bookkeeping error) own
    · trivial
  refine wp_bind.mpr (wp_bind.mpr (wp_bind.mpr (wp_ownLog_perform ?_ fun w did r w' hans => ?_)))
  · rintro caller type max ⟨⟩
  obtain ⟨now, rfl, rfl⟩ := answer_of_fault_none rfl hans
  -- The clock says the time of the world.
  have hnow : now = w.now := by
    rcases answer_cases hans with ⟨c, hdid, -, -⟩ | ⟨-, e, he, -⟩
    · exact Except.ok.inj hdid
    · cases he
  refine wp_ownLog_perform ?_ fun w₁ did₁ due w₁' hans₁ => ?_
  · rintro caller type max hop
    obtain ⟨-, hcommand⟩ := Op.redis.inj hop
    cases hcommand
    exact ⟨_, List.mem_cons_self, hnow.le⟩
  cases due with
  | error e => trivial
  | ok due =>
    refine wp_mono ?_ (bookkeeping_wp (claimDue_bookkeeping due) _)
    rintro (e | _ | _ | _ | ⟨jobId, envelope⟩) own -
    case ok.claimed => exact hclaimed jobId envelope own
    all_goals trivial

/-- The calls look for jobs by the clock. -/
theorem queueCall_looks (registry : WorkerRegistry) (c : QueueCall) :
    wp ((machine lib).ownLog pid LooksByClock) (fun _ _ => True) (c.body env registry) [] := by
  cases c with
  | enqueue type payload object requestId scheduledFor =>
    have henqueue : (JobQueue.enqueue env type payload requestId scheduledFor).Issues
        Op.Bookkeeping := by
      refine .bind (issues_bookkeeping trivial) fun jobId => ?_
      refine .bind (issues_bookkeeping trivial) fun createdAt => ?_
      refine .bind (issues_bookkeeping trivial) fun _ => .bind ?_ fun score => ?_
      · cases scheduledFor with
        | none => exact issues_bookkeeping trivial
        | some date => trivial
      · exact .bind (issues_bookkeeping trivial) fun _ => trivial
    exact wp_bind.mpr (wp_mono (fun r own _ => by cases r <;> trivial) (bookkeeping_wp henqueue []))
  | processType type =>
    exact wp_bind.mpr (wp_mono (fun r own _ => by cases r <;> trivial) (processType_looks registry))

end Programs

/-! ## The scores -/

/-- What an operation does to a queue: only `ZADD` and `ZREM` change it. -/
theorem queue_of_answer {o : Op} {w w' : World} {did seen : Except Err (backend.Res o)}
    (h : (machine lib).Answer o w did seen w') (pid : ℕ) (type : JobType) :
    ((w.redis.zsets (.jobQueue type)).map (·.id)).Nodup →
      ((w'.redis.zsets (.jobQueue type)).map (·.id)).Nodup ∧
      ∀ m ∈ w'.redis.zsets (.jobQueue type), m ∈ w.redis.zsets (.jobQueue type) ∨
        scheduled? ⟨pid, o, w, did, seen, w'⟩ = some (m.id, m.score) := by
  intro hnodup
  cases o with
  | redis caller c =>
    rcases answer_redis h with ⟨rfl, rfl, -⟩ | ⟨rfl, -⟩
    · refine ⟨Redis.nodup_exec hnodup _ _, fun m hm => ?_⟩
      -- The queue is as it was, or it gained the scheduled member, or it lost one.
      rcases w.redis.exec_zsets w.now c (.jobQueue type) with hkept | ⟨score, id, rfl, hadded⟩ |
        ⟨id, -, hremoved⟩
      · exact .inl (hkept ▸ hm)
      · rcases Redis.mem_orderedInsert (hadded ▸ hm) with rfl | hold
        · exact .inr rfl
        · exact .inl hold
      · exact .inl (List.mem_of_mem_filter (hremoved ▸ hm))
    · exact ⟨hnodup, fun m hm => .inl hm⟩
  | _ =>
    rw [answer_redis_eq (by rintro _ _ ⟨⟩) h]
    exact ⟨hnodup, fun m hm => .inl hm⟩

/-- How a job is found due. -/
theorem foundDue_cases {j : Id} {e : BackendEntry} (h : foundDue j e = true) :
    ∃ pid type max pre did post, e = ⟨pid, .redis .claimNext (.firstDue (.jobQueue type) max), pre,
      did, .ok (some j), post⟩ := by
  obtain ⟨⟨type, i⟩, hfound, hi⟩ := (Option.any_eq_true _ _).mp h
  obtain rfl : i = j := of_decide_eq_true hi
  unfold dueJob? at hfound
  split at hfound
  · obtain ⟨rfl, rfl⟩ := Prod.mk.inj (Option.some.inj hfound)
    exact ⟨_, _, _, _, _, _, rfl⟩
  · cases hfound

/-- A job that was found due was due. -/
theorem score_of_firstDue {max : ℕ} {j : Id} {type : JobType} {w w' : World}
    {did : Except Err (Option Id)}
    (hans : (machine lib).Answer (.redis .claimNext (.firstDue (.jobQueue type) max)) w did
      (.ok (some j)) w') (hunique : ((w.redis.zsets (.jobQueue type)).map (·.id)).Nodup) :
    w'.redis = w.redis ∧ ∀ m ∈ w.redis.zsets (.jobQueue type), m.id = j → m.score ≤ max := by
  obtain rfl := answer_seen_ok hans
  rcases answer_redis hans with ⟨hfound, rfl, -⟩ | ⟨-, e, he, -⟩
  · obtain ⟨x, hx, hxid⟩ := Option.map_eq_some_iff.mp (Except.ok.inj hfound).symm
    refine ⟨rfl, fun m hm hid => ?_⟩
    -- The set holds a job once.
    have hsame : m = x := by
      apply List.inj_on_of_nodup_map hunique hm (List.mem_of_find?_eq_some hx)
      exact hid.trans hxid.symm
    rw [hsame]
    simpa using List.find?_some hx
  · cases he

section Steps

variable {registry : JobType → JobRegistration} {pid : ℕ} {own : List BackendEntry}
    {o : Op} {j : Id}

/-- A call leases a job that it has found due. -/
theorem found_of_leased (h : QueueStep env registry pid own o) (hlease : leased? o = some j) :
    ∃ d ∈ own, foundDue j d = true := by
  cases h with
  | lease hdue ht =>
    obtain ⟨d, hd, hfound⟩ := hdue
    refine ⟨d, hd, ?_⟩
    unfold foundDue
    rw [hfound]
    exact decide_eq_true (Option.some.inj hlease)
  | away ho =>
    cases o with
    | redis caller c =>
      rcases ho.1 with rfl | rfl
      all_goals cases hlease
    | _ => cases hlease
  | @unqueue caller t i hdue hremove => cases caller <;> cases hlease
  | @erase caller t i hdue hremove => cases caller <;> cases hlease
  | _ => cases hlease

/-- A call that acquires the lease of a job is granted it. -/
theorem granted_of_acquire (h : QueueStep env registry pid own o) {w w' : World}
    {did seen : Except Err o.Res}
    (hacquire : acquire? (.jobInflight j) ⟨pid, o, w, did, seen, w'⟩ = some (.ok true)) :
    granted? ⟨pid, o, w, did, seen, w'⟩ = some j ∧ leased? o = some j := by
  -- Of the queue's own steps only the lease sets this key.
  cases h with
  | lease hdue ht =>
    simp only [acquire?, Option.ite_none_right_eq_some] at hacquire
    obtain ⟨hkey, hseen⟩ := hacquire
    obtain rfl := Key.jobInflight.inj hkey
    obtain rfl := Option.some.inj hseen
    exact ⟨rfl, rfl⟩
  | away ho =>
    cases o with
    | redis caller c =>
      cases c with
      | setNx k v ttlMs =>
        cases v with
        | token t =>
          simp only [acquire?, Option.ite_none_right_eq_some] at hacquire
          obtain ⟨rfl, -⟩ := hacquire
          exact (ho.2 _ List.mem_cons_self).elim
        | _ => cases hacquire
      | _ => cases hacquire
    | _ => cases hacquire
  | _ => cases hacquire

/-- A call returns a job whose lease it has acquired. -/
theorem acquired_of_claimed (h : QueueStep env registry pid own o) {w w' : World}
    {did seen : Except Err o.Res} {type : JobType}
    (hclaimed : claimed? type ⟨pid, o, w, did, seen, w'⟩ = some j) :
    ∃ g ∈ own, acquire? (.jobInflight j) g = some (.ok true) := by
  cases h with
  | claim hdue hlease hnew =>
    rcases seen with e | _ | raw
    · cases hclaimed
    · cases hclaimed
    · simp only [claimed?, Option.ite_none_right_eq_some] at hclaimed
      obtain rfl := Option.some.inj hclaimed.2
      exact hlease
  | away ho =>
    cases o with
    | redis caller c =>
      rcases ho.1 with rfl | rfl
      all_goals cases hclaimed
    | _ => cases hclaimed
  | @unqueue caller t i hdue hremove => cases caller <;> cases hclaimed
  | @erase caller t i hdue hremove => cases caller <;> cases hclaimed
  | _ => cases hclaimed

end Steps

section Runs

variable {registry : WorkerRegistry} {cfg : (promptSystem lib env registry).Config}

/-- A queue holds each job once, in every world of a run. -/
theorem unique_jobs {w₀ w : World} {l : List BackendEntry} (hw₀ : NoJobs w₀)
    (hl : (promptSystem lib env registry).Linked w₀ l w) (type : JobType) :
    ((w.redis.zsets (.jobQueue type)).map (·.id)).Nodup := by
  have hlater : ∀ w w' : World, ((w.redis.zsets (.jobQueue type)).map (·.id)).Nodup →
      w.Later w' → ((w'.redis.zsets (.jobQueue type)).map (·.id)).Nodup := by
    rintro w w' hw ⟨t, -, rfl⟩
    exact hw
  rw [← List.append_nil l] at hl
  refine (hl.persists hlater ?_ ?_).1
  · intro w hw
    refine System.keeps_star hlater ?_ hw
    rw [hw₀.queue]
    exact .nil
  · intro e he hpre
    exact (queue_of_answer (hl.answer (List.mem_append_left _ he)) e.pid type hpre).1

/-- A leased job is due. -/
theorem due_of_leased (h : (promptSystem lib env registry).Reachable NoJobs cfg) {g : BackendEntry}
    {l : List BackendEntry} (hg : g :: l <:+ cfg.hist.log) {j : Id} (hlease : leased? g.op = some j)
    (type : JobType) : Due type j g.pre := by
  obtain ⟨⟨w₀, hw₀, hlinked⟩, -, -⟩ := System.replays h
  have hsteps := (System.follows_of_ownLog (fun pid c _ => queueCall_wp registry c) h).1
  have hclock := (System.follows_of_ownLog (fun pid c _ => queueCall_looks registry c) h).1
  obtain ⟨hbefore, hallow, -⟩ := hlinked.of_suffix hg
  -- The worker's look for due jobs, and what has happened since.
  obtain ⟨d, hd, hfound⟩ := found_of_leased (hsteps g l hg) hlease
  obtain ⟨r, hr⟩ := Option.isSome_iff_exists.mp (List.find?_isSome.mpr ⟨d, hd, hfound⟩)
  obtain ⟨l', hl⟩ := eq_sinceLast_append hr
  have hsuffix : r :: l' <:+ l := ⟨_, hl.symm⟩
  -- The clock is not behind the time for which the worker looked.
  have hclocks : ∀ x ∈ l, x.post.now ≤ g.pre.now := by
    refine fun x hx => ((hbefore.mono (f := World.now) ?_ ?_).2.1 x hx).2
    · rintro w w' ⟨t, ht, rfl⟩
      exact ht
    · exact fun e hans => (answer_now hans).ge
  obtain ⟨pid, type', max, pre, did, post, rfl⟩ := foundDue_cases (List.find?_some hr)
  obtain rfl := JobType.eq type' type
  have hmax : max ≤ g.pre.now := by
    obtain ⟨x, hx, hle⟩ := hclock _ l' (hsuffix.trans ((List.suffix_cons _ _).trans hg)) _ _ _ rfl
    have hx' : x ∈ l := hsuffix.subset (List.mem_cons_of_mem _ (List.mem_of_mem_filter hx))
    have hpost : x.post.now = x.pre.now := answer_now (hbefore.answer hx')
    calc max ≤ x.pre.now := hle
      _ = x.post.now := hpost.symm
      _ ≤ g.pre.now := hclocks x hx'
  obtain ⟨hlinked', -, hans⟩ := hbefore.of_suffix hsuffix
  obtain ⟨hredis, hscores⟩ := score_of_firstDue hans (unique_jobs hw₀ hlinked' type')
  rw [hl] at hbefore
  refine (hbefore.keeps (P := fun w => ∀ m ∈ w.redis.zsets (.jobQueue type'), m.id = j →
    m.score ≤ g.pre.now) ?_ ?_ ?_).1
  · rintro w w' hw ⟨t, -, rfl⟩
    exact hw
  · intro m hm hid
    exact (hscores m (hredis ▸ hm) hid).trans hmax
  · intro x hx hpre m hm hid
    obtain ⟨later, earlier, hsplit⟩ := List.append_of_mem (List.mem_append_left _ hx)
    obtain ⟨hlinked', -, hans⟩ := hbefore.of_suffix
      (hsplit ▸ List.suffix_append later (x :: earlier))
    rcases (queue_of_answer hans x.pid type' (unique_jobs hw₀ hlinked' type')).2 m hm with hold | hnew
    · exact hpre m hold hid
    · exact hallow j hlease x hx _ hnew hid

/-- In runs in which no job is postponed between a worker's look for due jobs and the lease, every
job that a worker claims is due when its lease is granted. -/
theorem claims_due (h : (promptSystem lib env registry).Reachable NoJobs cfg) (type : JobType) :
    ClaimsDue type cfg.hist.log := by
  have hsteps := (System.follows_of_ownLog (fun pid c _ => queueCall_wp registry c) h).1
  have hclaims : ∀ l, l <:+ cfg.hist.log → ClaimsDue type l := by
    intro l hl
    induction l with
    | nil => trivial
    | cons e l ih =>
      refine ⟨fun j hclaimed => ?_, ih ((List.suffix_cons _ _).trans hl)⟩
      obtain ⟨g, hg, hacquire⟩ := acquired_of_claimed (hsteps e l hl) hclaimed
      obtain ⟨hgl, hpid⟩ := List.mem_filter.mp hg
      obtain ⟨later, earlier, rfl⟩ := List.append_of_mem hgl
      have hsuffix : g :: earlier <:+ cfg.hist.log :=
        (List.suffix_append later (g :: earlier)).trans ((List.suffix_cons _ _).trans hl)
      obtain ⟨hgranted, hleased⟩ := granted_of_acquire (hsteps g earlier hsuffix) hacquire
      exact ⟨g, hgl, of_decide_eq_true hpid, hgranted, due_of_leased h hsuffix hleased type⟩
  exact hclaims _ List.suffix_rfl

end Runs

instance (lib : Lib) (env : Env) (registry : WorkerRegistry) (pid : ℕ) (o : Op)
    (h : Hist backend Err World) : Decidable ((promptSystem lib env registry).allow pid o h) :=
  inferInstanceAs (Decidable (NotPostponed pid o h))

/-- The tables of a backend with one group. -/
def oneGroup : World where
  db := { groups := [⟨10, "", 1, 0, 0⟩] }

/-- A worker's handler fails while a second worker, after `n` commands of its poll, waits, and the
job is scheduled anew. The second worker goes on `ms` milliseconds later. -/
def postponedJob (allow : ℕ → Op → Hist backend Err World → Prop) (n ms : ℕ) :
    List (System.Action { queueSystem .plain {} plainRegistry with allow := allow }) :=
  List.flatten [[.spawn recomputeJob], System.turns _ 0 {} 5,
    [.spawn (.processType .groupSummaryRecompute)], System.turns _ 1 {} 12,
    [.spawn (.processType .groupSummaryRecompute)], System.turns _ 2 {} n,
    [.op 1 { cut := some 0 }], System.turns _ 1 {} 8,
    [.env (World.wait ms) (World.later_wait ms)], System.turns _ 2 {} (5 - n)]

/-- The second worker looks for due jobs when the backoff is over. -/
theorem claims_due_retried : ∃ cfg,
    (promptSystem .plain {} plainRegistry).play (postponedJob NotPostponed 0 2000)
      ((promptSystem .plain {} plainRegistry).start oneGroup) = some cfg ∧
    cfg.hist.log.filterMap (claimed? .groupSummaryRecompute) = [0, 0] ∧
    ClaimsDue .groupSummaryRecompute cfg.hist.log := by
  obtain ⟨cfg, hplay, hclaimed, hall⟩ : ∃ cfg,
      (promptSystem .plain {} plainRegistry).play (postponedJob NotPostponed 0 2000)
        ((promptSystem .plain {} plainRegistry).start oneGroup) = some cfg ∧
      cfg.hist.log.filterMap (claimed? .groupSummaryRecompute) = [0, 0] ∧
      (promptSystem .plain {} plainRegistry).Allowed cfg.hist.log :=
    System.exists_of_play (by decide +kernel)
  have hreach : (promptSystem .plain {} plainRegistry).Reachable NoJobs cfg :=
    System.reachable_of_allowed (.start ⟨fun _ => rfl, fun _ => rfl, fun _ => rfl⟩) hplay hall
  exact ⟨cfg, hplay, hclaimed, claims_due hreach _⟩

/-- The second worker found the job due before it was scheduled anew, and claims it at once. -/
theorem claims_due_postponed : ¬∀ cfg : (queueSystem .plain {} plainRegistry).Config,
    (queueSystem .plain {} plainRegistry).Reachable NoJobs cfg →
    ∀ type, ClaimsDue type cfg.hist.log := by
  intro hdue
  obtain ⟨cfg, hplay, hclaims⟩ : ∃ cfg,
      (queueSystem .plain {} plainRegistry).play (postponedJob (fun _ _ _ => True) 2 0)
        ((queueSystem .plain {} plainRegistry).start oneGroup) = some cfg ∧
      ¬ClaimsDue .groupSummaryRecompute cfg.hist.log :=
    System.exists_of_play (by decide +kernel)
  have hreach : (queueSystem .plain {} plainRegistry).Reachable NoJobs cfg :=
    System.reachable_of_play (fun _ _ _ => trivial)
      (.start ⟨fun _ => rfl, fun _ => rfl, fun _ => rfl⟩) hplay
  exact hclaims (hdue cfg hreach _)

end SplitBill
