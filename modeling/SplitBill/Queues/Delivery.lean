import SplitBill.Queues.Protocol

/-!
# At-least-once delivery

Any number of producers and workers on one queue, with crashes, failing commands and lease expiries.
The invariant follows one job: as long as it is not settled, its payload is readable from the moment
it is stored and its number is in the queue from the moment it is added. A worker removes a job only
when it has seen a reason. One that found the payload unreadable has seen it so because the job was
settled already.
-/

namespace SplitBill

open Interleave

variable {lib : Lib}

/-- Producers and workers, side by side. -/
abbrev queueSystem (lib : Lib) (env : Env) (registry : WorkerRegistry) :
    System backend Err (Option Id) World where
  machine := machine lib
  Call := QueueCall
  body := QueueCall.body env registry
  valid _ := True
  env := World.Later

instance (lib : Lib) (env : Env) (registry : WorkerRegistry) :
    DecidablePred (queueSystem lib env registry).valid :=
  fun _ => isTrue trivial

/-- Time passes. -/
def waits {lib : Lib} {env : Env} {registry : WorkerRegistry} (ms : ℕ) :
    System.Action (queueSystem lib env registry) :=
  .env (World.wait ms) (World.later_wait ms)

/-- The worlds from which the runs start: there are no jobs. -/
structure NoJobs (w : World) : Prop where
  queue : ∀ type, w.redis.zsets (.jobQueue type) = []
  data : ∀ j, w.redis.strings (.jobData j) = none
  inflight : ∀ j, w.redis.strings (.jobInflight j) = none

/-- `parseEnvelope` accepts the payload of the job. -/
def Readable (type : JobType) (j : Id) (w : World) : Prop :=
  ∃ raw envelope, w.redis.lookup w.now (.jobData j) = some raw ∧
    JobQueue.parseEnvelope raw type j = some envelope

/-- The job is in the queue of its type. -/
def Queued (type : JobType) (j : Id) (w : World) : Prop := j ∈ w.redis.members (.jobQueue type)

/-- A due job is in the queue. -/
theorem queued_of_dueJob {type type' : JobType} {max pid : ℕ} {j : Id} {w w' : World}
    {did seen : Except Err (Option Id)} (hans : (machine lib).Answer
      (.redis .claimNext (.firstDue (.jobQueue type) max)) w did seen w')
    (hd : dueJob? ⟨pid, .redis .claimNext (.firstDue (.jobQueue type) max), w, did, seen, w'⟩ =
      some (type', j)) : Queued type' j w := by
  obtain ⟨i, hseen⟩ : ∃ i, seen = .ok (some i) := by
    rcases seen with e | _ | i
    · cases hd
    · cases hd
    · exact ⟨i, rfl⟩
  subst hseen
  obtain ⟨rfl, rfl⟩ := Prod.mk.inj (Option.some.inj hd)
  rcases answer_redis hans with ⟨hok, -, -⟩ | ⟨-, e, he, -⟩
  · rw [answer_seen_ok hans] at hok
    exact Redis.mem_of_firstDue (Except.ok.inj hok).symm
  · rw [answer_seen_ok hans] at he
    cases he

/-- There is only one type of jobs. -/
theorem JobType.eq (a b : JobType) : a = b := by
  cases a
  cases b
  rfl

/-- An entry that says nothing of any job says nothing of this one. -/
theorem Silent.not_of {e : BackendEntry} (hs : Silent e) (j : Id) :
    created? e ≠ some j ∧ (∀ type, added? e ≠ some (type, j)) ∧
      (∀ type, dueJob? e ≠ some (type, j)) ∧ ∀ type, ¬Unreadable type j e := by
  rw [hs.created, hs.added, hs.due]
  refine ⟨by rintro ⟨⟩, by rintro type ⟨⟩, by rintro type ⟨⟩, ?_⟩
  rintro type ⟨method, raw, hr, -⟩
  rw [hs.read] at hr
  cases hr

/-- How the queue goes with the log, for one job. -/
structure Delivery (env : Env) (registry : JobType → JobRegistration) (j : Id)
    (h : Hist backend Err World) : Prop where
  readable : ∀ type, (∃ e ∈ h.log, created? e = some j) →
    Settled env registry type j h.log ∨ Readable type j h.world
  queued : ∀ type, (∃ e ∈ h.log, added? e = some (type, j)) →
    Settled env registry type j h.log ∨ Queued type j h.world
  /-- Only a job whose payload was stored is ever added to the queue, or in it. -/
  added : ∀ type, (∃ e ∈ h.log, added? e = some (type, j)) → ∃ e ∈ h.log, created? e = some j
  stored : ∀ type, Queued type j h.world → ∃ e ∈ h.log, created? e = some j
  due : ∀ type, ∀ e ∈ h.log, dueJob? e = some (type, j) → ∃ e ∈ h.log, created? e = some j
  /-- Whoever found the payload unreadable came too late. -/
  unreadable : ∀ type, ∀ e ∈ h.log, Unreadable type j e → Settled env registry type j h.log

namespace Delivery

variable {env : Env} {registry : JobType → JobRegistration} {j : Id} {h : Hist backend Err World}
  {pid : ℕ} {o : Op} {did seen : Except Err o.Res} {w : World}

/-- What a step has to keep. -/
theorem record (hi : Delivery env registry j h)
    (hread : ∀ type, Readable type j h.world →
      Readable type j w ∨ Settled env registry type j h.log)
    (hcreate : created? ⟨pid, o, h.world, did, seen, w⟩ = some j → ∀ type, Readable type j w)
    (hqueued : ∀ type, Queued type j h.world → Queued type j w ∨ Settled env registry type j h.log)
    (hadd : ∀ type, added? ⟨pid, o, h.world, did, seen, w⟩ = some (type, j) →
      Queued type j w ∧ ∃ e ∈ h.log, created? e = some j)
    (hnew : ∀ type, Queued type j w →
      Queued type j h.world ∨ ∃ e ∈ h.log, created? e = some j)
    (hdue : ∀ type, dueJob? ⟨pid, o, h.world, did, seen, w⟩ = some (type, j) →
      Queued type j h.world)
    (hunreadable : ∀ type, Unreadable type j ⟨pid, o, h.world, did, seen, w⟩ →
      Settled env registry type j h.log) :
    Delivery env registry j (h.record pid o did seen w) := by
  -- What was created before is created still.
  have hstored : (∃ e ∈ h.log, created? e = some j) →
      ∃ e ∈ (h.record pid o did seen w).log, created? e = some j :=
    fun ⟨e, he, hc⟩ => ⟨e, List.mem_cons_of_mem _ he, hc⟩
  constructor
  case readable =>
    rintro type ⟨e, he, hc⟩
    rcases List.mem_cons.mp he with rfl | he
    · exact .inr (hcreate hc type)
    -- A payload is readable until its job is settled.
    · rcases hi.readable type ⟨e, he, hc⟩ with hs | hr
      · exact .inl hs.cons
      · exact (hread type hr).symm.imp Settled.cons id
  case queued =>
    rintro type ⟨e, he, ha⟩
    rcases List.mem_cons.mp he with rfl | he
    · exact .inr (hadd type ha).1
    · rcases hi.queued type ⟨e, he, ha⟩ with hs | hq
      · exact .inl hs.cons
      · exact (hqueued type hq).symm.imp Settled.cons id
  case added =>
    rintro type ⟨e, he, ha⟩
    rcases List.mem_cons.mp he with rfl | he
    · exact hstored (hadd type ha).2
    · exact hstored (hi.added type ⟨e, he, ha⟩)
  case stored =>
    intro type hq
    rcases hnew type hq with hq | hc
    · exact hstored (hi.stored type hq)
    · exact hstored hc
  case due =>
    intro type
    refine List.forall_mem_cons.mpr ⟨fun hd => ?_, fun e he hd => ?_⟩
    · exact hstored (hi.stored type (hdue type hd))
    · exact hstored (hi.due type e he hd)
  case unreadable =>
    intro type
    refine List.forall_mem_cons.mpr ⟨fun hu => ?_, fun e he hu => ?_⟩
    · exact (hunreadable type hu).cons
    · exact (hi.unreadable type e he hu).cons

/-- A step that neither touches the job nor reads it. -/
theorem quiet (hi : Delivery env registry j h)
    (hdata : w.redis.strings (.jobData j) = h.world.redis.strings (.jobData j))
    (hset : ∀ type, w.redis.zsets (.jobQueue type) = h.world.redis.zsets (.jobQueue type))
    (hnow : w.now = h.world.now)
    (hc : created? ⟨pid, o, h.world, did, seen, w⟩ ≠ some j)
    (ha : ∀ type, added? ⟨pid, o, h.world, did, seen, w⟩ ≠ some (type, j))
    (hd : ∀ type, dueJob? ⟨pid, o, h.world, did, seen, w⟩ ≠ some (type, j))
    (hu : ∀ type, ¬Unreadable type j ⟨pid, o, h.world, did, seen, w⟩) :
    Delivery env registry j (h.record pid o did seen w) := by
  -- What the invariant reads of the world is the payload, the queues and the time.
  have hqueued : ∀ type, Queued type j w ↔ Queued type j h.world := by
    intro type
    unfold Queued Redis.members
    rw [hset type]
  refine hi.record (fun type hr => .inl ?_) (fun h' => absurd h' hc)
    (fun type hq => .inl ((hqueued type).mpr hq)) (fun type h' => absurd h' (ha type))
    (fun type hq => .inl ((hqueued type).mp hq)) (fun type h' => absurd h' (hd type))
    (fun type h' => absurd h' (hu type))
  obtain ⟨raw, envelope, hlookup, hparse⟩ := hr
  refine ⟨raw, envelope, ?_, hparse⟩
  unfold Redis.lookup at hlookup ⊢
  rw [hdata, hnow]
  exact hlookup

/-- A step that says nothing of any job has to keep what is stored and what is queued. -/
theorem record_silent (hi : Delivery env registry j h)
    (hs : Silent ⟨pid, o, h.world, did, seen, w⟩)
    (hread : ∀ type, Readable type j h.world →
      Readable type j w ∨ Settled env registry type j h.log)
    (hqueued : ∀ type, Queued type j h.world → Queued type j w ∨ Settled env registry type j h.log)
    (hnew : ∀ type, Queued type j w → Queued type j h.world) :
    Delivery env registry j (h.record pid o did seen w) := by
  obtain ⟨hcreated, hadded, hdue, hunreadable⟩ := hs.not_of j
  exact hi.record hread (fun h' => absurd h' hcreated) hqueued
    (fun type h' => absurd h' (hadded type)) (fun type hq => .inl (hnew type hq))
    (fun type h' => absurd h' (hdue type)) (fun type h' => absurd h' (hunreadable type))

/-- A step that says nothing of any job and leaves the keys of the job as they were. -/
theorem quiet_of_silent (hi : Delivery env registry j h)
    (hs : Silent ⟨pid, o, h.world, did, seen, w⟩)
    (hdata : w.redis.strings (.jobData j) = h.world.redis.strings (.jobData j))
    (hset : ∀ type, w.redis.zsets (.jobQueue type) = h.world.redis.zsets (.jobQueue type))
    (hnow : w.now = h.world.now) : Delivery env registry j (h.record pid o did seen w) := by
  obtain ⟨hcreated, hadded, hdue, hunreadable⟩ := hs.not_of j
  exact hi.quiet hdata hset hnow hcreated hadded hdue hunreadable

/-- A step that says nothing of any job and leaves the queue's keys as they were. -/
theorem silent (hi : Delivery env registry j h)
    (hs : Silent ⟨pid, o, h.world, did, seen, w⟩)
    (hkeys : ∀ k : Key, ¬k.OffQueue → w.redis.strings k = h.world.redis.strings k ∧
      w.redis.zsets k = h.world.redis.zsets k) (hnow : w.now = h.world.now) :
    Delivery env registry j (h.record pid o did seen w) := by
  have hdata : ¬Key.OffQueue (.jobData j) := id
  have hqueue : ∀ type, ¬Key.OffQueue (.jobQueue type) := fun _ => id
  exact hi.quiet_of_silent hs (hkeys _ hdata).1 (fun type => (hkeys _ (hqueue type)).2) hnow

/-- A payload is stored. -/
theorem store (hi : Delivery env registry j h) {caller : Caller} {type : JobType} {i : Id}
    {v : Stored} {envelope : JobEnvelope} {ttlMs : ℕ} (hpos : 0 < ttlMs)
    (hv : JobQueue.parseEnvelope v type i = some envelope) {did seen : Except Err Unit}
    (hans : (machine lib).Answer (.redis caller (.set (.jobData i) v ttlMs)) h.world did seen w) :
    Delivery env registry j (h.record pid (.redis caller (.set (.jobData i) v ttlMs)) did seen w) := by
  rcases answer_redis hans with ⟨rfl, rfl, -⟩ | ⟨rfl, e, rfl, rfl⟩
  · by_cases hij : i = j
    · subst hij
      -- The payload is well formed and lives for some time.
      have hread : ∀ type', Readable type' i
          { h.world with redis := (h.world.redis.exec h.world.now (.set (.jobData i) v ttlMs)).2 } := by
        intro type'
        rw [JobType.eq type' type]
        have hlive : h.world.now < h.world.now + ttlMs := Nat.lt_add_of_pos_right hpos
        exact ⟨v, envelope, Redis.lookup_eq_some.mpr
          ⟨_, Function.update_self _ _ _, decide_eq_true hlive, rfl⟩, hv⟩
      refine hi.record (fun type' _ => .inl (hread type')) (fun _ => hread)
        (fun _ hq => .inl hq) ?_ (fun _ hq => .inl hq) ?_ ?_
      · cases caller <;> rintro type' ⟨⟩
      · cases caller <;> rintro type' ⟨⟩
      · rintro type' ⟨method, raw, hr, -⟩
        cases hr
    · have hne : Key.jobData j ≠ Key.jobData i := fun heq => hij (Key.jobData.inj heq).symm
      refine hi.quiet (Function.update_of_ne hne _ _) (fun _ => rfl) rfl ?_ ?_ ?_ ?_
      · intro hc
        cases caller with
        | enqueue => exact hij (Option.some.inj hc)
        | _ => cases hc
      · cases caller <;> rintro type' ⟨⟩
      · cases caller <;> rintro type' ⟨⟩
      · rintro type' ⟨method, raw, hr, -⟩
        cases hr
  · exact hi.silent silent_of_failed (fun _ _ => ⟨rfl, rfl⟩) rfl

/-- A job whose payload was stored is put into its queue. -/
theorem put (hi : Delivery env registry j h) {caller : Caller} {type : JobType} {i : Id} {score : ℕ}
    (hcreated : i = j → ∃ e ∈ h.log, created? e = some j) {did seen : Except Err ℕ}
    (hans : (machine lib).Answer (.redis caller (.zadd (.jobQueue type) score i)) h.world did seen
      w) :
    Delivery env registry j
      (h.record pid (.redis caller (.zadd (.jobQueue type) score i)) did seen w) := by
  rcases answer_redis hans with ⟨rfl, rfl, -⟩ | ⟨rfl, e, rfl, rfl⟩
  -- `ZADD` leaves the other members of the queue.
  · have hqueued : ∀ type', Queued type' j { h.world with redis :=
        (h.world.redis.exec h.world.now (.zadd (.jobQueue type) score i)).2 } ↔
          j = i ∨ Queued type' j h.world := by
      intro type'
      rw [JobType.eq type' type]
      exact Redis.mem_members_zadd h.world.now
    refine hi.record (fun _ hr => .inl hr) ?_ (fun type' hq => .inl ((hqueued type').mpr (.inr hq)))
      ?_ ?_ ?_ ?_
    · cases caller <;> rintro ⟨⟩
    · intro type' ha
      cases caller with
      | enqueue =>
        obtain ⟨-, rfl⟩ := Prod.mk.inj (Option.some.inj ha)
        exact ⟨(hqueued type').mpr (.inl rfl), hcreated rfl⟩
      | _ => cases ha
    · intro type' hq
      rcases (hqueued type').mp hq with rfl | hq
      · exact .inr (hcreated rfl)
      · exact .inl hq
    · cases caller <;> rintro type' ⟨⟩
    · rintro type' ⟨method, raw, hr, -⟩
      cases hr
  · exact hi.silent silent_of_failed (fun _ _ => ⟨rfl, rfl⟩) rfl

/-- A payload that was stored is read. -/
theorem read (hi : Delivery env registry j h) {caller : Caller} {i : Id}
    (hcreated : i = j → ∃ e ∈ h.log, created? e = some j) {did seen : Except Err (Option Stored)}
    (hans : (machine lib).Answer (.redis caller (.get (.jobData i))) h.world did seen w) :
    Delivery env registry j (h.record pid (.redis caller (.get (.jobData i))) did seen w) := by
  have hw : w = h.world := by
    rcases answer_redis hans with ⟨-, rfl, -⟩ | ⟨rfl, -⟩ <;> rfl
  subst hw
  refine hi.record (fun _ hr => .inl hr) ?_ (fun _ hq => .inl hq) ?_ (fun _ hq => .inl hq) ?_ ?_
  · cases caller <;> rintro ⟨⟩
  · cases caller <;> rintro type' ⟨⟩
  · cases caller <;> rintro type' ⟨⟩
  · rintro type' ⟨method, raw, hr, hparse⟩
    obtain ⟨-, rfl, rfl⟩ := payloadRead?_get hr
    -- A payload that is there and does not parse was refused by the invariant already.
    rcases hi.readable type' (hcreated rfl) with hs | ⟨raw', envelope, hlookup, hsome⟩
    · exact hs
    · have hraw : raw = some raw' := by
        rcases answer_redis hans with ⟨hok, -, -⟩ | ⟨-, e, he, -⟩
        · rw [answer_seen_ok hans] at hok
          exact (Except.ok.inj hok).trans hlookup
        · rw [answer_seen_ok hans] at he
          cases he
      rw [hraw, Option.bind_some, hsome] at hparse
      cases hparse

/-- A job is taken out of its queue, which is settled if it is the one in question. -/
theorem unqueue (hi : Delivery env registry j h) {caller : Caller} {type : JobType} {i : Id}
    (hsettled : i = j → ∀ type, Settled env registry type j h.log) {did seen : Except Err ℕ}
    (hans : (machine lib).Answer (.redis caller (.zrem (.jobQueue type) i)) h.world did seen w) :
    Delivery env registry j
      (h.record pid (.redis caller (.zrem (.jobQueue type) i)) did seen w) := by
  rcases answer_redis hans with ⟨rfl, rfl, -⟩ | ⟨rfl, e, rfl, rfl⟩
  · have hqueued : ∀ type', Queued type' j { h.world with redis :=
        (h.world.redis.exec h.world.now (.zrem (.jobQueue type) i)).2 } ↔
          Queued type' j h.world ∧ j ≠ i := by
      intro type'
      rw [JobType.eq type' type]
      exact Redis.mem_members_zrem h.world.now
    refine hi.record_silent silent_zrem (fun _ hr => .inl hr) (fun type' hq => ?_)
      (fun type' hq => ((hqueued type').mp hq).1)
    by_cases hij : i = j
    · exact .inr (hsettled hij type')
    · exact .inl ((hqueued type').mpr ⟨hq, fun heq => hij heq.symm⟩)
  · exact hi.silent silent_of_failed (fun _ _ => ⟨rfl, rfl⟩) rfl

/-- Keys are deleted, and if the payload of the job is among them, the job is settled. -/
theorem erase (hi : Delivery env registry j h) {caller : Caller} {ks : List Key}
    (hsettled : .jobData j ∈ ks → ∀ type, Settled env registry type j h.log)
    {did seen : Except Err ℕ}
    (hans : (machine lib).Answer (.redis caller (.del ks)) h.world did seen w) :
    Delivery env registry j (h.record pid (.redis caller (.del ks)) did seen w) := by
  have hnow : w.now = h.world.now := answer_now hans
  have hset : ∀ type, w.redis.zsets (.jobQueue type) = h.world.redis.zsets (.jobQueue type) := by
    rcases answer_redis hans with ⟨-, rfl, -⟩ | ⟨rfl, -⟩ <;> exact fun _ => rfl
  by_cases hj : .jobData j ∈ ks
  · have hs := hsettled hj
    have hqueued : ∀ type, Queued type j w ↔ Queued type j h.world := by
      intro type
      unfold Queued Redis.members
      rw [hset type]
    exact hi.record_silent silent_del (fun type _ => .inr (hs type))
      (fun type hq => .inl ((hqueued type).mpr hq)) (fun type hq => (hqueued type).mp hq)
  · have hdata : w.redis.strings (.jobData j) = h.world.redis.strings (.jobData j) := by
      rcases answer_redis hans with ⟨-, rfl, -⟩ | ⟨rfl, -⟩
      · exact if_neg hj
      · rfl
    exact hi.quiet_of_silent silent_del hdata hset hnow

/-- A job is leased. -/
theorem lease (hi : Delivery env registry j h) {i : Id} {v : Stored} {ttlMs : ℕ}
    {did seen : Except Err Bool} (hans : (machine lib).Answer
      (.redis .claimNext (.setNx (.jobInflight i) v ttlMs)) h.world did seen w) :
    Delivery env registry j
      (h.record pid (.redis .claimNext (.setNx (.jobInflight i) v ttlMs)) did seen w) := by
  have hredis : ∀ k : Key, k ≠ .jobInflight i →
      w.redis.strings k = h.world.redis.strings k ∧ w.redis.zsets k = h.world.redis.zsets k := by
    intro k hk
    rcases answer_redis hans with ⟨-, rfl, -⟩ | ⟨rfl, -⟩
    · exact Redis.exec_of_not_mem_keys _ fun hmem => hk (List.mem_singleton.mp hmem)
    · exact ⟨rfl, rfl⟩
  refine hi.quiet (hredis _ (by rintro ⟨⟩)).1 (fun type => (hredis _ (by rintro ⟨⟩)).2)
    (answer_now hans) (by rintro ⟨⟩) (by rintro type ⟨⟩) (by rintro type ⟨⟩) ?_
  rintro type ⟨method, raw, hr, -⟩
  cases hr

/-- The first due job is looked for. -/
theorem look (hi : Delivery env registry j h) {type : JobType} {max : ℕ}
    {did seen : Except Err (Option Id)} (hans : (machine lib).Answer
      (.redis .claimNext (.firstDue (.jobQueue type) max)) h.world did seen w) :
    Delivery env registry j
      (h.record pid (.redis .claimNext (.firstDue (.jobQueue type) max)) did seen w) := by
  have hw : w = h.world := by
    rcases answer_redis hans with ⟨-, rfl, -⟩ | ⟨rfl, -⟩ <;> rfl
  subst hw
  refine hi.record (fun _ hr => .inl hr) (by rintro ⟨⟩) (fun _ hq => .inl hq) (by rintro type' ⟨⟩)
    (fun _ hq => .inl hq) (fun type' hd => queued_of_dueJob hans hd) ?_
  rintro type' ⟨method, raw, hr, -⟩
  cases hr

/-- Every step of a call of the queue keeps the invariant. -/
theorem step (hpos : 0 < env.jobQueuePayloadTtlMs) (hi : Delivery env registry j h)
    (ho : QueueStep env registry pid (h.own pid) o)
    (hans : (machine lib).Answer o h.world did seen w) :
    Delivery env registry j (h.record pid o did seen w) := by
  have hlog : ∀ {P : BackendEntry → Prop}, (∃ e ∈ h.own pid, P e) → ∃ e ∈ h.log, P e :=
    fun ⟨e, he, hP⟩ => ⟨e, (Hist.mem_own.mp he).1, hP⟩
  -- A job that may be removed was seen unreadable or is settled.
  have hsettled : ∀ type, MayRemove env registry type j (h.own pid) →
      Settled env registry type j h.log := by
    intro type hmay
    obtain ⟨e, he, hu | hs⟩ := hlog hmay
    · exact hi.unreadable type e he hu
    · exact ⟨e, he, hs⟩
  have hcreated : ∀ {type i}, (∃ e ∈ h.own pid, dueJob? e = some (type, i)) → i = j →
      ∃ e ∈ h.log, created? e = some j := by
    rintro type i hdue rfl
    obtain ⟨e, he, hd⟩ := hlog hdue
    exact hi.due type e he hd
  have hall : ∀ {type i}, MayRemove env registry type i (h.own pid) → i = j →
      ∀ type', Settled env registry type' j h.log := by
    rintro type i hmay rfl type'
    rw [JobType.eq type' type]
    exact hsettled type hmay
  cases ho with
  | away ho =>
    exact hi.silent (silent_of_offQueue ho) (fun k => redis_of_offQueue ho hans) (answer_now hans)
  | create hj hv hattempts hnew => exact hi.store hpos hv hans
  | add hj hc hnew => exact hi.put (fun hij => hij ▸ hlog hc) hans
  | due => exact hi.look hans
  | lease hdue ht => exact hi.lease hans
  | claim hdue hlease hnew => exact hi.read (hcreated hdue) hans
  | process hw hschema hnew =>
    have hw := answer_redis_eq (by rintro _ _ ⟨⟩) hans
    exact hi.quiet (by rw [hw]) (fun _ => by rw [hw]) (answer_now hans) (by rintro ⟨⟩)
      (by rintro type ⟨⟩) (by rintro type ⟨⟩) (by rintro type ⟨method, raw, ⟨⟩, -⟩)
  | processed hw =>
    have hw := answer_redis_eq (by rintro _ _ ⟨⟩) hans
    exact hi.quiet (by rw [hw]) (fun _ => by rw [hw]) (answer_now hans) (by rintro ⟨⟩)
      (by rintro type ⟨⟩) (by rintro type ⟨⟩) (by rintro type ⟨method, raw, ⟨⟩, -⟩)
  -- The removals: whoever may remove the job is not owed it any more.
  | unqueue hdue hmay => exact hi.unqueue (hall hmay) hans
  | erase hdue hmay =>
    refine hi.erase (fun hmem => ?_) hans
    rcases List.mem_cons.mp hmem with heq | hmem
    · exact hall hmay (Key.jobData.inj heq).symm
    · cases List.mem_singleton.mp hmem
  | reread hdue => exact hi.read (hcreated hdue) hans
  | count hw hbegun hread hraw hv hpayload hattempts hlt => exact hi.store hpos hv hans
  | reschedule hdue => exact hi.put (hcreated hdue) hans
  | release hdue =>
    refine hi.erase (fun hmem => ?_) hans
    cases List.mem_singleton.mp hmem

end Delivery

/-! ## Runs -/

/-- The payload of the job has not reached the end of its time to live. -/
def Kept (j : Id) (w : World) : Prop :=
  ∀ s, w.redis.strings (.jobData j) = some s → s.live w.now = true

/-- Producers and workers, in runs in which the payload of the job `j` does not expire. -/
abbrev keepingSystem (lib : Lib) (env : Env) (registry : WorkerRegistry) (j : Id) :
    System backend Err (Option Id) World :=
  { queueSystem lib env registry with env := fun w w' => w.Later w' ∧ Kept j w' }

/-- Time and the expiry of entries lose no job whose payload is kept. -/
theorem Delivery.later {env : Env} {registry : JobType → JobRegistration} {j : Id}
    {h : Hist backend Err World} (hi : Delivery env registry j h) {w : World}
    (hw : h.world.Later w) (hkept : Kept j w) : Delivery env registry j (h.withWorld w) := by
  obtain ⟨t, ht, rfl⟩ := hw
  refine ⟨fun type hc => ?_, hi.queued, hi.added, hi.stored, hi.due, hi.unreadable⟩
  refine (hi.readable type hc).imp_right ?_
  rintro ⟨raw, envelope, hlookup, hparse⟩
  obtain ⟨s, hs, -, hv⟩ := Redis.lookup_eq_some.mp hlookup
  exact ⟨raw, envelope, Redis.lookup_eq_some.mpr ⟨s, hs, hkept s hs, hv⟩, hparse⟩

/-- The invariant holds of an empty queue. -/
theorem Delivery.start {env : Env} {registry : JobType → JobRegistration} {j : Id} {w : World}
    (hw : NoJobs w) : Delivery env registry j ⟨w, []⟩ := by
  refine ⟨by simp, by simp, by simp, fun type hq => ?_, by simp, by simp⟩
  unfold Queued Redis.members at hq
  rw [hw.queue type] at hq
  cases hq

/-- No job is lost: from the moment `enqueue` returned, the job is in the queue of its type with a
payload that `parseEnvelope` accepts, until it is settled. -/
theorem at_least_once {lib : Lib} {env : Env} {registry : WorkerRegistry} {j : Id}
    (hpos : 0 < env.jobQueuePayloadTtlMs) {cfg : (keepingSystem lib env registry j).Config}
    (h : (keepingSystem lib env registry j).Reachable NoJobs cfg) {pid : ℕ} {type : JobType}
    {payload : Json} {object : JobQueue.isObject payload = true} {requestId : Option String}
    {scheduledFor : Option Time} (hp : cfg.procs[pid]? =
      some (.enqueue type payload object requestId scheduledFor, .ret (some j))) :
    Settled env registry.registration type j cfg.hist.log ∨
      Queued type j cfg.hist.world ∧ Readable type j cfg.hist.world := by
  obtain ⟨hi, hreturned⟩ := System.keeps_of_ownLog
    (fun pid _ => QueueStep env registry.registration pid)
    (fun _ _ r l => ∀ j, r = .ok (some j) → ∃ type, ∃ e ∈ l, added? e = some (type, j))
    (Delivery env registry.registration j) (fun pid c _ => queueCall_wp registry c)
    (fun w hw => .start hw) (fun h w hi (hw : h.world.Later w ∧ Kept j w) => hi.later hw.1 hw.2)
    (fun pid c o h did seen w ho hi _ hans => hi.step hpos ho hans) h
  obtain ⟨type', e, he, ha⟩ := hreturned pid _ _ hp j rfl
  rw [JobType.eq type' type] at ha
  have hadded : ∃ e ∈ cfg.hist.log, added? e = some (type, j) := ⟨e, (Hist.mem_own.mp he).1, ha⟩
  rcases hi.queued type hadded with hs | hq
  · exact .inl hs
  · exact (hi.readable type (hi.added type hadded)).imp_right fun hr => ⟨hq, hr⟩

/-- The handlers of the backend, with the queries of a recompute in the order of the source. -/
abbrev plainRegistry : WorkerRegistry :=
  .jobRegistry .plain [.totalSpent, .expenseCount, .settlementCount, .memberCount]

instance (lib : Lib) (env : Env) (registry : WorkerRegistry) (j : Id) :
    DecidablePred (keepingSystem lib env registry j).valid :=
  fun _ => isTrue trivial

/-- A request to recompute the summary of a group. -/
def recomputeJob : QueueCall :=
  .enqueue .groupSummaryRecompute (.obj [("groupId", .str (.id 10))]) rfl none none

/-- A producer, and a worker that crashes when it has started the handler. -/
def crashedWorker : List (System.Action (keepingSystem .plain {} plainRegistry 0)) :=
  [.spawn recomputeJob, .op 0 {}, .op 0 {}, .op 0 {}, .op 0 {}, .op 0 {},
    .spawn (.processType .groupSummaryRecompute), .op 1 {}, .op 1 {}, .op 1 {}, .op 1 {}, .op 1 {},
    .op 1 {}]

/-- The worker crashes with the handler started, and the job is still owed. -/
theorem at_least_once_crashed : ∃ cfg,
    (keepingSystem .plain {} plainRegistry 0).play crashedWorker
      ((keepingSystem .plain {} plainRegistry 0).start {}) = some cfg ∧
    cfg.hist.log.filterMap start? = [0] ∧
    (Settled {} plainRegistry.registration .groupSummaryRecompute 0 cfg.hist.log ∨
      Queued .groupSummaryRecompute 0 cfg.hist.world ∧
        Readable .groupSummaryRecompute 0 cfg.hist.world) := by
  obtain ⟨cfg, hplay, hstarted, hp⟩ : ∃ cfg,
      (keepingSystem .plain {} plainRegistry 0).play crashedWorker
        ((keepingSystem .plain {} plainRegistry 0).start {}) = some cfg ∧
      cfg.hist.log.filterMap start? = [0] ∧
      cfg.procs[0]? = some (recomputeJob, .ret (some 0)) := ⟨_, rfl, rfl, rfl⟩
  have hreach : (keepingSystem .plain {} plainRegistry 0).Reachable NoJobs cfg :=
    System.reachable_of_play (fun _ _ _ => trivial)
      (.start ⟨fun _ => rfl, fun _ => rfl, fun _ => rfl⟩) hplay
  exact ⟨cfg, hplay, hstarted, at_least_once (by decide) hreach hp⟩

end SplitBill
