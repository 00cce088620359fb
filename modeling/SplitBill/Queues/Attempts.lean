import SplitBill.Queues.Delivery

/-!
# The attempt budget

The number of attempts is a property of the payload. It is raised when a failed attempt is scheduled
anew, from the number that the worker read when it claimed the job. An attempt that never comes to
its end, or that overlaps another one, is not counted. In runs in which a worker starts a handler
only when every earlier attempt had been counted before it read the payload, a job's handler is
started `maxAttempts` times at most.
-/

namespace SplitBill

open Interleave

variable {lib : Lib}

/-! ## The payload of a job -/

/-- A stored envelope of the job, if it is one, carries the payload. -/
def Carries (p : Json) (j : Id) (raw : Stored) : Prop :=
  ∀ type envelope, JobQueue.parseEnvelope raw type j = some envelope → envelope.payload = p

/-- The payload of a job stays what it was when the job was created. -/
structure Unchanging (j : Id) (h : Hist backend Err World) : Prop where
  fresh : Draws h
  /-- The payload is created by the call that drew the job's number. -/
  creator : ∀ e ∈ h.log, created? e = some j → (e.pid, j) ∈ draws h.log
  unborn : (∀ e ∈ h.log, created? e ≠ some j) → h.world.redis.strings (.jobData j) = none ∧
    ∀ e ∈ h.log, ∀ method raw, payloadRead? method e ≠ some (j, some raw)
  uniform : ∃ p, (∀ slot, h.world.redis.strings (.jobData j) = some slot →
      Carries p j slot.value) ∧
    ∀ e ∈ h.log, ∀ method raw, payloadRead? method e = some (j, some raw) → Carries p j raw

/-- A payload that was read was stored. -/
theorem stored_of_payloadRead {caller method : Caller} {i j : Id} {pid : ℕ} {w w' : World}
    {did seen : Except Err (Option Stored)}
    (hans : (machine lib).Answer (.redis caller (.get (.jobData i))) w did seen w') {raw : Stored}
    (hread : payloadRead? method ⟨pid, .redis caller (.get (.jobData i)), w, did, seen, w'⟩ =
      some (j, some raw)) :
    ∃ slot, w.redis.strings (.jobData j) = some slot ∧ slot.value = raw := by
  obtain ⟨-, rfl, rfl⟩ := payloadRead?_get hread
  rcases answer_redis hans with ⟨hok, -, -⟩ | ⟨-, e, he, -⟩
  · rw [answer_seen_ok hans] at hok
    obtain ⟨slot, hslot, -, hvalue⟩ := Redis.lookup_eq_some.mp (Except.ok.inj hok).symm
    exact ⟨slot, hslot, hvalue⟩
  · rw [answer_seen_ok hans] at he
    cases he

namespace Unchanging

variable {j : Id} {h : Hist backend Err World} {pid : ℕ} {o : Op} {did seen : Except Err o.Res}
  {w : World}

/-- Time and the expiry of entries change no payload. -/
theorem later (hi : Unchanging j h) (hw : h.world.Later w) : Unchanging j (h.withWorld w) := by
  obtain ⟨t, ht, rfl⟩ := hw
  exact ⟨⟨hi.fresh.bound, hi.fresh.distinct⟩, hi.creator, hi.unborn, hi.uniform⟩

/-- What a step has to keep that does not create the job. -/
theorem record (hi : Unchanging j h) (hans : (machine lib).Answer o h.world did seen w)
    (hcreated : created? ⟨pid, o, h.world, did, seen, w⟩ ≠ some j)
    (hslot : ∀ slot, w.redis.strings (.jobData j) = some slot →
      h.world.redis.strings (.jobData j) = some slot ∨
        ∃ e ∈ h.log, ∃ method raw, payloadRead? method e = some (j, some raw) ∧
          ∀ p, Carries p j raw → Carries p j slot.value)
    (hread : ∀ method raw,
      payloadRead? method ⟨pid, o, h.world, did, seen, w⟩ = some (j, some raw) →
        ∃ slot, h.world.redis.strings (.jobData j) = some slot ∧ slot.value = raw) :
    Unchanging j (h.record pid o did seen w) := by
  constructor
  case fresh => exact hi.fresh.record pid hans
  case creator =>
    refine List.forall_mem_cons.mpr ⟨fun hc => absurd hc hcreated, fun e he hc => ?_⟩
    exact mem_draws_cons _ (hi.creator e he hc)
  case unborn =>
    intro hnone
    obtain ⟨hempty, hunread⟩ := hi.unborn (List.forall_mem_cons.mp hnone).2
    constructor
    · rw [Option.eq_none_iff_forall_ne_some]
      -- A payload comes from the job's creation or from one that was read.
      intro slot hs
      rcases hslot slot hs with hold | ⟨e, he, method, raw, hr, -⟩
      · rw [hempty] at hold
        cases hold
      · exact hunread e he method raw hr
    · refine List.forall_mem_cons.mpr ⟨fun method raw hr => ?_, hunread⟩
      obtain ⟨slot, hs, -⟩ := hread method raw hr
      rw [hempty] at hs
      cases hs
  case uniform =>
    obtain ⟨p, hstored, hreads⟩ := hi.uniform
    refine ⟨p, fun slot hs => ?_, List.forall_mem_cons.mpr ⟨fun method raw hr => ?_, hreads⟩⟩
    -- The payload that is stored carries what the one that was read does.
    · rcases hslot slot hs with hold | ⟨e, he, method, raw, hr, hcarries⟩
      · exact hstored slot hold
      · exact hcarries p (hreads e he method raw hr)
    · obtain ⟨slot, hs, rfl⟩ := hread method raw hr
      exact hstored slot hs

/-- A step that leaves the payload as it is, or deletes it, and reads none. -/
theorem quiet (hi : Unchanging j h) (hans : (machine lib).Answer o h.world did seen w)
    (hcreated : created? ⟨pid, o, h.world, did, seen, w⟩ ≠ some j)
    (hslot : ∀ slot, w.redis.strings (.jobData j) = some slot →
      h.world.redis.strings (.jobData j) = some slot)
    (hread : ∀ method, payloadRead? method ⟨pid, o, h.world, did, seen, w⟩ = none) :
    Unchanging j (h.record pid o did seen w) := by
  refine hi.record hans hcreated (fun slot hs => .inl (hslot slot hs)) fun method raw hr => ?_
  rw [hread method] at hr
  cases hr

/-- A step that does not write the payload and reads none. -/
theorem leaves (hi : Unchanging j h) (hans : (machine lib).Answer o h.world did seen w)
    (ho : o.LeavesKey (.jobData j)) (hcreated : created? ⟨pid, o, h.world, did, seen, w⟩ ≠ some j)
    (hread : ∀ method, payloadRead? method ⟨pid, o, h.world, did, seen, w⟩ = none) :
    Unchanging j (h.record pid o did seen w) := by
  refine hi.quiet hans hcreated (fun slot hs => ?_) hread
  rwa [answer_leavesKey ho hans] at hs

/-- A payload is read. -/
theorem read (hi : Unchanging j h) {caller : Caller} {i : Id}
    {did seen : Except Err (Option Stored)}
    (hans : (machine lib).Answer (.redis caller (.get (.jobData i))) h.world did seen w) :
    Unchanging j (h.record pid (.redis caller (.get (.jobData i))) did seen w) := by
  have hleaves : Op.LeavesKey (.jobData j) (.redis caller (.get (.jobData i))) := trivial
  refine hi.record hans (by cases caller <;> rintro ⟨⟩) (fun slot hs => .inl ?_)
    fun method raw hr => stored_of_payloadRead hans hr
  rwa [answer_leavesKey hleaves hans] at hs

/-- The call that drew a job's number creates its payload. -/
theorem create (hi : Unchanging j h) {type : JobType} {i : Id} {v : Stored}
    {envelope : JobEnvelope} {ttlMs : ℕ} (hdrawn : (pid, i) ∈ draws h.log)
    (hv : JobQueue.parseEnvelope v type i = some envelope)
    (hnew : ∀ e ∈ h.own pid, created? e = none) {did seen : Except Err Unit}
    (hans : (machine lib).Answer (.redis .enqueue (.set (.jobData i) v ttlMs)) h.world did seen w) :
    Unchanging j (h.record pid (.redis .enqueue (.set (.jobData i) v ttlMs)) did seen w) := by
  rcases answer_redis hans with ⟨rfl, rfl, -⟩ | ⟨rfl, e, rfl, -⟩
  · by_cases hij : i = j
    · subst hij
      have hnone : ∀ e ∈ h.log, created? e ≠ some i := by
        intro e he hc
        -- Only the call that drew the number creates the payload, and it has not done so yet.
        have hpid : e.pid = pid := hi.fresh.pid_eq (hi.creator e he hc) hdrawn
        rw [hnew e (Hist.mem_own.mpr ⟨he, hpid⟩)] at hc
        cases hc
      obtain ⟨-, hunread⟩ := hi.unborn hnone
      refine ⟨hi.fresh.record pid hans, ?_, fun hall => ?_, envelope.payload, ?_, ?_⟩
      · refine List.forall_mem_cons.mpr ⟨fun _ => mem_draws_cons _ hdrawn, fun e he hc => ?_⟩
        exact mem_draws_cons _ (hi.creator e he hc)
      · exact absurd rfl (List.forall_mem_cons.mp hall).1
      · intro slot hs type' envelope' hparse
        rw [Hist.record_world, Redis.exec_set_self] at hs
        obtain rfl := Option.some.inj hs
        rw [JobType.eq type' type, hv] at hparse
        rw [Option.some.inj hparse]
      · refine List.forall_mem_cons.mpr ⟨fun method raw hr => ?_, fun e he method raw hr => ?_⟩
        · cases hr
        · exact absurd hr (hunread e he method raw)
    · have hleaves : Op.LeavesKey (.jobData j) (.redis .enqueue (.set (.jobData i) v ttlMs)) :=
        fun heq => hij (Key.jobData.inj heq)
      exact hi.leaves hans hleaves (fun hc => hij (Option.some.inj hc)) (fun _ => rfl)
  · exact hi.quiet hans (by rintro ⟨⟩) (fun slot hs => hs) (fun _ => rfl)

/-- Deleting keys leaves a key as it is, or without a value. -/
theorem strings_of_del {key : Key} {caller : Caller} {ks : List Key} {did seen : Except Err ℕ}
    (hans : (machine lib).Answer (.redis caller (.del ks)) h.world did seen w) {slot : Slot Stored}
    (hs : w.redis.strings key = some slot) : h.world.redis.strings key = some slot := by
  rcases answer_redis hans with ⟨-, rfl, -⟩ | ⟨rfl, -⟩
  · have hs' : (h.world.redis.remove ks).strings key = some slot := hs
    rw [Redis.remove_strings, Option.ite_none_left_eq_some] at hs'
    exact hs'.2
  · exact hs

/-- Every step of a call of the queue keeps the payload. -/
theorem step {env : Env} {registry : JobType → JobRegistration} (hi : Unchanging j h)
    (ho : QueueStep env registry pid (h.own pid) o)
    (hans : (machine lib).Answer o h.world did seen w) :
    Unchanging j (h.record pid o did seen w) := by
  cases ho with
  | away ho =>
    have hsilent : Silent ⟨pid, o, h.world, did, seen, w⟩ := silent_of_offQueue ho
    have hdata : ¬Key.OffQueue (.jobData j) := id
    refine hi.quiet hans ?_ (fun slot hs => ?_) hsilent.read
    · rw [hsilent.created]
      rintro ⟨⟩
    · rwa [(redis_of_offQueue ho hans hdata).1] at hs
  | create hj hv hattempts hnew => exact hi.create (draws_own hj) hv hnew hans
  | add hj hc hnew =>
    exact hi.leaves hans trivial (by rintro ⟨⟩) (fun _ => rfl)
  | due =>
    exact hi.leaves hans trivial (by rintro ⟨⟩) (fun _ => rfl)
  | lease hdue ht =>
    exact hi.leaves hans (by rintro ⟨⟩) (by rintro ⟨⟩) (fun _ => rfl)
  | claim hdue hlease hnew =>
    exact hi.read hans
  | process hw hschema hnew =>
    exact hi.leaves hans trivial (by rintro ⟨⟩) (fun _ => rfl)
  | processed hw =>
    exact hi.leaves hans trivial (by rintro ⟨⟩) (fun _ => rfl)
  | @unqueue caller type i hdue hmay =>
    exact hi.leaves hans trivial (by cases caller <;> rintro ⟨⟩) (fun _ => rfl)
  | @erase caller type i hdue hmay =>
    exact hi.quiet hans (by cases caller <;> rintro ⟨⟩) (fun slot hs => strings_of_del hans hs)
      (fun _ => rfl)
  | reread hdue =>
    exact hi.read hans
  | @count type i claimed envelope stored raw v hw hbegun hread hraw hv hpayload hattempts hlt =>
    refine hi.record hans (by rintro ⟨⟩) (fun slot hs => ?_) (by rintro method raw ⟨⟩)
    -- The one write of a payload that exists: it counts an attempt and keeps the rest.
    by_cases hij : i = j
    · subst hij
      rcases answer_redis hans with ⟨-, rfl, -⟩ | ⟨rfl, -⟩
      · obtain ⟨e, he, hr⟩ := hread
        refine .inr ⟨e, (Hist.mem_own.mp he).1, _, raw, hr, fun p hp type' envelope' hparse => ?_⟩
        rw [Redis.exec_set_self] at hs
        obtain rfl := Option.some.inj hs
        rw [JobType.eq type' type, hv] at hparse
        rw [← Option.some.inj hparse, hpayload]
        exact hp type envelope hraw
      · exact .inl hs
    · have hleaves : Op.LeavesKey (.jobData j) (.redis .retryAfterFailure
          (.set (.jobData i) v env.jobQueuePayloadTtlMs)) := fun heq => hij (Key.jobData.inj heq)
      rw [answer_leavesKey hleaves hans] at hs
      exact .inl hs
  | reschedule hdue =>
    exact hi.leaves hans trivial (by rintro ⟨⟩) (fun _ => rfl)
  | release hdue =>
    exact hi.quiet hans (by rintro ⟨⟩) (fun slot hs => strings_of_del hans hs) (fun _ => rfl)

/-- Before the first job there is no payload. -/
theorem start {w : World} (hw : NoJobs w) : Unchanging j ⟨w, []⟩ := by
  refine ⟨⟨by simp [draws], by simp [draws]⟩, by simp, fun _ => ⟨hw.data j, by simp⟩, .null, ?_,
    by simp⟩
  intro slot hs
  rw [hw.data j] at hs
  cases hs

end Unchanging

/-! ## Counting the attempts -/

/-- The calls that started the handler of the job, latest first. -/
def starters (j : Id) (log : List BackendEntry) : List ℕ :=
  (log.filter (start? · = some j)).map (·.pid)

/-- The failed attempt of a call was counted. -/
def Counted (j : Id) (log : List BackendEntry) (pid : ℕ) : Prop :=
  ∃ c ∈ log, c.pid = pid ∧ counted? c = some j

instance (j : Id) (log : List BackendEntry) : DecidablePred (Counted j log) :=
  fun pid => inferInstanceAs (Decidable (∃ c ∈ log, c.pid = pid ∧ counted? c = some j))

/-- Every attempt at the job was counted. -/
def AllCounted (j : Id) (log : List BackendEntry) : Prop :=
  ∀ pid ∈ starters j log, Counted j log pid

/-- The calls that started a handler of the job are those with such an entry. -/
theorem mem_starters {j : Id} {log : List BackendEntry} {pid : ℕ} :
    pid ∈ starters j log ↔ ∃ s ∈ log, start? s = some j ∧ s.pid = pid := by
  simp only [starters, List.mem_map, List.mem_filter, decide_eq_true_eq, and_assoc]

/-- An entry that starts no handler of the job adds none. -/
theorem starters_cons_of_ne {j : Id} {e : BackendEntry} (he : start? e ≠ some j)
    (log : List BackendEntry) : starters j (e :: log) = starters j log := by
  unfold starters
  rw [List.filter_cons_of_neg (by simpa using he)]

/-- An entry that starts a handler of the job adds its call. -/
theorem starters_cons {j : Id} {e : BackendEntry} (he : start? e = some j)
    (log : List BackendEntry) : starters j (e :: log) = e.pid :: starters j log := by
  unfold starters
  rw [List.filter_cons_of_pos (by simpa using he), List.map_cons]

/-- What was started before was started. -/
theorem starters_subset {j : Id} {log log' : List BackendEntry} (h : log <:+ log') :
    starters j log ⊆ starters j log' := by
  intro pid hpid
  obtain ⟨s, hs, hstart, hp⟩ := mem_starters.mp hpid
  exact mem_starters.mpr ⟨s, h.subset hs, hstart, hp⟩

/-- The latest start. -/
theorem exists_latest_start {j : Id} {log : List BackendEntry} (h : starters j log ≠ []) :
    ∃ s l, s :: l <:+ log ∧ start? s = some j ∧ starters j log = s.pid :: starters j l := by
  induction log with
  | nil => exact absurd rfl h
  | cons e log ih =>
    by_cases he : start? e = some j
    · exact ⟨e, log, List.suffix_rfl, he, starters_cons he log⟩
    · rw [starters_cons_of_ne he] at h ⊢
      obtain ⟨s, l, hsuffix, hs⟩ := ih h
      exact ⟨s, l, hsuffix.trans (List.suffix_cons _ _), hs⟩

/-- The entries before a call read the payload of the job in order to claim it. -/
def beforeClaim (pid : ℕ) (j : Id) : List BackendEntry → List BackendEntry
  | [] => []
  | e :: log =>
    if e.pid = pid ∧ (payloadRead? .claimNext e).map (·.1) = some j then log
    else beforeClaim pid j log

/-- The claim of a call, if there is one. -/
theorem exists_claim_of_mem {pid : ℕ} {j : Id} {log : List BackendEntry} {x : BackendEntry}
    (hx : x ∈ log) (hpid : x.pid = pid) {raw : Option Stored}
    (hread : payloadRead? .claimNext x = some (j, raw)) :
    ∃ y, y :: beforeClaim pid j log <:+ log ∧ y.pid = pid ∧
      ∃ raw, payloadRead? .claimNext y = some (j, raw) := by
  induction log with
  | nil => cases hx
  | cons e log ih =>
    by_cases he : e.pid = pid ∧ (payloadRead? .claimNext e).map (·.1) = some j
    · have hbefore : beforeClaim pid j (e :: log) = log := if_pos he
      obtain ⟨⟨i, raw'⟩, hr, rfl⟩ := Option.map_eq_some_iff.mp he.2
      exact ⟨e, by rw [hbefore], he.1, raw', hr⟩
    · have hbefore : beforeClaim pid j (e :: log) = beforeClaim pid j log := if_neg he
      rcases List.mem_cons.mp hx with rfl | hx
      · exact absurd ⟨hpid, by rw [hread]; rfl⟩ he
      · obtain ⟨y, hsuffix, hy⟩ := ih hx
        rw [hbefore]
        exact ⟨y, hsuffix.trans (List.suffix_cons _ _), hy⟩

/-- A handler is started only when every earlier attempt had been counted before the worker read the
payload. -/
def StartsCounted (pid : ℕ) (o : Op) (h : Hist backend Err World) : Prop :=
  match o with
  | .process _ j => ∀ p ∈ starters j h.log, Counted j (beforeClaim pid j h.log) p
  | _ => True

instance (pid : ℕ) (o : Op) (h : Hist backend Err World) : Decidable (StartsCounted pid o h) := by
  unfold StartsCounted
  split <;> infer_instance

/-- Producers and workers, in runs in which no attempt is left uncounted when the next one
begins. -/
abbrev countingSystem (lib : Lib) (env : Env) (registry : WorkerRegistry) :
    System backend Err (Option Id) World :=
  { queueSystem lib env registry with allow := StartsCounted }

/-- What a stored envelope, if it is one, says of the attempts so far. -/
def Counts (env : Env) (j : Id) (log : List BackendEntry) (raw : Stored) : Prop :=
  ∀ type envelope, JobQueue.parseEnvelope raw type j = some envelope →
    envelope.attempts < env.jobQueueMaxAttempts ∧
      (AllCounted j log → (starters j log).length ≤ envelope.attempts)

/-- A call has claimed the job with a payload that the schema admits, or does not admit, and a
number of attempts with the property `P`. -/
def ClaimedAt (registry : JobType → JobRegistration) (j : Id) (pid : ℕ) (valid : Bool)
    (P : ℕ → Prop) (log : List BackendEntry) : Prop :=
  ∃ x ∈ log, x.pid = pid ∧ ∃ raw type envelope, payloadRead? .claimNext x = some (j, some raw) ∧
    JobQueue.parseEnvelope raw type j = some envelope ∧
    ((registry type).schema envelope.payload).isSome = valid ∧ P envelope.attempts

/-- How the attempts at a job go with the log. -/
structure Budget (env : Env) (registry : JobType → JobRegistration) (j : Id)
    (h : Hist backend Err World) : Prop where
  stored : ∀ slot, h.world.redis.strings (.jobData j) = some slot → Counts env j h.log slot.value
  claims : ∀ x l, x :: l <:+ h.log → ∀ raw, payloadRead? .claimNext x = some (j, some raw) →
    Counts env j l raw
  /-- A call claims once. -/
  once : ∀ x l, x :: l <:+ h.log → payloadRead? .claimNext x ≠ none → ∀ y ∈ l, y.pid = x.pid →
    payloadRead? .claimNext y = none
  /-- An attempt that is counted was started, unless the payload failed the schema. -/
  counters : ∀ c l, c :: l <:+ h.log → counted? c = some j →
    c.pid ∈ starters j l ∨ ClaimedAt registry j c.pid false (fun _ => True) l
  distinct : (starters j h.log).Nodup
  /-- A handler is started when all earlier attempts are counted. -/
  starts : ∀ s l, s :: l <:+ h.log → start? s = some j → AllCounted j l ∧
    ClaimedAt registry j s.pid true
      (fun n => (starters j l).length ≤ n ∧ n < env.jobQueueMaxAttempts) l

/-- A claim in a log is one in a longer log. -/
theorem ClaimedAt.mono {registry : JobType → JobRegistration} {j : Id} {pid : ℕ} {valid : Bool}
    {P : ℕ → Prop} {log log' : List BackendEntry} (hlog : log ⊆ log')
    (h : ClaimedAt registry j pid valid P log) : ClaimedAt registry j pid valid P log' := by
  obtain ⟨x, hx, hr⟩ := h
  exact ⟨x, hlog hx, hr⟩

/-- An entry that neither starts nor counts an attempt changes nothing in the count. -/
theorem Counts.cons {env : Env} {j : Id} {log : List BackendEntry} {raw : Stored}
    (h : Counts env j log raw) {e : BackendEntry} (hs : start? e ≠ some j)
    (hc : counted? e ≠ some j) : Counts env j (e :: log) raw := by
  intro type envelope hparse
  obtain ⟨hlt, hle⟩ := h type envelope hparse
  refine ⟨hlt, fun hall => ?_⟩
  unfold AllCounted at hall
  rw [starters_cons_of_ne hs] at hall ⊢
  refine hle fun p hp => ?_
  obtain ⟨c, hc', hcounted⟩ := hall p hp
  rcases List.mem_cons.mp hc' with rfl | hc'
  · exact absurd hcounted.2 hc
  · exact ⟨c, hc', hcounted⟩

namespace Budget

variable {env : Env} {registry : JobType → JobRegistration} {j : Id} {h : Hist backend Err World}
  {pid : ℕ} {o : Op} {did seen : Except Err o.Res} {w : World}

/-- Time and the expiry of entries spend no attempt. -/
theorem later (hi : Budget env registry j h) (hw : h.world.Later w) :
    Budget env registry j (h.withWorld w) := by
  obtain ⟨t, ht, rfl⟩ := hw
  exact ⟨hi.stored, hi.claims, hi.once, hi.counters, hi.distinct, hi.starts⟩

/-- Before the first job no attempt is spent. -/
theorem start {w : World} (hw : NoJobs w) : Budget env registry j ⟨w, []⟩ := by
  constructor
  case stored =>
    intro slot hs
    rw [hw.data j] at hs
    cases hs
  case claims =>
    intro x l hl
    cases List.suffix_nil.mp hl
  case once =>
    intro x l hl
    cases List.suffix_nil.mp hl
  case counters =>
    intro c l hl
    cases List.suffix_nil.mp hl
  case distinct => exact List.nodup_nil
  case starts =>
    intro s l hl
    cases List.suffix_nil.mp hl

/-- What a step has to keep. -/
theorem record (hi : Budget env registry j h)
    (hstored : ∀ slot, w.redis.strings (.jobData j) = some slot →
      Counts env j (h.record pid o did seen w).log slot.value)
    (hclaim : ∀ raw, payloadRead? .claimNext ⟨pid, o, h.world, did, seen, w⟩ = some (j, some raw) →
      Counts env j h.log raw)
    (honce : payloadRead? .claimNext ⟨pid, o, h.world, did, seen, w⟩ ≠ none →
      ∀ y ∈ h.own pid, payloadRead? .claimNext y = none)
    (hcounter : counted? ⟨pid, o, h.world, did, seen, w⟩ = some j →
      pid ∈ starters j h.log ∨ ClaimedAt registry j pid false (fun _ => True) h.log)
    (hstart : start? ⟨pid, o, h.world, did, seen, w⟩ = some j →
      pid ∉ starters j h.log ∧ AllCounted j h.log ∧ ClaimedAt registry j pid true
        (fun n => (starters j h.log).length ≤ n ∧ n < env.jobQueueMaxAttempts) h.log) :
    Budget env registry j (h.record pid o did seen w) := by
  constructor
  case stored => exact hstored
  case claims => exact forall_suffix_cons.mpr ⟨hclaim, hi.claims⟩
  case once =>
    refine forall_suffix_cons.mpr ⟨fun hr y hy hpid => ?_, hi.once⟩
    exact honce hr y (Hist.mem_own.mpr ⟨hy, hpid⟩)
  case counters => exact forall_suffix_cons.mpr ⟨hcounter, hi.counters⟩
  -- The new start is by a call that had not started the job.
  case distinct =>
    rw [Hist.record_log]
    by_cases hs : start? ⟨pid, o, h.world, did, seen, w⟩ = some j
    · rw [starters_cons hs]
      exact List.nodup_cons.mpr ⟨(hstart hs).1, hi.distinct⟩
    · rw [starters_cons_of_ne hs]
      exact hi.distinct
  case starts => exact forall_suffix_cons.mpr ⟨fun hs => (hstart hs).2, hi.starts⟩

/-- A step that starts, counts and claims nothing, and leaves the payload as it is or deletes it. -/
theorem quiet (hi : Budget env registry j h)
    (hslot : ∀ slot, w.redis.strings (.jobData j) = some slot →
      h.world.redis.strings (.jobData j) = some slot)
    (hread : payloadRead? .claimNext ⟨pid, o, h.world, did, seen, w⟩ = none)
    (hcounted : counted? ⟨pid, o, h.world, did, seen, w⟩ ≠ some j)
    (hstart : start? ⟨pid, o, h.world, did, seen, w⟩ ≠ some j) :
    Budget env registry j (h.record pid o did seen w) := by
  refine hi.record (fun slot hs => (hi.stored slot (hslot slot hs)).cons hstart hcounted)
    (fun raw hr => ?_) (fun hr => absurd hread hr) (fun hc => absurd hc hcounted)
    (fun hs => absurd hs hstart)
  rw [hread] at hr
  cases hr

/-- Two claims of one call are the same. -/
theorem claim_unique (hi : Budget env registry j h) {x y : BackendEntry} (hx : x ∈ h.log)
    (hy : y ∈ h.log) (hpid : x.pid = y.pid) (hrx : payloadRead? .claimNext x ≠ none)
    (hry : payloadRead? .claimNext y ≠ none) : x = y := by
  rcases eq_or_earlier hx hy with heq | ⟨l, hl, hmem⟩ | ⟨l, hl, hmem⟩
  · exact heq
  · exact absurd (hi.once x l hl hrx y hmem hpid.symm) hry
  · exact absurd (hi.once y l hl hry x hmem hpid) hrx

/-- A job whose payload failed the schema once was never started. -/
theorem starters_eq_nil (hi : Budget env registry j h) (hu : Unchanging j h) {q : ℕ}
    (hrefused : ClaimedAt registry j q false (fun _ => True) h.log) : starters j h.log = [] := by
  by_contra hne
  obtain ⟨s, l, hl, hs, -⟩ := exists_latest_start hne
  obtain ⟨-, y, hy, -, raw', type', envelope', hread', hparse', hvalid', -⟩ := hi.starts s l hl hs
  obtain ⟨x, hx, -, raw, type, envelope, hread, hparse, hvalid, -⟩ := hrefused
  obtain ⟨p, -, hcarries⟩ := hu.uniform
  have hp : envelope.payload = p := hcarries x hx _ raw hread type envelope hparse
  have hymem : y ∈ h.log := hl.subset (List.mem_cons_of_mem _ hy)
  have hp' : envelope'.payload = p := hcarries y hymem _ raw' hread' type' envelope' hparse'
  rw [hp', JobType.eq type' type, ← hp, hvalid] at hvalid'
  cases hvalid'

/-- The claim of a call that works on a job, with the entries before it. -/
theorem exists_claim (hi : Budget env registry j h) {type : JobType} {envelope : JobEnvelope}
    (hw : Working type j envelope (h.own pid)) :
    ∃ x raw, x :: beforeClaim pid j h.log <:+ h.log ∧ x.pid = pid ∧
      payloadRead? .claimNext x = some (j, some raw) ∧
      JobQueue.parseEnvelope raw type j = some envelope := by
  obtain ⟨x, hx, raw, hread, hparse⟩ := hw.claims
  obtain ⟨hmem, hpid⟩ := Hist.mem_own.mp hx
  obtain ⟨y, hy, hypid, raw', hyread⟩ := exists_claim_of_mem hmem hpid hread
  have hxy : x = y := hi.claim_unique hmem (hy.subset List.mem_cons_self) (hpid.trans hypid.symm)
    (by rw [hread]; rintro ⟨⟩) (by rw [hyread]; rintro ⟨⟩)
  subst hxy
  exact ⟨x, raw, hy, hpid, hread, hparse⟩

/-- A worker starts the handler when all earlier attempts were counted before its claim. -/
theorem process (hi : Budget env registry j h) (hu : Unchanging j h) {type : JobType}
    {envelope : JobEnvelope} (hw : Working type j envelope (h.own pid))
    (hschema : (registry type).schema envelope.payload ≠ none)
    (hnew : ∀ e ∈ h.own pid, start? e = none)
    (hcounted : ∀ p ∈ starters j h.log, Counted j (beforeClaim pid j h.log) p)
    (hredis : w.redis = h.world.redis) {did seen : Except Err Unit} :
    Budget env registry j (h.record pid (.process type j) did seen w) := by
  obtain ⟨x, raw, hl, hpid, hread, hparse⟩ := hi.exists_claim hw
  have hbefore : beforeClaim pid j h.log <:+ h.log := (List.suffix_cons _ _).trans hl
  have hvalid : ((registry type).schema envelope.payload).isSome = true :=
    Option.isSome_iff_ne_none.mpr hschema
  have hall : AllCounted j (beforeClaim pid j h.log) :=
    fun p hp => hcounted p (starters_subset hbefore hp)
  obtain ⟨hlt, hle⟩ := hi.claims x _ hl raw hread type envelope hparse
  -- Whatever was started by now was counted before the claim, hence started before it.
  have hsub : starters j h.log ⊆ starters j (beforeClaim pid j h.log) := by
    intro p hp
    obtain ⟨c, hc, rfl, hcount⟩ := hcounted p hp
    obtain ⟨as, m, hm⟩ := List.append_of_mem hc
    have hcm : c :: m <:+ beforeClaim pid j h.log := ⟨as, hm.symm⟩
    have hmbefore : m <:+ beforeClaim pid j h.log := (List.suffix_cons _ _).trans hcm
    rcases hi.counters c m (hcm.trans hbefore) hcount with hstarted | hrefused
    · exact starters_subset hmbefore hstarted
    · rw [hi.starters_eq_nil hu (hrefused.mono (hmbefore.trans hbefore).subset)] at hp
      cases hp
  have hlen : (starters j h.log).length ≤ envelope.attempts :=
    le_trans (List.subperm_of_subset hi.distinct hsub).length_le (hle hall)
  refine hi.record (fun slot hs => ?_) (by rintro raw ⟨⟩) (fun hr => absurd rfl hr)
    (by rintro ⟨⟩) fun _ => ⟨fun hmem => ?_, fun p hp => ?_, ?_⟩
  · rw [hredis] at hs
    intro type' envelope' hparse'
    refine ⟨(hi.stored slot hs type' envelope' hparse').1, fun hall' => ?_⟩
    -- This attempt is not counted.
    obtain ⟨c, hc, hcpid, hcount⟩ := hall' pid (mem_starters.mpr ⟨_, List.mem_cons_self, rfl, rfl⟩)
    rcases List.mem_cons.mp hc with rfl | hc
    · cases hcount
    · rw [hw.uncounted c (Hist.mem_own.mpr ⟨hc, hcpid⟩)] at hcount
      cases hcount
  · obtain ⟨s, hs, hstart, hspid⟩ := mem_starters.mp hmem
    rw [hnew s (Hist.mem_own.mpr ⟨hs, hspid⟩)] at hstart
    cases hstart
  · obtain ⟨c, hc, hcount⟩ := hcounted p hp
    exact ⟨c, hbefore.subset hc, hcount⟩
  · exact ⟨x, hl.subset List.mem_cons_self, hpid, raw, type, envelope, hread, hparse, hvalid, hlen,
      hlt⟩

/-- A worker that has begun an attempt and not counted it is the last that started one. -/
theorem length_le_of_begun (hi : Budget env registry j h) (hu : Unchanging j h) {type : JobType}
    {claimed : JobEnvelope} (hw : Working type j claimed (h.own pid))
    (hbegun : Begun registry type j claimed (h.own pid)) :
    (starters j h.log).length ≤ claimed.attempts + 1 ∧
      (pid ∈ starters j h.log ∨ ClaimedAt registry j pid false (fun _ => True) h.log) := by
  obtain ⟨x, raw, hl, hpid, hread, hparse⟩ := hi.exists_claim hw
  have hx : x ∈ h.log := hl.subset List.mem_cons_self
  rcases hbegun with ⟨s, hs, hstart⟩ | hrefused
  · obtain ⟨hs, hspid⟩ := Hist.mem_own.mp hs
    have hmem : pid ∈ starters j h.log := mem_starters.mpr ⟨s, hs, hstart, hspid⟩
    refine ⟨?_, .inl hmem⟩
    obtain ⟨t, l, htl, htstart, heq⟩ := exists_latest_start (List.ne_nil_of_mem hmem)
    obtain ⟨hall, y, hy, hypid, raw', type', envelope', hyread, hyparse, -, hle, -⟩ :=
      hi.starts t l htl htstart
    have htpid : t.pid = pid := by
      rw [heq] at hmem
      rcases List.mem_cons.mp hmem with htp | hmem
      · exact htp.symm
      · -- An earlier attempt is counted.
        obtain ⟨c, hc, hcpid, hcount⟩ := hall pid hmem
        have hc' : c ∈ h.own pid :=
          Hist.mem_own.mpr ⟨htl.subset (List.mem_cons_of_mem _ hc), hcpid⟩
        rw [hw.uncounted c hc'] at hcount
        cases hcount
    have hxy : x = y := hi.claim_unique hx (htl.subset (List.mem_cons_of_mem _ hy))
      (by rw [hpid, hypid, htpid]) (by rw [hread]; rintro ⟨⟩) (by rw [hyread]; rintro ⟨⟩)
    subst hxy
    rw [hread] at hyread
    obtain rfl := Option.some.inj (Prod.mk.inj (Option.some.inj hyread)).2
    rw [JobType.eq type' type, hparse] at hyparse
    obtain rfl := Option.some.inj hyparse
    rw [heq, List.length_cons]
    exact Nat.succ_le_succ hle
  · have hclaimed : ClaimedAt registry j pid false (fun _ => True) h.log :=
      ⟨x, hx, hpid, raw, type, claimed, hread, hparse, by rw [hrefused]; rfl, trivial⟩
    rw [hi.starters_eq_nil hu hclaimed]
    exact ⟨Nat.zero_le _, .inr hclaimed⟩

/-- A payload is stored whose number of attempts is at least that of the starts. -/
theorem store (hi : Budget env registry j h) {caller : Caller} {type : JobType} {i : Id}
    {v : Stored} {stored : JobEnvelope} {ttlMs : ℕ}
    (hv : JobQueue.parseEnvelope v type i = some stored)
    (hlt : stored.attempts < env.jobQueueMaxAttempts)
    (hle : i = j → (starters j h.log).length ≤ stored.attempts)
    (hcounter : ∀ {did : Except Err Unit} {seen w}, counted? ⟨pid, .redis caller
      (.set (.jobData i) v ttlMs), h.world, did, seen, w⟩ = some j →
        pid ∈ starters j h.log ∨ ClaimedAt registry j pid false (fun _ => True) h.log)
    {did seen : Except Err Unit}
    (hans : (machine lib).Answer (.redis caller (.set (.jobData i) v ttlMs)) h.world did seen w) :
    Budget env registry j (h.record pid (.redis caller (.set (.jobData i) v ttlMs)) did seen w) := by
  rcases answer_redis hans with ⟨rfl, rfl, -⟩ | ⟨rfl, e, rfl, -⟩
  · by_cases hij : i = j
    -- The new payload is the job's own.
    · subst hij
      refine hi.record (fun slot hs type' envelope' hparse => ?_) (by rintro raw ⟨⟩)
        (fun hr => absurd rfl hr) hcounter (by rintro ⟨⟩)
      rw [Redis.exec_set_self] at hs
      obtain rfl := Option.some.inj hs
      rw [JobType.eq type' type, hv] at hparse
      obtain rfl := Option.some.inj hparse
      refine ⟨hlt, fun _ => ?_⟩
      rw [Hist.record_log, starters_cons_of_ne (by rintro ⟨⟩)]
      exact hle rfl
    -- The payload of another job.
    · have hleaves : Op.LeavesKey (.jobData j) (.redis caller (.set (.jobData i) v ttlMs)) :=
        fun heq => hij (Key.jobData.inj heq)
      refine hi.quiet (fun slot hs => ?_) rfl ?_ (by rintro ⟨⟩)
      · rwa [answer_leavesKey hleaves hans] at hs
      · cases caller with
        | retryAfterFailure => exact fun hc => hij (Option.some.inj hc)
        | _ => rintro ⟨⟩
  · exact hi.quiet (fun slot hs => hs) rfl (by cases caller <;> rintro ⟨⟩) (by rintro ⟨⟩)

/-- A payload is read, for a claim or for a retry. -/
theorem read (hi : Budget env registry j h) {caller : Caller} {i : Id}
    (honce : ∀ y ∈ h.own pid, caller = .claimNext → payloadRead? .claimNext y = none)
    {did seen : Except Err (Option Stored)}
    (hans : (machine lib).Answer (.redis caller (.get (.jobData i))) h.world did seen w) :
    Budget env registry j (h.record pid (.redis caller (.get (.jobData i))) did seen w) := by
  have hleaves : Op.LeavesKey (.jobData j) (.redis caller (.get (.jobData i))) := trivial
  refine hi.record (fun slot hs => ?_) (fun raw hr => ?_) (fun hr y hy => ?_)
    (by cases caller <;> rintro ⟨⟩) (by rintro ⟨⟩)
  · rw [answer_leavesKey hleaves hans] at hs
    exact (hi.stored slot hs).cons (by rintro ⟨⟩) (by cases caller <;> rintro ⟨⟩)
  · obtain ⟨slot, hs, rfl⟩ := stored_of_payloadRead hans hr
    exact hi.stored slot hs
  · obtain ⟨⟨k, raw⟩, hr⟩ := Option.ne_none_iff_exists'.mp hr
    exact honce y hy (payloadRead?_get hr).1

/-- Every step of a call of the queue keeps the invariant, if attempts begin when the earlier ones
are counted. -/
theorem step (hpos : 0 < env.jobQueueMaxAttempts) (hi : Budget env registry j h)
    (hu : Unchanging j h) (ho : QueueStep env registry pid (h.own pid) o)
    (hcounted : StartsCounted pid o h) (hans : (machine lib).Answer o h.world did seen w) :
    Budget env registry j (h.record pid o did seen w) := by
  have hleaves : o.LeavesKey (.jobData j) → ∀ slot, w.redis.strings (.jobData j) = some slot →
      h.world.redis.strings (.jobData j) = some slot := by
    intro ho slot hs
    rwa [answer_leavesKey ho hans] at hs
  cases ho with
  | away ho =>
    have hsilent : Silent ⟨pid, o, h.world, did, seen, w⟩ := silent_of_offQueue ho
    have hdata : ¬Key.OffQueue (.jobData j) := id
    refine hi.quiet (hleaves (ho.leavesKey hdata)) (hsilent.read _) ?_ ?_
    · rw [hsilent.counted]
      rintro ⟨⟩
    · rw [hsilent.start]
      rintro ⟨⟩
  | @create type i v envelope hj hv hattempts hnew =>
    refine hi.store hv (by omega) (fun hij => ?_) (by rintro _ _ _ ⟨⟩) hans
    subst hij
    rw [hattempts, Nat.le_zero, List.length_eq_zero_iff]
    by_contra hne
    -- A job that is not created yet was not claimed.
    obtain ⟨s, l, hl, hs, -⟩ := exists_latest_start hne
    obtain ⟨-, y, hy, -, raw, type', envelope', hread, -⟩ := hi.starts s l hl hs
    obtain ⟨-, hunread⟩ := hu.unborn fun e he hc => by
      have hpid : e.pid = pid := hu.fresh.pid_eq (hu.creator e he hc) (draws_own hj)
      rw [hnew e (Hist.mem_own.mpr ⟨he, hpid⟩)] at hc
      cases hc
    exact hunread y (hl.subset (List.mem_cons_of_mem _ hy)) _ raw hread
  | add hj hc hnew => exact hi.quiet (hleaves trivial) rfl (by rintro ⟨⟩) (by rintro ⟨⟩)
  | due => exact hi.quiet (hleaves trivial) rfl (by rintro ⟨⟩) (by rintro ⟨⟩)
  | lease hdue ht => exact hi.quiet (hleaves (by rintro ⟨⟩)) rfl (by rintro ⟨⟩) (by rintro ⟨⟩)
  | claim hdue hlease hnew => exact hi.read (fun y hy _ => hnew y hy) hans
  | @process type i envelope hw hschema hnew =>
    have hredis := answer_redis_eq (by rintro _ _ ⟨⟩) hans
    by_cases hij : i = j
    · subst hij
      exact hi.process hu hw hschema hnew hcounted hredis
    · exact hi.quiet (hleaves trivial) rfl (by rintro ⟨⟩) (fun hs => hij (Option.some.inj hs))
  | processed hw => exact hi.quiet (hleaves trivial) rfl (by rintro ⟨⟩) (by rintro ⟨⟩)
  | @unqueue caller type i hdue hmay =>
    exact hi.quiet (hleaves trivial) rfl (by cases caller <;> rintro ⟨⟩) (by rintro ⟨⟩)
  | @erase caller type i hdue hmay =>
    exact hi.quiet (fun slot hs => Unchanging.strings_of_del hans hs) rfl
      (by cases caller <;> rintro ⟨⟩) (by rintro ⟨⟩)
  | reread hdue => exact hi.read (by rintro y hy ⟨⟩) hans
  | @count type i claimed envelope stored raw v hw hbegun hread hraw hv hpayload hattempts hlt =>
    have hle : i = j → (starters j h.log).length ≤ stored.attempts := by
      rintro rfl
      rw [hattempts]
      exact (hi.length_le_of_begun hu hw hbegun).1
    refine hi.store hv hlt hle (fun {did seen w} hc => ?_) hans
    have hij : i = j := by
      cases did with
      | error e => cases hc
      | ok u => exact Option.some.inj hc
    subst hij
    exact (hi.length_le_of_begun hu hw hbegun).2
  | reschedule hdue => exact hi.quiet (hleaves trivial) rfl (by rintro ⟨⟩) (by rintro ⟨⟩)
  | release hdue =>
    exact hi.quiet (fun slot hs => Unchanging.strings_of_del hans hs) rfl (by rintro ⟨⟩)
      (by rintro ⟨⟩)

/-- The handler was started no more often than the budget allows. -/
theorem length_starters_le (hi : Budget env registry j h) :
    (starters j h.log).length ≤ env.jobQueueMaxAttempts := by
  rcases hnil : starters j h.log with _ | ⟨p, ps⟩
  · exact Nat.zero_le _
  · have hne : starters j h.log ≠ [] := by
      rw [hnil]
      rintro ⟨⟩
    obtain ⟨s, l, hl, hs, heq⟩ := exists_latest_start hne
    obtain ⟨-, x, -, -, raw, type, envelope, -, -, -, hle, hlt⟩ := hi.starts s l hl hs
    rw [← hnil, heq, List.length_cons]
    omega

end Budget

/-! ## Runs -/

/-- As long as every attempt is counted before the payload is read for the next one, the handler of
a job is started `maxAttempts` times at most. -/
theorem attempt_budget {lib : Lib} {env : Env} {registry : WorkerRegistry}
    (hpos : 0 < env.jobQueueMaxAttempts) {cfg : (countingSystem lib env registry).Config}
    (h : (countingSystem lib env registry).Reachable NoJobs cfg) (j : Id) :
    (starters j cfg.hist.log).length ≤ env.jobQueueMaxAttempts := by
  obtain ⟨⟨-, hi⟩, -⟩ := System.keeps_of_ownLog
    (fun pid _ => QueueStep env registry.registration pid)
    (fun _ _ r l => ∀ j, r = .ok (some j) → ∃ type, ∃ e ∈ l, added? e = some (type, j))
    (fun h => Unchanging j h ∧ Budget env registry.registration j h)
    (fun pid c _ => queueCall_wp registry c) (fun w hw => ⟨.start hw, .start hw⟩)
    (fun h w hi (hw : h.world.Later w) => ⟨hi.1.later hw, hi.2.later hw⟩)
    (fun pid c o h did seen w ho hi hcounted hans =>
      ⟨hi.1.step ho hans, hi.2.step hpos hi.1 ho hcounted hans⟩) h
  exact hi.length_starters_le

instance (lib : Lib) (env : Env) (registry : WorkerRegistry) :
    DecidablePred (countingSystem lib env registry).valid :=
  fun _ => isTrue trivial

instance (lib : Lib) (env : Env) (registry : WorkerRegistry) (pid : ℕ) (o : Op)
    (h : Hist backend Err World) :
    Decidable ((countingSystem lib env registry).allow pid o h) :=
  inferInstanceAs (Decidable (StartsCounted pid o h))

/-- The first worker's handler fails and is scheduled anew, and a second worker finishes the job. -/
def retriedJob : List (System.Action (countingSystem .plain {} plainRegistry)) :=
  List.flatten [[.spawn recomputeJob], System.turns _ 0 {} 5,
    [.spawn (.processType .groupSummaryRecompute)], System.turns _ 1 {} 12,
    [.op 1 { cut := some 0 }], System.turns _ 1 {} 8,
    [.env (World.wait 2000) (World.later_wait 2000),
      .spawn (.processType .groupSummaryRecompute)], System.turns _ 2 {} 17]

/-- A job that fails once and is done at the second attempt. -/
theorem attempt_budget_retried : ∃ cfg,
    (countingSystem .plain {} plainRegistry).play retriedJob
      ((countingSystem .plain {} plainRegistry).start
        { db := { groups := [⟨10, "", 1, 0, 0⟩] } }) = some cfg ∧
    starters 0 cfg.hist.log = [2, 1] ∧ (starters 0 cfg.hist.log).length ≤ 5 := by
  obtain ⟨cfg, hplay, hstarters, hall⟩ : ∃ cfg,
      (countingSystem .plain {} plainRegistry).play retriedJob
        ((countingSystem .plain {} plainRegistry).start
          { db := { groups := [⟨10, "", 1, 0, 0⟩] } }) = some cfg ∧
      starters 0 cfg.hist.log = [2, 1] ∧
      (countingSystem .plain {} plainRegistry).Allowed cfg.hist.log :=
    System.exists_of_play (by decide +kernel)
  have hreach : (countingSystem .plain {} plainRegistry).Reachable NoJobs cfg :=
    System.reachable_of_allowed (.start ⟨fun _ => rfl, fun _ => rfl, fun _ => rfl⟩) hplay hall
  exact ⟨cfg, hplay, hstarters, attempt_budget (by decide) hreach 0⟩

/-- A worker that crashes when it has started the handler, and whose lease ends. -/
def crashingWorker (pid : ℕ) : List (System.Action (queueSystem .plain {} plainRegistry)) :=
  List.flatten [[.spawn (.processType .groupSummaryRecompute)], System.turns _ pid {} 6,
    [waits 30000]]

/-- Six such workers, one after the other. -/
def crashingWorkers : List (System.Action (queueSystem .plain {} plainRegistry)) :=
  .spawn recomputeJob :: List.flatten
    (System.turns _ 0 {} 5 :: [1, 2, 3, 4, 5, 6].map crashingWorker)

/-- The handler was started six times, although the budget is five. -/
theorem attempt_budget_crashed : ∃ cfg,
    (queueSystem .plain {} plainRegistry).Reachable NoJobs cfg ∧
    ({} : Env).jobQueueMaxAttempts = 5 ∧ starters 0 cfg.hist.log = [6, 5, 4, 3, 2, 1] := by
  obtain ⟨cfg, hplay, hstarters⟩ : ∃ cfg,
      (queueSystem .plain {} plainRegistry).play crashingWorkers
        ((queueSystem .plain {} plainRegistry).start {}) = some cfg ∧
      starters 0 cfg.hist.log = [6, 5, 4, 3, 2, 1] := System.exists_of_play (by decide +kernel)
  exact ⟨cfg, System.reachable_of_play (fun _ _ _ => trivial)
    (.start ⟨fun _ => rfl, fun _ => rfl, fun _ => rfl⟩) hplay, rfl, hstarters⟩

end SplitBill
