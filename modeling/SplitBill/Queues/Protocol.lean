import SplitBill.Interleave.Logic
import SplitBill.Lease
import SplitBill.Queues.WorkerRunner

/-!
# The steps of the queue's calls

Producers that call `enqueue` and workers that call `processType`, any number of them side by side.
`QueueStep` lists every operation that such a call performs, each with what the call has seen by
then; that it is complete is `queueCall_wp`. What holds of the queue in every run is then a matter
of these steps alone.
-/

namespace SplitBill

open Interleave

variable {lib : Lib}

/-! ## The calls -/

/-- The key belongs to another part of the backend. -/
def Key.OffQueue : Key → Prop
  | jobQueue _ => False
  | jobData _ => False
  | jobInflight _ => False
  | cacheGroup _ => True
  | lockSettlementGroup _ => True

/-- The operation is none of the queue's. -/
def Op.OffQueue : Op → Prop
  | .redis caller c => (caller = .groupCache ∨ caller = .distributedLock) ∧
      ∀ k ∈ c.keys, k.OffQueue
  | .process _ _ => False
  | .processed _ _ _ _ => False
  | _ => True

/-- The registered handlers, which have no business with the queue's own keys. -/
structure WorkerRegistry where
  registration : JobType → JobRegistration
  offQueue : ∀ type envelope, ((registration type).process envelope).Issues Op.OffQueue

/-- Recomputing a summary only queries the database, reads the clock and stores the result. -/
theorem issues_recomputeGroupSummary {A : Op → Prop} (hdb : ∀ o, A (.db o)) (hnow : A .now)
    (order : List Aggregate) (groupId : Id) :
    (SummaryService.recomputeGroupSummary order groupId).Issues A := by
  have hop : ∀ o : Op, A o → (Op.perform o).Issues A := fun o ho => (Prog.issues_perform _ _).mpr ho
  have hqueries : ∀ (queries : List Aggregate) (m : GroupSummaryMetrics),
      Prog.Issues A (queries.foldlM (SummaryRepository.aggregate groupId) m) := by
    intro queries
    induction queries with
    | nil => exact fun m => trivial
    | cons query queries ih =>
      intro m
      rw [List.foldlM_cons]
      exact .bind (hop _ (hdb _)) ih
  refine .bind (hop _ (hdb _)) fun group => .bind (Prog.issues_expect _ _ _) fun _ => ?_
  refine .bind (hqueries order {}) fun metrics => .bind (hop _ hnow) fun computedAt => ?_
  exact .bind (hop _ (hdb _)) fun summary => trivial

/-- The handlers of the backend. -/
def WorkerRegistry.jobRegistry (lib : Lib) (order : List Aggregate) : WorkerRegistry where
  registration := SplitBill.jobRegistry lib order
  offQueue type envelope := by
    cases type
    refine .bind (.attempt (issues_recomputeGroupSummary (fun _ => trivial) trivial order _))
      fun r => ?_
    rcases r with e | summary
    · show Prog.Issues _ (match e with | .app ⟨404, .groupNotFound, _⟩ => _ | error => _)
      split <;> trivial
    · trivial

/-- A call of `enqueue`, whose payload is an object, or a poll of a worker. -/
inductive QueueCall
  /-- `JobQueue.enqueue`. -/
  | enqueue (type : JobType) (payload : Json) (object : JobQueue.isObject payload = true)
      (requestId : Option String) (scheduledFor : Option Time)
  /-- `WorkerRunner.processType`. -/
  | processType (type : JobType)

/-- The program of a call. `enqueue` returns the number of the new job. -/
def QueueCall.body (env : Env) (registry : WorkerRegistry) : QueueCall → Act (Option Id)
  | enqueue type payload _ requestId scheduledFor => do
    return some (← JobQueue.enqueue env type payload requestId scheduledFor)
  | processType type => do
    WorkerRunner.processType env registry.registration type
    return none

/-! ## What the log says -/

/-- The job that an entry found due. -/
def dueJob? : BackendEntry → Option (JobType × Id)
  | ⟨_, .redis .claimNext (.firstDue (.jobQueue type) _), _, _, .ok (some j), _⟩ => some (type, j)
  | _ => none

/-- The payload that an entry of the method read, and whose it is. -/
def payloadRead? (method : Caller) : BackendEntry → Option (Id × Option Stored)
  | ⟨_, .redis caller (.get (.jobData j)), _, _, .ok raw, _⟩ =>
    if caller = method then some (j, raw) else none
  | _ => none

/-- The job whose payload an entry stored for the first time. -/
def created? : BackendEntry → Option Id
  | ⟨_, .redis .enqueue (.set (.jobData j) _ _), _, .ok _, _, _⟩ => some j
  | _ => none

/-- The job that an entry put into its queue for the first time. -/
def added? : BackendEntry → Option (JobType × Id)
  | ⟨_, .redis .enqueue (.zadd (.jobQueue type) _ j), _, .ok _, _, _⟩ => some (type, j)
  | _ => none

/-- The job whose handler an entry started. -/
def start? : BackendEntry → Option Id
  | ⟨_, .process _ j, _, _, _, _⟩ => some j
  | _ => none

/-- The job whose failed attempt an entry counted. -/
def counted? : BackendEntry → Option Id
  | ⟨_, .redis .retryAfterFailure (.set (.jobData j) _ _), _, .ok _, _, _⟩ => some j
  | _ => none

/-- A worker has claimed the job with this envelope. -/
def Claimed (type : JobType) (j : Id) (envelope : JobEnvelope) (log : List BackendEntry) : Prop :=
  ∃ e ∈ log, ∃ raw, payloadRead? .claimNext e = some (j, some raw) ∧
    JobQueue.parseEnvelope raw type j = some envelope

/-- An entry found the payload of the job missing or malformed. -/
def Unreadable (type : JobType) (j : Id) (e : BackendEntry) : Prop :=
  ∃ method raw, payloadRead? method e = some (j, raw) ∧
    raw.bind (JobQueue.parseEnvelope · type j) = none

/-- The entry says nothing of any job. -/
structure Silent (e : BackendEntry) : Prop where
  due : dueJob? e = none
  read : ∀ method, payloadRead? method e = none
  created : created? e = none
  added : added? e = none
  start : start? e = none
  counted : counted? e = none

/-- An operation that is none of the queue's says nothing of any job. -/
theorem silent_of_offQueue {o : Op} (ho : o.OffQueue) {pid : ℕ} {w w' : World}
    {did seen : Except Err o.Res} : Silent ⟨pid, o, w, did, seen, w'⟩ := by
  cases o with
  | redis caller c =>
    obtain ⟨hcaller, hkeys⟩ := ho
    have hread : ∀ method,
        payloadRead? method ⟨pid, .redis caller c, w, did, seen, w'⟩ = none := by
      intro method
      cases c with
      | get k =>
        cases k with
        | jobData i => exact (hkeys _ List.mem_cons_self).elim
        | _ => rfl
      | _ => rfl
    rcases hcaller with rfl | rfl <;> exact ⟨rfl, hread, rfl, rfl, rfl, rfl⟩
  | process type i => exact ho.elim
  | processed type i a r => exact ho.elim
  | _ => exact ⟨rfl, fun _ => rfl, rfl, rfl, rfl, rfl⟩

section Silent

variable {pid : ℕ} {caller : Caller} {w w' : World}

/-- A command that failed says nothing of any job. -/
theorem silent_of_failed {c : Command Key Stored} {e e' : Err} :
    Silent ⟨pid, .redis caller c, w, .error e, .error e', w'⟩ where
  due := by
    unfold dueJob?
    split
    next heq => cases heq
    next => rfl
  read method := by
    unfold payloadRead?
    split
    next heq => cases heq
    next => rfl
  created := by
    unfold created?
    split
    next heq => cases heq
    next => rfl
  added := by
    unfold added?
    split
    next heq => cases heq
    next => rfl
  start := rfl
  counted := by
    unfold counted?
    split
    next heq => cases heq
    next => rfl

/-- Nothing is said of a job that is taken out of a queue. -/
theorem silent_zrem {k : Key} {i : Id} {did seen : Except Err ℕ} :
    Silent ⟨pid, .redis caller (.zrem k i), w, did, seen, w'⟩ := by
  cases caller <;> exact ⟨rfl, fun _ => rfl, rfl, rfl, rfl, rfl⟩

/-- Nothing is said of a job whose keys are deleted. -/
theorem silent_del {ks : List Key} {did seen : Except Err ℕ} :
    Silent ⟨pid, .redis caller (.del ks), w, did, seen, w'⟩ := by
  cases caller <;> exact ⟨rfl, fun _ => rfl, rfl, rfl, rfl, rfl⟩

end Silent

/-- An operation that is none of the queue's does not write the queue's keys. -/
theorem Op.OffQueue.leavesKey {o : Op} (ho : o.OffQueue) {k : Key} (hk : ¬k.OffQueue) :
    o.LeavesKey k := by
  cases o with
  | redis caller c => exact Command.leavesKey_of_not_mem_keys fun hmem => hk (ho.2 k hmem)
  | _ => trivial

/-- What a read of a payload says. -/
theorem payloadRead?_get {method caller : Caller} {i j : Id} {pid : ℕ} {w w' : World}
    {did seen : Except Err (Option Stored)} {raw : Option Stored}
    (h : payloadRead? method ⟨pid, .redis caller (.get (.jobData i)), w, did, seen, w'⟩ =
      some (j, raw)) : caller = method ∧ i = j ∧ seen = .ok raw := by
  cases seen with
  | error e => cases h
  | ok raw' =>
    have h' : (if caller = method then some (i, raw') else none) = some (j, raw) := h
    by_cases hcaller : caller = method
    · rw [if_pos hcaller] at h'
      obtain ⟨hij, rfl⟩ := Prod.mk.inj (Option.some.inj h')
      exact ⟨hcaller, hij, rfl⟩
    · rw [if_neg hcaller] at h'
      cases h'

/-- An operation that is none of the queue's leaves the queue's keys as they were. -/
theorem redis_of_offQueue {o : Op} (ho : o.OffQueue) {w w' : World}
    {did seen : Except Err o.Res} (h : (machine lib).Answer o w did seen w') {k : Key}
    (hk : ¬k.OffQueue) : w'.redis.strings k = w.redis.strings k ∧
      w'.redis.zsets k = w.redis.zsets k := by
  cases o with
  | redis caller c =>
    rcases answer_redis h with ⟨-, rfl, -⟩ | ⟨rfl, -⟩
    · exact Redis.exec_of_not_mem_keys _ fun hmem => hk (ho.2 k hmem)
    · exact ⟨rfl, rfl⟩
  | _ =>
    rw [answer_redis_eq (by rintro _ _ ⟨⟩) h]
    exact ⟨rfl, rfl⟩

section Registry

variable (env : Env) (registry : JobType → JobRegistration) (pid : ℕ)

/-- The outcome of a handler after which its job is not tried again: it returned, it declared the
failure permanent, or it failed in the last attempt. -/
def Final (attempts : ℕ) : Except Err Unit → Prop
  | .ok _ => True
  | .error (.permanentJobFailure _) => True
  | .error _ => env.jobQueueMaxAttempts ≤ attempts + 1

/-- After this entry the job is not owed any more: its handler came to an end that is final, or its
payload failed the registered schema. -/
def Settles (type : JobType) (j : Id) (e : BackendEntry) : Prop :=
  (∃ attempts outcome, e.op = .processed type j attempts outcome ∧ Final env attempts outcome) ∨
    ∃ raw envelope, payloadRead? .claimNext e = some (j, some raw) ∧
      JobQueue.parseEnvelope raw type j = some envelope ∧
      (registry type).schema envelope.payload = none

/-- The job is not owed any more. -/
def Settled (type : JobType) (j : Id) (log : List BackendEntry) : Prop :=
  ∃ e ∈ log, Settles env registry type j e

/-- A call has seen that the job may be removed. -/
def MayRemove (type : JobType) (j : Id) (log : List BackendEntry) : Prop :=
  ∃ e ∈ log, Unreadable type j e ∨ Settles env registry type j e

/-- What a call has seen of a job that it found due and claimed, as long as it has not counted an
attempt. -/
structure Working (type : JobType) (j : Id) (envelope : JobEnvelope) (log : List BackendEntry) :
    Prop where
  due : ∃ e ∈ log, dueJob? e = some (type, j)
  claims : Claimed type j envelope log
  uncounted : ∀ e ∈ log, counted? e = none

/-- The worker has started the handler, or its payload failed the schema. -/
def Begun (type : JobType) (j : Id) (envelope : JobEnvelope) (log : List BackendEntry) : Prop :=
  (∃ e ∈ log, start? e = some j) ∨ (registry type).schema envelope.payload = none

/-- What a worker has seen when its `try` ends with the error. -/
structure Failed (type : JobType) (j : Id) (envelope : JobEnvelope) (error : Err)
    (log : List BackendEntry) : Prop where
  working : Working type j envelope log
  begun : Begun registry type j envelope log
  reason : Settled env registry type j log ∨
    ∃ e ∈ log, e.op = .processed type j envelope.attempts (.error error)

/-- An operation of the call `pid`, after the entries of the call so far. -/
inductive QueueStep (log : List BackendEntry) : Op → Prop
  /-- An operation that is none of the queue's. -/
  | away {o : Op} (h : o.OffQueue) : QueueStep log o
  /-- `SET` of `enqueue`. -/
  | create {type : JobType} {j : Id} {v : Stored} {envelope : JobEnvelope}
      (hj : (pid, j) ∈ draws log) (hv : JobQueue.parseEnvelope v type j = some envelope)
      (hattempts : envelope.attempts = 0) (hnew : ∀ e ∈ log, created? e = none) :
      QueueStep log (.redis .enqueue (.set (.jobData j) v env.jobQueuePayloadTtlMs))
  /-- `ZADD` of `enqueue`. -/
  | add {type : JobType} {j : Id} {score : ℕ} (hj : (pid, j) ∈ draws log)
      (hcreated : ∃ e ∈ log, created? e = some j) (hnew : ∀ e ∈ log, added? e = none) :
      QueueStep log (.redis .enqueue (.zadd (.jobQueue type) score j))
  /-- The script of `dueJobId`. -/
  | due {type : JobType} {max : ℕ} :
      QueueStep log (.redis .claimNext (.firstDue (.jobQueue type) max))
  /-- `SET … NX` of `claimNext`. -/
  | lease {type : JobType} {j t : Id} (hdue : ∃ e ∈ log, dueJob? e = some (type, j))
      (ht : (pid, t) ∈ draws log) :
      QueueStep log (.redis .claimNext
        (.setNx (.jobInflight j) (.token t) env.jobQueueLeaseMs))
  /-- `GET` of `claimNext`. -/
  | claim {type : JobType} {j : Id} (hdue : ∃ e ∈ log, dueJob? e = some (type, j))
      (hlease : ∃ e ∈ log, acquire? (.jobInflight j) e = some (.ok true))
      (hnew : ∀ e ∈ log, payloadRead? .claimNext e = none) :
      QueueStep log (.redis .claimNext (.get (.jobData j)))
  /-- The start of the handler. -/
  | process {type : JobType} {j : Id} {envelope : JobEnvelope}
      (hw : Working type j envelope log)
      (hschema : (registry type).schema envelope.payload ≠ none)
      (hnew : ∀ e ∈ log, start? e = none) : QueueStep log (.process type j)
  /-- The end of the handler. -/
  | processed {type : JobType} {j : Id} {envelope : JobEnvelope} {outcome : Except Err Unit}
      (hw : Working type j envelope log) :
      QueueStep log (.processed type j envelope.attempts outcome)
  /-- `ZREM` of `complete`, `discard` or `retryAfterFailure`. -/
  | unqueue {caller : Caller} {type : JobType} {j : Id}
      (hdue : ∃ e ∈ log, dueJob? e = some (type, j)) (h : MayRemove env registry type j log) :
      QueueStep log (.redis caller (.zrem (.jobQueue type) j))
  /-- `DEL` of `complete` or `discard`. -/
  | erase {caller : Caller} {type : JobType} {j : Id}
      (hdue : ∃ e ∈ log, dueJob? e = some (type, j)) (h : MayRemove env registry type j log) :
      QueueStep log (.redis caller (.del [.jobData j, .jobInflight j]))
  /-- `GET` of `retryAfterFailure`. -/
  | reread {type : JobType} {j : Id} (hdue : ∃ e ∈ log, dueJob? e = some (type, j)) :
      QueueStep log (.redis .retryAfterFailure (.get (.jobData j)))
  /-- `SET` of `retryAfterFailure`. -/
  | count {type : JobType} {j : Id} {claimed envelope stored : JobEnvelope} {raw v : Stored}
      (hw : Working type j claimed log) (hbegun : Begun registry type j claimed log)
      (hread : ∃ e ∈ log, payloadRead? .retryAfterFailure e = some (j, some raw))
      (hraw : JobQueue.parseEnvelope raw type j = some envelope)
      (hv : JobQueue.parseEnvelope v type j = some stored)
      (hpayload : stored.payload = envelope.payload)
      (hattempts : stored.attempts = claimed.attempts + 1)
      (hlt : stored.attempts < env.jobQueueMaxAttempts) :
      QueueStep log (.redis .retryAfterFailure
        (.set (.jobData j) v env.jobQueuePayloadTtlMs))
  /-- `ZADD` of `retryAfterFailure`. -/
  | reschedule {type : JobType} {j : Id} {score : ℕ}
      (hdue : ∃ e ∈ log, dueJob? e = some (type, j)) :
      QueueStep log (.redis .retryAfterFailure (.zadd (.jobQueue type) score j))
  /-- `DEL` of `retryAfterFailure`. -/
  | release {type : JobType} {j : Id} (hdue : ∃ e ∈ log, dueJob? e = some (type, j)) :
      QueueStep log (.redis .retryAfterFailure (.del [.jobInflight j]))

/-! ## What a call has seen stays seen -/

variable {env registry pid} {type : JobType} {j : Id} {envelope : JobEnvelope} {e : BackendEntry}
  {log : List BackendEntry}

/-- A call that may remove the job still may one entry later. -/
theorem MayRemove.cons (h : MayRemove env registry type j log) :
    MayRemove env registry type j (e :: log) := by
  obtain ⟨x, hx, hr⟩ := h
  exact ⟨x, List.mem_cons_of_mem _ hx, hr⟩

/-- A call that works on the job still does after an entry that counts no attempt. -/
theorem Working.cons (h : Working type j envelope log) (he : counted? e = none) :
    Working type j envelope (e :: log) := by
  obtain ⟨x, hx, hdue⟩ := h.due
  obtain ⟨y, hy, hread⟩ := h.claims
  exact ⟨⟨x, List.mem_cons_of_mem _ hx, hdue⟩, ⟨y, List.mem_cons_of_mem _ hy, hread⟩,
    List.forall_mem_cons.mpr ⟨he, h.uncounted⟩⟩

/-- What the worker has begun stays begun. -/
theorem Begun.cons (h : Begun registry type j envelope log) :
    Begun registry type j envelope (e :: log) := by
  rcases h with ⟨x, hx, hs⟩ | hschema
  · exact .inl ⟨x, List.mem_cons_of_mem _ hx, hs⟩
  · exact .inr hschema

/-! ## The programs take these steps -/

section Programs

variable {lib : Lib}

/-- One operation of a call. -/
theorem step_wp {o : Op} {Q : Except Err o.Res → List BackendEntry → Prop}
    (ho : QueueStep env registry pid log o)
    (hQ : ∀ w did r w', (machine lib).Answer o w did r w' →
      Q r (⟨pid, o, w, did, r, w'⟩ :: log)) :
    wp ((machine lib).ownLog pid (QueueStep env registry pid)) Q (Op.perform o) log :=
  wp_ownLog_perform ho hQ

/-- What a producer has seen before it puts its job into the queue. -/
structure Created (pid : ℕ) (j : Id) (log : List BackendEntry) : Prop where
  drawn : (pid, j) ∈ draws log
  created : ∃ e ∈ log, created? e = some j
  unadded : ∀ e ∈ log, added? e = none

/-- A producer puts its job into the queue. -/
theorem add_wp (hc : Created pid j log) (score : ℕ) :
    wp ((machine lib).ownLog pid (QueueStep env registry pid))
      (fun r l => ∀ i, r = .ok i → ∃ e ∈ l, added? e = some (type, i))
      (do
        let _ ← JobQueue.command .enqueue (.zadd (.jobQueue type) score j)
        return j) log := by
  refine wp_bind.mpr (step_wp (.add hc.drawn hc.created hc.unadded) fun w did r w' hans => ?_)
  cases r with
  | error e => rintro i ⟨⟩
  | ok n =>
    obtain rfl := answer_seen_ok hans
    rintro i hi
    obtain rfl := Except.ok.inj hi
    exact ⟨_, List.mem_cons_self, rfl⟩

/-- A producer determines when its job is due, and puts it into the queue. -/
theorem schedule_wp (hc : Created pid j log) (scheduledFor : Option Time) :
    wp ((machine lib).ownLog pid (QueueStep env registry pid))
      (fun r l => ∀ i, r = .ok i → ∃ e ∈ l, added? e = some (type, i))
      (do
        let score ← dateOrNow scheduledFor
        let _ ← JobQueue.command .enqueue (.zadd (.jobQueue type) score j)
        return j) log := by
  cases scheduledFor with
  | some score => exact add_wp hc score
  | none =>
    refine wp_bind.mpr (step_wp (.away trivial) fun w did r w' hans => ?_)
    obtain ⟨score, rfl, rfl⟩ := answer_of_fault_none rfl hans
    obtain ⟨e, he, hcreated⟩ := hc.created
    have hc' : Created pid j (⟨pid, .now, w, .ok score, .ok score, w'⟩ :: log) :=
      ⟨hc.drawn, ⟨e, List.mem_cons_of_mem _ he, hcreated⟩,
        List.forall_mem_cons.mpr ⟨rfl, hc.unadded⟩⟩
    exact add_wp hc' score

/-- `enqueue` has put its job into the queue when it returns. -/
theorem enqueue_wp {payload : Json} (hpayload : JobQueue.isObject payload = true)
    (requestId : Option String) (scheduledFor : Option Time) :
    wp ((machine lib).ownLog pid (QueueStep env registry pid))
      (fun r l => ∀ j, r = .ok j → ∃ e ∈ l, added? e = some (type, j))
      (JobQueue.enqueue env type payload requestId scheduledFor) [] := by
  refine wp_bind.mpr (step_wp (.away trivial) fun w did r w' hans => ?_)
  obtain ⟨rfl, rfl, rfl⟩ := answer_random hans
  refine wp_bind.mpr (step_wp (.away trivial) fun w₁ did₁ r₁ w₁' hans₁ => ?_)
  obtain ⟨createdAt, rfl, rfl⟩ := answer_of_fault_none rfl hans₁
  obtain ⟨envelope, hparse, -, hattempts⟩ :=
    @JobQueue.parseEnvelope_enqueue type w.random payload hpayload createdAt requestId
  refine wp_bind.mpr (step_wp (.create List.mem_cons_self hparse hattempts ?_) ?_)
  · exact List.forall_mem_cons.mpr ⟨rfl, List.forall_mem_singleton.mpr rfl⟩
  intro w₂ did₂ r₂ w₂' hans₂
  cases r₂ with
  | error e => rintro i ⟨⟩
  | ok u =>
    obtain rfl := answer_seen_ok hans₂
    refine schedule_wp ?_ scheduledFor
    exact ⟨List.mem_cons_self, ⟨_, List.mem_cons_self, rfl⟩, List.forall_mem_cons.mpr
      ⟨rfl, List.forall_mem_cons.mpr ⟨rfl, List.forall_mem_singleton.mpr rfl⟩⟩⟩

/-- An operation of `complete` or `discard`, or none of the queue's. -/
def Removing (caller : Caller) (type : JobType) (j : Id) (o : Op) : Prop :=
  o = .redis caller (.zrem (.jobQueue type) j) ∨
    o = .redis caller (.del [.jobData j, .jobInflight j]) ∨ o.OffQueue

/-- `complete` and `discard` issue the two operations of a removal. -/
theorem issues_remove (caller : Caller) (type : JobType) (j : Id) :
    (JobQueue.remove caller type j).Issues (Removing caller type j) :=
  .bind ((Prog.issues_perform _ _).mpr (.inl rfl)) fun _ =>
    .bind ((Prog.issues_perform _ _).mpr (.inr (.inl rfl))) fun _ => trivial

/-- A count is no removal. -/
theorem issues_increment (caller : Caller) (type : JobType) (j : Id) (m : Metric) :
    (increment m).Issues (Removing caller type j) := by
  have haway : (Op.metric m).OffQueue := trivial
  exact (Prog.issues_perform _ _).mpr (.inr (.inr haway))

/-- A call that has seen that a job may be removed removes it. -/
theorem removing_wp {α : Type} {caller : Caller} {p : Act α}
    (hp : p.Issues (Removing caller type j))
    {I : List BackendEntry → Prop}
    (hmay : ∀ l, I l → (∃ e ∈ l, dueJob? e = some (type, j)) ∧ MayRemove env registry type j l)
    (hcons : ∀ l e, I l → counted? e = none → I (e :: l)) (hI : I log) :
    wp ((machine lib).ownLog pid (QueueStep env registry pid)) (fun _ l => I l) p log := by
  refine wp_ownLog_of_issues hp ?_ ?_ (fun _ _ hl => hl) hI
  · intro l o hl ho
    obtain ⟨hdue, hremove⟩ := hmay l hl
    rcases ho with rfl | rfl | ho
    · exact .unqueue hdue hremove
    · exact .erase hdue hremove
    · exact .away ho
  · intro l o w did r w' hl ho _
    apply hcons l _ hl
    rcases ho with rfl | rfl | ho
    · cases caller <;> rfl
    · cases caller <;> rfl
    · exact (silent_of_offQueue ho).counted

/-- The worker has counted no attempt, started no handler and read no payload. -/
def Idle (log : List BackendEntry) : Prop :=
  ∀ e ∈ log, counted? e = none ∧ start? e = none ∧ payloadRead? .claimNext e = none

/-- A worker reads the payload of the job that it has leased. -/
theorem claim_wp (hdue : ∃ e ∈ log, dueJob? e = some (type, j))
    (hlease : ∃ e ∈ log, acquire? (.jobInflight j) e = some (.ok true)) (hidle : Idle log) :
    wp ((machine lib).ownLog pid (QueueStep env registry pid))
      (fun r l => ∀ i envelope, r = .ok (.claimed i envelope) →
        Working type i envelope l ∧ ∀ e ∈ l, start? e = none)
      (do
        let raw : Option Stored ← JobQueue.command .claimNext (.get (.jobData j))
        match raw.bind (JobQueue.parseEnvelope · type j) with
        | none =>
          JobQueue.discard type j
          return .malformed j
        | some envelope => return .claimed j envelope : Act ClaimResult) log := by
  obtain ⟨x, hx, hxdue⟩ := hdue
  refine wp_bind.mpr (step_wp (.claim ⟨x, hx, hxdue⟩ hlease fun e he => (hidle e he).2.2)
    fun w did r w' hans => ?_)
  rcases r with e | raw
  · rintro i envelope ⟨⟩
  -- The payload is unreadable and the job is discarded, or it is the caller's.
  cases hraw : raw.bind (JobQueue.parseEnvelope · type j) with
  | none =>
    show wp _ _ (match raw.bind (JobQueue.parseEnvelope · type j) with | none => _ | some _ => _) _
    rw [hraw]
    refine wp_bind.mpr (wp_mono ?_ (removing_wp (issues_remove .discard type j)
      (I := fun l => (∃ e ∈ l, dueJob? e = some (type, j)) ∧ MayRemove env registry type j l)
      (fun l hl => hl) ?_ ?_))
    · rintro (e | u) l hl
      · rintro i envelope ⟨⟩
      · rintro i envelope ⟨⟩
    · rintro l e ⟨⟨y, hy, hydue⟩, hmay⟩ -
      exact ⟨⟨y, List.mem_cons_of_mem _ hy, hydue⟩, hmay.cons⟩
    · exact ⟨⟨x, List.mem_cons_of_mem _ hx, hxdue⟩, _, List.mem_cons_self, .inl
        ⟨.claimNext, raw, rfl, hraw⟩⟩
  | some envelope =>
    show wp _ _ (match raw.bind (JobQueue.parseEnvelope · type j) with | none => _ | some _ => _) _
    rw [hraw]
    rintro i envelope' hi
    obtain ⟨rfl, rfl⟩ := ClaimResult.claimed.inj (Except.ok.inj hi)
    obtain ⟨raw', rfl, hparse⟩ := Option.bind_eq_some_iff.mp hraw
    refine ⟨⟨⟨x, List.mem_cons_of_mem _ hx, hxdue⟩,
      ⟨_, List.mem_cons_self, raw', rfl, hparse⟩, ?_⟩, ?_⟩
    · exact List.forall_mem_cons.mpr ⟨rfl, fun e he => (hidle e he).1⟩
    · exact List.forall_mem_cons.mpr ⟨rfl, fun e he => (hidle e he).2.1⟩

/-- A worker claims a job that it found due and leased. -/
theorem claimNext_wp :
    wp ((machine lib).ownLog pid (QueueStep env registry pid))
      (fun r l => ∀ i envelope, r = .ok (.claimed i envelope) →
        Working type i envelope l ∧ ∀ e ∈ l, start? e = none)
      (JobQueue.claimNext env type) [] := by
  -- The clock, the earliest due job, the token, the lease and the payload, in this order.
  refine wp_bind.mpr (wp_bind.mpr (step_wp (.away trivial) fun w did r w' hans => ?_))
  obtain ⟨now, rfl, rfl⟩ := answer_of_fault_none rfl hans
  refine step_wp .due fun w₁ did₁ r₁ w₁' hans₁ => ?_
  rcases r₁ with e | _ | i
  · rintro i envelope ⟨⟩
  · rintro i envelope ⟨⟩
  refine wp_bind.mpr (step_wp (.away trivial) fun w₂ did₂ r₂ w₂' hans₂ => ?_)
  obtain ⟨rfl, rfl, rfl⟩ := answer_random hans₂
  refine wp_bind.mpr (step_wp (.lease ⟨_, List.mem_cons_of_mem _ List.mem_cons_self, rfl⟩
    List.mem_cons_self) fun w₃ did₃ r₃ w₃' hans₃ => ?_)
  rcases r₃ with e | _ | _
  · rintro i envelope ⟨⟩
  · rintro i envelope ⟨⟩
  refine claim_wp ?_ ?_ ?_
  · exact ⟨_, List.mem_cons_of_mem _ (List.mem_cons_of_mem _ List.mem_cons_self), rfl⟩
  · exact ⟨_, List.mem_cons_self, if_pos rfl⟩
  simp only [Idle, List.forall_mem_cons]
  exact ⟨⟨rfl, rfl, rfl⟩, ⟨rfl, rfl, rfl⟩, ⟨rfl, rfl, rfl⟩, ⟨rfl, rfl, rfl⟩, by simp⟩

/-- A job whose claimed payload failed the schema is settled. -/
theorem Working.settled (hw : Working type j envelope log)
    (hschema : (registry type).schema envelope.payload = none) :
    Settled env registry type j log := by
  obtain ⟨e, he, raw, hread, hparse⟩ := hw.claims
  exact ⟨e, he, .inr ⟨raw, envelope, hread, hparse, hschema⟩⟩

/-- A job that is not owed is not owed one entry later. -/
theorem Settled.cons (h : Settled env registry type j log) :
    Settled env registry type j (e :: log) := by
  obtain ⟨x, hx, hs⟩ := h
  exact ⟨x, List.mem_cons_of_mem _ hx, hs⟩

/-- A job that is not owed may be removed. -/
theorem Settled.mayRemove (h : Settled env registry type j log) :
    MayRemove env registry type j log := by
  obtain ⟨x, hx, hs⟩ := h
  exact ⟨x, hx, .inr hs⟩

/-- A worker removes a job that it works on and that is settled. -/
theorem removeSettled_wp {α : Type} {caller : Caller} {p : Act α}
    (hp : p.Issues (Removing caller type j)) (hw : Working type j envelope log)
    (hbegun : Begun registry type j envelope log) (hs : Settled env registry type j log)
    {Q : Except Err α → List BackendEntry → Prop}
    (hQ : ∀ r l, Working type j envelope l → Begun registry type j envelope l →
      Settled env registry type j l → Q r l) :
    wp ((machine lib).ownLog pid (QueueStep env registry pid)) Q p log := by
  refine wp_mono (fun r l hl => hQ r l hl.1 hl.2.1 hl.2.2) (removing_wp hp
    (I := fun l => Working type j envelope l ∧ Begun registry type j envelope l ∧
      Settled env registry type j l) ?_ ?_ ⟨hw, hbegun, hs⟩)
  · rintro l ⟨hw, -, hs⟩
    exact ⟨hw.due, hs.mayRemove⟩
  · rintro l e ⟨hw, hbegun, hs⟩ he
    exact ⟨hw.cons he, hbegun.cons, hs.cons⟩

/-- A worker runs the job that it has claimed. -/
theorem runJob_wp (hoff : ∀ envelope, ((registry type).process envelope).Issues Op.OffQueue)
    (hw : Working type j envelope log) (hidle : ∀ e ∈ log, start? e = none) :
    wp ((machine lib).ownLog pid (QueueStep env registry pid))
      (fun r l => ∀ error, r = .error error →
        Failed env registry type j envelope error l)
      (WorkerRunner.runJob (registry type) type j envelope) log := by
  unfold WorkerRunner.runJob
  have hdone : ∀ (r : Except Err Unit) (l : List BackendEntry), Working type j envelope l →
      Begun registry type j envelope l → Settled env registry type j l → ∀ error,
        r = .error error → Failed env registry type j envelope error l :=
    fun r l hw hbegun hs error _ => ⟨hw, hbegun, .inl hs⟩
  cases hschema : (registry type).schema envelope.payload with
  | none =>
    -- The payload fails the schema.
    exact removeSettled_wp
      (.bind (issues_remove .discard type j) fun _ => issues_increment _ _ _ _)
      hw (.inr hschema) (hw.settled hschema) hdone
  | some payload =>
    refine wp_bind.mpr (step_wp (.process hw (by rw [hschema]; rintro ⟨⟩) hidle)
      fun w did r w' hans => ?_)
    obtain ⟨u, rfl, rfl⟩ := answer_of_fault_none rfl hans
    -- The handler.
    refine wp_bind.mpr (wp_attempt.mpr (wp_ownLog_of_issues (hoff _)
      (I := fun l => Working type j envelope l ∧ Begun registry type j envelope l)
      (fun l o _ ho => .away ho)
      (fun l o w did r w' hl ho _ => ⟨hl.1.cons ((silent_of_offQueue ho).counted), hl.2.cons⟩) ?_
      ⟨hw.cons rfl, .inl ⟨_, List.mem_cons_self, rfl⟩⟩))
    rintro outcome l ⟨hw, hbegun⟩
    refine wp_bind.mpr (step_wp (.processed hw) fun w₁ did₁ r₁ w₁' hans₁ => ?_)
    obtain ⟨u, rfl, rfl⟩ := answer_of_fault_none rfl hans₁
    refine wp_ofExcept_bind.mpr ⟨fun b hb => ?_, fun error herror => ?_⟩
    · refine removeSettled_wp
        (.bind (issues_remove .complete type j) fun _ => issues_increment _ _ _ _)
        (hw.cons rfl) hbegun.cons ⟨_, List.mem_cons_self, .inl ?_⟩ hdone
      refine ⟨_, _, rfl, ?_⟩
      rw [hb]
      trivial
    · rintro error' herror'
      obtain rfl := Except.error.inj herror'
      refine ⟨hw.cons rfl, hbegun.cons, .inr ⟨_, List.mem_cons_self, ?_⟩⟩
      rw [herror]

/-- After the last attempt every outcome is final. -/
theorem final_of_le {attempts : ℕ} (h : env.jobQueueMaxAttempts ≤ attempts + 1)
    (outcome : Except Err Unit) : Final env attempts outcome := by
  rcases outcome with e | u
  · cases e <;> trivial
  · trivial

/-- A worker gives a job up. -/
theorem giveUp_wp {error : Err} (hf : Failed env registry type j envelope error log)
    (hfinal : Final env envelope.attempts (.error error)) :
    wp ((machine lib).ownLog pid (QueueStep env registry pid)) (fun _ _ => True)
      (do
        JobQueue.discard type j
        increment (.backgroundJobsFailedTotal type)
        increment (.backgroundJobsDiscardedTotal type) : Act Unit) log := by
  have hs : Settled env registry type j log := by
    rcases hf.reason with hs | ⟨e, he, hop⟩
    · exact hs
    · exact ⟨e, he, .inl ⟨_, _, hop, hfinal⟩⟩
  exact removeSettled_wp (.bind (issues_remove .discard type j) fun _ =>
    .bind (issues_increment _ _ _ _) fun _ => issues_increment _ _ _ _)
    hf.working hf.begun hs fun _ _ _ _ _ => trivial

/-- A worker schedules another attempt. -/
theorem retryAfterFailure_wp {error : Err} {delayMs : ℕ}
    (hf : Failed env registry type j envelope error log)
    (hlt : envelope.attempts + 1 < env.jobQueueMaxAttempts) :
    wp ((machine lib).ownLog pid (QueueStep env registry pid)) (fun _ _ => True)
      (JobQueue.retryAfterFailure env type j (envelope.attempts + 1) delayMs) log := by
  -- What was due stays due in the log.
  have hdue : ∀ {l}, (∃ e ∈ l, dueJob? e = some (type, j)) → ∀ x,
      ∃ e ∈ x :: l, dueJob? e = some (type, j) :=
    fun ⟨e, he, h⟩ x => ⟨e, List.mem_cons_of_mem _ he, h⟩
  have hdue₀ := hf.working.due
  refine wp_bind.mpr (step_wp (.reread hdue₀) fun w did r w' hans => ?_)
  rcases r with e | raw
  · trivial
  -- The payload is unreadable by now and the job is dropped, or its next attempt is scheduled.
  show wp _ _ (match raw.bind (JobQueue.parseEnvelope · type j) with | none => _ | some _ => _) _
  cases hraw : raw.bind (JobQueue.parseEnvelope · type j) with
  | none =>
    refine wp_bind.mpr (step_wp (.unqueue (hdue hdue₀ _) ⟨_, List.mem_cons_self, .inl
      ⟨.retryAfterFailure, raw, rfl, hraw⟩⟩) fun w₁ did₁ r₁ w₁' hans₁ => ?_)
    rcases r₁ with e | n
    · trivial
    refine wp_bind.mpr (step_wp (.release (hdue (hdue hdue₀ _) _)) fun w₂ did₂ r₂ w₂' hans₂ => ?_)
    rcases r₂ with e | n
    · trivial
    · trivial
  | some stored =>
    obtain ⟨raw', rfl, hparse⟩ := Option.bind_eq_some_iff.mp hraw
    refine wp_bind.mpr (step_wp (.count (hf.working.cons rfl) hf.begun.cons
      ⟨_, List.mem_cons_self, rfl⟩ hparse (JobQueue.parseEnvelope_set hparse _) rfl rfl hlt)
      fun w₁ did₁ r₁ w₁' hans₁ => ?_)
    rcases r₁ with e | u
    · trivial
    refine wp_bind.mpr (step_wp (.away trivial) fun w₂ did₂ r₂ w₂' hans₂ => ?_)
    rcases r₂ with e | now
    · trivial
    refine wp_bind.mpr (step_wp (.reschedule (hdue (hdue (hdue hdue₀ _) _) _))
      fun w₃ did₃ r₃ w₃' hans₃ => ?_)
    rcases r₃ with e | n
    · trivial
    refine wp_bind.mpr (step_wp (.release (hdue (hdue (hdue (hdue hdue₀ _) _) _) _))
      fun w₄ did₄ r₄ w₄' hans₄ => ?_)
    rcases r₄ with e | n
    · trivial
    · trivial

/-- The metrics at the end of a poll. -/
theorem increments_wp (m m' : Metric) :
    wp ((machine lib).ownLog pid (QueueStep env registry pid)) (fun _ _ => True)
      (do
        increment m
        increment m' : Act Unit) log := by
  refine wp_bind.mpr (step_wp (.away trivial) fun w did r w' hans => ?_)
  rcases r with e | u
  · trivial
  · exact step_wp (.away trivial) fun _ _ _ _ _ => trivial

/-- A worker handles the error of its `try`. -/
theorem handleFailure_wp {error : Err} (hf : Failed env registry type j envelope error log) :
    wp ((machine lib).ownLog pid (QueueStep env registry pid)) (fun _ _ => True)
      (WorkerRunner.handleFailure env type j envelope error) log := by
  have hother : wp ((machine lib).ownLog pid (QueueStep env registry pid)) (fun _ _ => True)
      (if env.jobQueueMaxAttempts ≤ envelope.attempts + 1 then (do
          JobQueue.discard type j
          increment (.backgroundJobsFailedTotal type)
          increment (.backgroundJobsDiscardedTotal type) : Act Unit)
        else (do
          JobQueue.retryAfterFailure env type j (envelope.attempts + 1)
            (JobQueue.backoffFor env (envelope.attempts + 1) (Nat.succ_pos _))
          increment (.backgroundJobsFailedTotal type)
          increment (.backgroundJobsRetriedTotal type))) log := by
    split_ifs with hmax
    · exact giveUp_wp hf (final_of_le hmax _)
    · refine wp_bind.mpr (wp_mono ?_ (retryAfterFailure_wp hf (by omega)))
      rintro (e | u) l -
      · trivial
      · exact increments_wp _ _
  cases error with
  | permanentJobFailure m => exact giveUp_wp hf trivial
  | _ => exact hother

/-- A worker polls. -/
theorem processType_wp (registry : WorkerRegistry) :
    wp ((machine lib).ownLog pid (QueueStep env registry.registration pid)) (fun _ _ => True)
      (WorkerRunner.processType env registry.registration type) [] := by
  refine wp_bind.mpr (wp_mono ?_ claimNext_wp)
  rintro (e | _ | _ | i | ⟨i, envelope⟩) l hl
  · trivial
  · trivial
  · trivial
  · trivial
  · obtain ⟨hw, hidle⟩ := hl i envelope rfl
    refine wp_tryCatch.mpr (wp_mono ?_ (runJob_wp (registry.offQueue type) hw hidle))
    rintro (error | u) l' hl'
    · exact handleFailure_wp (hl' error rfl)
    · trivial

/-- A call of the queue performs no other operations, and `enqueue` has put its job into the queue
when it returns. -/
theorem queueCall_wp (registry : WorkerRegistry) (c : QueueCall) :
    wp ((machine lib).ownLog pid (QueueStep env registry.registration pid))
      (fun r l => ∀ j, r = .ok (some j) → ∃ type, ∃ e ∈ l, added? e = some (type, j))
      (c.body env registry) [] := by
  cases c with
  | enqueue type payload object requestId scheduledFor =>
    refine wp_bind.mpr (wp_mono ?_ (enqueue_wp object requestId scheduledFor))
    rintro (e | i) l hl
    · rintro j ⟨⟩
    · rintro j hj
      obtain rfl := Option.some.inj (Except.ok.inj hj)
      exact ⟨type, hl i rfl⟩
  | processType type =>
    refine wp_bind.mpr (wp_mono ?_ (processType_wp registry))
    rintro (e | u) l -
    · rintro j ⟨⟩
    · rintro j hj
      cases Except.ok.inj hj

end Programs

end Registry

/-! ## The code of the queue -/

/-- The operation neither looks for a due job nor marks the start or the end of a handler. -/
def Op.Bookkeeping : Op → Prop
  | .redis _ (.firstDue _ _) => False
  | .process _ _ => False
  | .processed _ _ _ _ => False
  | _ => True

section Bookkeeping

variable {env : Env} {type : JobType} {jobId : Id} {envelope : JobEnvelope}

/-- One operation of the bookkeeping. -/
theorem issues_bookkeeping {o : Op} (ho : o.Bookkeeping) : (Op.perform o).Issues Op.Bookkeeping :=
  (@Prog.issues_perform backend Err Op.Bookkeeping o).mpr ho

/-- A count belongs to the bookkeeping. -/
theorem increment_bookkeeping (m : Metric) : (increment m).Issues Op.Bookkeeping :=
  issues_bookkeeping trivial

/-- A removal belongs to the bookkeeping. -/
theorem remove_bookkeeping (caller : Caller) :
    (JobQueue.remove caller type jobId).Issues Op.Bookkeeping :=
  .bind (issues_bookkeeping trivial) fun _ => .bind (issues_bookkeeping trivial) fun _ => trivial

/-- A retry belongs to the bookkeeping. -/
theorem retryAfterFailure_bookkeeping (attempts delayMs : ℕ) :
    (JobQueue.retryAfterFailure env type jobId attempts delayMs).Issues Op.Bookkeeping := by
  refine .bind (issues_bookkeeping trivial) fun raw => ?_
  split
  · refine .bind (issues_bookkeeping trivial) fun _ => ?_
    exact .bind (issues_bookkeeping trivial) fun _ => trivial
  · refine .bind (issues_bookkeeping trivial) fun _ =>
      .bind (issues_bookkeeping trivial) fun _ => ?_
    refine .bind (issues_bookkeeping trivial) fun _ => ?_
    exact .bind (issues_bookkeeping trivial) fun _ => trivial

/-- What `claimNext` does with what it found due. -/
theorem claimDue_bookkeeping (due : Option Id) :
    (match due with
      | none => return .empty
      | some jobId => do
        let leaseToken ← randomId
        let lease : Bool ← JobQueue.command .claimNext
          (.setNx (.jobInflight jobId) (.token leaseToken) env.jobQueueLeaseMs)
        if lease then
          let raw : Option Stored ← JobQueue.command .claimNext (.get (.jobData jobId))
          match raw.bind (JobQueue.parseEnvelope · type jobId) with
          | none =>
            JobQueue.discard type jobId
            return .malformed jobId
          | some envelope => return .claimed jobId envelope
        else return .busy : Act ClaimResult).Issues Op.Bookkeeping := by
  cases due with
  | none => trivial
  | some jobId =>
    refine .bind (issues_bookkeeping trivial) fun _ => ?_
    refine .bind (issues_bookkeeping trivial) fun lease => ?_
    cases lease with
    | false => trivial
    | true =>
      refine .bind (issues_bookkeeping trivial) fun raw => ?_
      split
      · exact .bind (remove_bookkeeping .discard) fun _ => trivial
      · trivial

/-- What the worker does with a failure belongs to the bookkeeping. -/
theorem handleFailure_bookkeeping (error : Err) :
    (WorkerRunner.handleFailure env type jobId envelope error).Issues Op.Bookkeeping := by
  have hgiveUp : (do
      JobQueue.discard type jobId
      increment (.backgroundJobsFailedTotal type)
      increment (.backgroundJobsDiscardedTotal type) : Act Unit).Issues Op.Bookkeeping := by
    refine .bind (remove_bookkeeping .discard) fun _ => ?_
    exact .bind (increment_bookkeeping _) fun _ => increment_bookkeeping _
  unfold WorkerRunner.handleFailure
  dsimp only
  split
  · exact hgiveUp
  · split
    · exact hgiveUp
    · refine .bind (retryAfterFailure_bookkeeping _ _) fun _ => ?_
      exact .bind (increment_bookkeeping _) fun _ => increment_bookkeeping _

end Bookkeeping

end SplitBill
