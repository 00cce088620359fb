import SplitBill.Queues.Delivery

/-!
# Whose lease it is

A worker leases a job under a random token, but `complete`, `discard` and `retryAfterFailure` delete
the lease without a look at the token, and `claimNext` reads the payload without a look at the
lease. A worker that outlived its lease can therefore end the lease of its successor, or claim a job
that its successor holds. In runs in which no worker does either, a lease is exclusive as long as it
is not over.
-/

namespace SplitBill

open Interleave

variable {lib : Lib}

/-- An entry deleted the key. -/
def erased (key : Key) : BackendEntry → Bool
  | ⟨_, .redis _ (.del ks), _, .ok _, _, _⟩ => key ∈ ks
  | _ => false

/-- The leases of the key whose holders have not deleted it since, latest first. -/
def tenants (key : Key) : List BackendEntry → List Grant
  | [] => []
  | e :: log =>
    match grant? key e with
    | some g => g :: tenants key log
    | none => if erased key e then (tenants key log).filter (·.pid ≠ e.pid) else tenants key log

/-- An operation that does not write the key does not delete it. -/
theorem erased_of_leavesKey {key : Key} {o : Op} (ho : o.LeavesKey key) {pid : ℕ} {w w' : World}
    {did seen : Except Err o.Res} : erased key ⟨pid, o, w, did, seen, w'⟩ = false := by
  cases o with
  | redis caller c =>
    cases c with
    | del ks =>
      cases did with
      | error e => rfl
      | ok n => exact decide_eq_false ho
    | _ => rfl
  | _ => rfl

/-- The lease of the job, if there is one, is of the call `pid`. -/
def NotAnothers (pid : ℕ) (j : Id) (h : Hist backend Err World) : Prop :=
  match h.world.redis.lookup h.world.now (.jobInflight j) with
  | some (.token t) => (pid, t) ∈ draws h.log
  | _ => True

instance (pid : ℕ) (j : Id) (h : Hist backend Err World) : Decidable (NotAnothers pid j h) := by
  unfold NotAnothers
  split
  · exact inferInstance
  · exact isTrue trivial

/-- The key, if it is a lease, is not another call's. -/
def NotAnothersKey (pid : ℕ) (h : Hist backend Err World) : Key → Prop
  | .jobInflight j => NotAnothers pid j h
  | _ => True

instance (pid : ℕ) (h : Hist backend Err World) : DecidablePred (NotAnothersKey pid h)
  | .jobInflight j => inferInstanceAs (Decidable (NotAnothers pid j h))
  | .jobQueue _ => isTrue trivial
  | .jobData _ => isTrue trivial
  | .cacheGroup _ => isTrue trivial
  | .lockSettlementGroup _ => isTrue trivial

/-- No worker claims a job, or deletes a lease, while another worker holds the lease. -/
def Respectful (pid : ℕ) (o : Op) (h : Hist backend Err World) : Prop :=
  match o with
  | .redis caller (.get (.jobData j)) => caller = .claimNext → NotAnothers pid j h
  | .redis _ (.del ks) => ∀ k ∈ ks, NotAnothersKey pid h k
  | _ => True

instance (pid : ℕ) (o : Op) (h : Hist backend Err World) : Decidable (Respectful pid o h) := by
  unfold Respectful
  split <;> infer_instance

/-- Producers and workers, in runs in which no worker disregards the lease of another. -/
abbrev respectfulSystem (lib : Lib) (env : Env) (registry : WorkerRegistry) :
    System backend Err (Option Id) World :=
  { queueSystem lib env registry with allow := Respectful }

/-- How the lease of a job goes with the log. -/
structure LeaseInv (j : Id) (h : Hist backend Err World) : Prop where
  fresh : Draws h
  owner : ∀ g ∈ tenants (.jobInflight j) h.log, (g.pid, g.token) ∈ draws h.log
  stored : ∀ g ∈ tenants (.jobInflight j) h.log, h.world.now < g.expiresAt →
    h.world.redis.strings (.jobInflight j) = some ⟨.token g.token, some g.expiresAt⟩
  claims : ∀ e log, e :: log <:+ h.log → ∀ raw, payloadRead? .claimNext e = some (j, raw) →
    ∀ g ∈ tenants (.jobInflight j) log, e.pre.now < g.expiresAt → g.pid = e.pid

namespace LeaseInv

variable {j : Id} {h : Hist backend Err World} {pid : ℕ} {o : Op} {did seen : Except Err o.Res}
  {w : World}

/-- Time may pass. -/
theorem later (hi : LeaseInv j h) (hw : h.world.Later w) : LeaseInv j (h.withWorld w) := by
  obtain ⟨t, ht, rfl⟩ := hw
  exact ⟨⟨hi.fresh.bound, hi.fresh.distinct⟩, hi.owner,
    fun g hg hlt => hi.stored g hg (lt_of_le_of_lt ht hlt), hi.claims⟩

/-- A worker that meets no lease of another meets no lease but its own. -/
theorem pid_eq (hi : LeaseInv j h) (hown : NotAnothers pid j h) {g : Grant}
    (hg : g ∈ tenants (.jobInflight j) h.log) (hlt : h.world.now < g.expiresAt) : g.pid = pid := by
  unfold NotAnothers at hown
  rw [lookup_of_lease (hi.stored g hg hlt) hlt] at hown
  exact hi.fresh.pid_eq (hi.owner g hg) hown

/-- What a step has to keep. -/
theorem record (hi : LeaseInv j h) (hans : (machine lib).Answer o h.world did seen w)
    (howner : ∀ g ∈ tenants (.jobInflight j) (h.record pid o did seen w).log,
      (g.pid, g.token) ∈ draws h.log)
    (hstored : ∀ g ∈ tenants (.jobInflight j) (h.record pid o did seen w).log,
      h.world.now < g.expiresAt →
        w.redis.strings (.jobInflight j) = some ⟨.token g.token, some g.expiresAt⟩)
    (hclaim : ∀ raw, payloadRead? .claimNext ⟨pid, o, h.world, did, seen, w⟩ = some (j, raw) →
      NotAnothers pid j h) : LeaseInv j (h.record pid o did seen w) := by
  have hnow : w.now = h.world.now := answer_now hans
  constructor
  case fresh => exact hi.fresh.record pid hans
  case owner => exact fun g hg => mem_draws_cons _ (howner g hg)
  case stored =>
    intro g hg hlt
    rw [Hist.record_world, hnow] at hlt
    exact hstored g hg hlt
  case claims =>
    refine forall_suffix_cons.mpr ⟨fun raw hread g hg hlt => ?_, hi.claims⟩
    exact hi.pid_eq (hclaim raw hread) hg hlt

/-- A step that leaves the lease alone. -/
theorem leaves (hi : LeaseInv j h) (ho : o.LeavesKey (.jobInflight j))
    (hans : (machine lib).Answer o h.world did seen w)
    (hclaim : ∀ raw, payloadRead? .claimNext ⟨pid, o, h.world, did, seen, w⟩ = some (j, raw) →
      NotAnothers pid j h) : LeaseInv j (h.record pid o did seen w) := by
  have hgrant : grant? (.jobInflight j) ⟨pid, o, h.world, did, seen, w⟩ = none := by
    obtain ⟨hstep, hacquire, -⟩ := keyStep_of_leavesKey ho [] pid hans
    cases hstep with
    | grant g hg hpid ht => cases ht
    | release t ht => cases ht
    | keep hg => exact hg
  have htenants : tenants (.jobInflight j) (h.record pid o did seen w).log =
      tenants (.jobInflight j) h.log := by
    rw [Hist.record_log]
    simp only [tenants, hgrant, erased_of_leavesKey ho]
    rfl
  refine hi.record hans ?_ ?_ hclaim <;> rw [htenants]
  · exact hi.owner
  · rw [answer_leavesKey ho hans]
    exact hi.stored

/-- A worker takes the lease. -/
theorem lease (hi : LeaseInv j h) {i t : Id} {ttlMs : ℕ} (ht : (pid, t) ∈ draws (h.own pid))
    {did seen : Except Err Bool} (hans : (machine lib).Answer
      (.redis .claimNext (.setNx (.jobInflight i) (.token t) ttlMs)) h.world did seen w) :
    LeaseInv j (h.record pid
      (.redis .claimNext (.setNx (.jobInflight i) (.token t) ttlMs)) did seen w) := by
  by_cases hij : i = j
  · subst hij
    obtain ⟨hstep, -⟩ := keyStep_setNx (List.mem_singleton.mpr rfl) pid hans
    cases hstep with
    | grant g hg hpid htoken hpre hpost =>
      have htenants : tenants (.jobInflight i) (h.record pid (.redis .claimNext
          (.setNx (.jobInflight i) (.token t) ttlMs)) did seen w).log =
            g :: tenants (.jobInflight i) h.log := by
        rw [Hist.record_log]
        simp only [tenants, hg]
      refine hi.record hans ?_ ?_ (by rintro raw ⟨⟩) <;> rw [htenants]
      · refine List.forall_mem_cons.mpr ⟨?_, hi.owner⟩
        rw [hpid, List.mem_singleton.mp htoken]
        exact draws_own ht
      · refine List.forall_mem_cons.mpr ⟨fun _ => hpost, fun g' hg' hlt => ?_⟩
        -- The key did not exist, so every earlier lease is over.
        have hsome := lookup_of_lease (hi.stored g' hg' hlt) hlt
        have hnone : h.world.redis.lookup h.world.now (.jobInflight i) = none := hpre
        rw [hnone] at hsome
        cases hsome
    | release u hu hg hr => cases hr
    | keep hg hr hpost =>
      have htenants : tenants (.jobInflight i) (h.record pid (.redis .claimNext
          (.setNx (.jobInflight i) (.token t) ttlMs)) did seen w).log =
            tenants (.jobInflight i) h.log := by
        rw [Hist.record_log]
        simp only [tenants, hg, erased]
        rfl
      refine hi.record hans ?_ ?_ (by rintro raw ⟨⟩) <;> rw [htenants]
      · exact hi.owner
      · have hpost' : w.redis.strings (.jobInflight i) = h.world.redis.strings (.jobInflight i) :=
          hpost
        rw [hpost']
        exact hi.stored
  · have hleaves : Op.LeavesKey (.jobInflight j) (.redis .claimNext
        (.setNx (.jobInflight i) (.token t) ttlMs)) := fun heq => hij (Key.jobInflight.inj heq)
    exact hi.leaves hleaves hans (by rintro raw ⟨⟩)

/-- A worker deletes keys. -/
theorem erase (hi : LeaseInv j h) {caller : Caller} {ks : List Key}
    (hown : .jobInflight j ∈ ks → NotAnothers pid j h) {did seen : Except Err ℕ}
    (hans : (machine lib).Answer (.redis caller (.del ks)) h.world did seen w) :
    LeaseInv j (h.record pid (.redis caller (.del ks)) did seen w) := by
  -- A deletion that names the key ends the tenancy of the caller, any other none.
  by_cases hj : .jobInflight j ∈ ks
  · rcases answer_redis hans with ⟨rfl, rfl, -⟩ | ⟨rfl, e, rfl, -⟩
    · have htenants : ∀ g ∈ tenants (.jobInflight j) (h.record pid (.redis caller (.del ks))
          (.ok (h.world.redis.exec h.world.now (.del ks)).1) seen
          { h.world with redis := (h.world.redis.exec h.world.now (.del ks)).2 }).log,
          g ∈ tenants (.jobInflight j) h.log ∧ g.pid ≠ pid := by
        intro g hg
        rw [Hist.record_log] at hg
        simp only [tenants, grant?, erased, hj, decide_true, if_true] at hg
        exact ⟨List.mem_of_mem_filter hg, of_decide_eq_true (List.mem_filter.mp hg).2⟩
      refine hi.record hans (fun g hg => hi.owner g (htenants g hg).1) (fun g hg hlt => ?_)
        (by rintro raw ⟨⟩)
      obtain ⟨hmem, hne⟩ := htenants g hg
      exact absurd (hi.pid_eq (hown hj) hmem hlt) hne
    · have htenants : tenants (.jobInflight j) (h.record pid (.redis caller (.del ks)) (.error e)
          seen h.world).log = tenants (.jobInflight j) h.log := by
        rw [Hist.record_log]
        simp only [tenants, grant?, erased]
        rfl
      refine hi.record hans ?_ ?_ (by rintro raw ⟨⟩) <;> rw [htenants]
      · exact hi.owner
      · exact hi.stored
  · have hleaves : Op.LeavesKey (.jobInflight j) (.redis caller (.del ks)) := hj
    exact hi.leaves hleaves hans (by rintro raw ⟨⟩)

/-- Every step of a call of the queue that respects the leases of others keeps the invariant. -/
theorem step {env : Env} {registry : JobType → JobRegistration} (hi : LeaseInv j h)
    (ho : QueueStep env registry pid (h.own pid) o) (hrespect : Respectful pid o h)
    (hans : (machine lib).Answer o h.world did seen w) :
    LeaseInv j (h.record pid o did seen w) := by
  cases ho with
  | away ho =>
    -- The two steps that the condition is about are the read of a claim and the end of a lease.
    have hsilent : Silent ⟨pid, o, h.world, did, seen, w⟩ := silent_of_offQueue ho
    have hoff : ¬Key.OffQueue (.jobInflight j) := id
    refine hi.leaves (ho.leavesKey hoff) hans ?_
    intro raw hread
    rw [hsilent.read] at hread
    cases hread
  | create hj hv hattempts hnew => exact hi.leaves (by rintro ⟨⟩) hans (by rintro raw ⟨⟩)
  | add hj hc hnew => exact hi.leaves trivial hans (by rintro raw ⟨⟩)
  | due => exact hi.leaves trivial hans (by rintro raw ⟨⟩)
  | lease hdue ht => exact hi.lease ht hans
  | claim hdue hlease hnew =>
    refine hi.leaves trivial hans fun raw hread => ?_
    obtain ⟨-, rfl, -⟩ := payloadRead?_get hread
    exact hrespect rfl
  | process hw hschema hnew => exact hi.leaves trivial hans (by rintro raw ⟨⟩)
  | processed hw => exact hi.leaves trivial hans (by rintro raw ⟨⟩)
  | unqueue hdue hmay => exact hi.leaves trivial hans (by rintro raw ⟨⟩)
  | erase hdue hmay => exact hi.erase (fun hmem => hrespect _ hmem) hans
  | reread hdue =>
    refine hi.leaves trivial hans fun raw hread => ?_
    cases (payloadRead?_get hread).1
  | count hw hbegun hread hraw hv hpayload hattempts hlt =>
    exact hi.leaves (by rintro ⟨⟩) hans (by rintro raw ⟨⟩)
  | reschedule hdue => exact hi.leaves trivial hans (by rintro raw ⟨⟩)
  | release hdue => exact hi.erase (fun hmem => hrespect _ hmem) hans

/-- The invariant holds of an empty queue. -/
theorem start (w : World) : LeaseInv j ⟨w, []⟩ := by
  refine ⟨⟨by simp [draws], by simp [draws]⟩, by simp [tenants], by simp [tenants], ?_⟩
  intro e log hsuffix
  cases List.suffix_nil.mp hsuffix

end LeaseInv

/-! ## Runs -/

/-- As long as no worker claims a job, or deletes its lease, while another worker holds the lease, a
lease is exclusive until it is over or its holder has finished the job: the key is the holder's, and
no other call of `claimNext` so much as reads the payload. -/
theorem lease_exclusive {lib : Lib} {env : Env} {registry : WorkerRegistry}
    {cfg : (respectfulSystem lib env registry).Config}
    (h : (respectfulSystem lib env registry).Reachable NoJobs cfg) (j : Id) :
    (∀ g ∈ tenants (.jobInflight j) cfg.hist.log, cfg.hist.world.now < g.expiresAt →
      cfg.hist.world.redis.strings (.jobInflight j) =
        some ⟨.token g.token, some g.expiresAt⟩) ∧
    ∀ e log, e :: log <:+ cfg.hist.log → ∀ raw, payloadRead? .claimNext e = some (j, raw) →
      ∀ g ∈ tenants (.jobInflight j) log, e.pre.now < g.expiresAt → g.pid = e.pid := by
  obtain ⟨hi, -⟩ := System.keeps_of_ownLog
    (fun pid _ => QueueStep env registry.registration pid)
    (fun _ _ r l => ∀ j, r = .ok (some j) → ∃ type, ∃ e ∈ l, added? e = some (type, j))
    (LeaseInv j) (fun pid c _ => queueCall_wp registry c) (fun w _ => .start w)
    (fun h w hi (hw : h.world.Later w) => hi.later hw)
    (fun pid c o h did seen w ho hi hrespect hans => hi.step ho hrespect hans) h
  exact ⟨hi.stored, hi.claims⟩

instance (lib : Lib) (env : Env) (registry : WorkerRegistry) :
    DecidablePred (respectfulSystem lib env registry).valid :=
  fun _ => isTrue trivial

instance (lib : Lib) (env : Env) (registry : WorkerRegistry) (pid : ℕ) (o : Op)
    (h : Hist backend Err World) :
    Decidable ((respectfulSystem lib env registry).allow pid o h) :=
  inferInstanceAs (Decidable (Respectful pid o h))

/-- Two workers compete for one job: the first one has claimed it when the second one asks for the
lease. -/
def competingWorkers : List (System.Action (respectfulSystem .plain {} plainRegistry)) :=
  [.spawn recomputeJob, .op 0 {}, .op 0 {}, .op 0 {}, .op 0 {}, .op 0 {},
    .spawn (.processType .groupSummaryRecompute), .op 1 {}, .op 1 {}, .op 1 {}, .op 1 {}, .op 1 {},
    .spawn (.processType .groupSummaryRecompute), .op 2 {}, .op 2 {}, .op 2 {}, .op 2 {}]

/-- The last entry is the refusal of the second worker, while the lease of the first one is not
over. The key is the first worker's, and whoever read the payload under its lease is that worker. -/
theorem lease_exclusive_competing : ∃ cfg,
    (respectfulSystem .plain {} plainRegistry).play competingWorkers
      ((respectfulSystem .plain {} plainRegistry).start {}) = some cfg ∧
    cfg.hist.log.head?.map (fun e => (e.pid, acquire? (.jobInflight 0) e)) =
      some (2, some (.ok false)) ∧
    tenants (.jobInflight 0) cfg.hist.log = [⟨1, 1, 30000⟩] ∧ cfg.hist.world.now < 30000 ∧
    cfg.hist.world.redis.strings (.jobInflight 0) = some ⟨.token 1, some 30000⟩ ∧
    ∀ e log, e :: log <:+ cfg.hist.log → ∀ raw, payloadRead? .claimNext e = some (0, raw) →
      ∀ g ∈ tenants (.jobInflight 0) log, e.pre.now < g.expiresAt → g.pid = e.pid := by
  obtain ⟨cfg, hplay, hrefused, htenants, hnow, hall⟩ : ∃ cfg,
      (respectfulSystem .plain {} plainRegistry).play competingWorkers
        ((respectfulSystem .plain {} plainRegistry).start {}) = some cfg ∧
      cfg.hist.log.head?.map (fun e => (e.pid, acquire? (.jobInflight 0) e)) =
        some (2, some (.ok false)) ∧
      tenants (.jobInflight 0) cfg.hist.log = [⟨1, 1, 30000⟩] ∧ cfg.hist.world.now < 30000 ∧
      (respectfulSystem .plain {} plainRegistry).Allowed cfg.hist.log :=
    ⟨_, rfl, rfl, rfl, by decide +kernel, by decide +kernel⟩
  have hreach : (respectfulSystem .plain {} plainRegistry).Reachable NoJobs cfg :=
    System.reachable_of_allowed (.start ⟨fun _ => rfl, fun _ => rfl, fun _ => rfl⟩) hplay hall
  obtain ⟨hstored, hclaims⟩ := lease_exclusive hreach 0
  have hmem : (⟨1, 1, 30000⟩ : Grant) ∈ tenants (.jobInflight 0) cfg.hist.log := by
    rw [htenants]
    exact List.mem_cons_self
  exact ⟨cfg, hplay, hrefused, htenants, hnow, hstored _ hmem hnow, hclaims⟩

/-- A worker that outlives its lease and finishes the job while its successor holds the lease. -/
def outlivedWorker : List (System.Action (queueSystem .plain {} plainRegistry)) :=
  [.spawn recomputeJob, .op 0 {}, .op 0 {}, .op 0 {}, .op 0 {}, .op 0 {},
    .spawn (.processType .groupSummaryRecompute), .op 1 {}, .op 1 {}, .op 1 {}, .op 1 {}, .op 1 {},
    .op 1 {}, waits 30000,
    .spawn (.processType .groupSummaryRecompute), .op 2 {}, .op 2 {}, .op 2 {}, .op 2 {}, .op 2 {},
    .op 1 {}, .op 1 {}, .op 1 {}, .op 1 {}]

/-- The successor's lease is gone although it is not over. -/
theorem lease_exclusive_outlived : ∃ cfg,
    (queueSystem .plain {} plainRegistry).Reachable NoJobs cfg ∧
    ∃ g ∈ tenants (.jobInflight 0) cfg.hist.log, cfg.hist.world.now < g.expiresAt ∧
      cfg.hist.world.redis.strings (.jobInflight 0) = none := by
  obtain ⟨cfg, hplay, htenants, hnow, hgone⟩ : ∃ cfg,
      (queueSystem .plain {} plainRegistry).play outlivedWorker
        ((queueSystem .plain {} plainRegistry).start {}) = some cfg ∧
      tenants (.jobInflight 0) cfg.hist.log = [⟨2, 2, 60000⟩] ∧
      cfg.hist.world.now = 30000 ∧
      cfg.hist.world.redis.strings (.jobInflight 0) = none := ⟨_, rfl, rfl, rfl, rfl⟩
  refine ⟨cfg, System.reachable_of_play (fun _ _ _ => trivial)
    (.start ⟨fun _ => rfl, fun _ => rfl, fun _ => rfl⟩) hplay, ⟨2, 2, 60000⟩, ?_, ?_, hgone⟩
  · rw [htenants]
    exact List.mem_cons_self
  · rw [hnow]
    decide

end SplitBill
