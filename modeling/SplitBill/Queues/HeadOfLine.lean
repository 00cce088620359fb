import SplitBill.Queues.JobQueue

/-!
# Which job is claimed

`claimNext` of `src/queues/jobQueue.ts`, called by one worker while nobody else acts and Redis
answers. Its script returns the earliest due job, and no other job is looked at in the same call.
So a leased job at the head of the line makes the queue busy, and an unreadable one is discarded
first, whatever stands behind it.

Time passes between the commands of a call. The clock is read at `t₁`, the lease is asked for at
`t₂`, and the payload is read at `t₃`.
-/

namespace SplitBill.JobQueue

open Interleave

/-- The earliest job that is due: the first one in the order of the set. -/
def earliest (w : World) (type : JobType) (now : Time) : Option Id :=
  ((w.redis.zsets (.jobQueue type)).find? (·.score ≤ now)).map (·.id)

/-- A worker holds the lease of a job. -/
def Leased (w : World) (now : Time) (jobId : Id) : Prop :=
  (w.redis.lookup now (.jobInflight jobId)).isSome = true

instance (w : World) (now : Time) (jobId : Id) : Decidable (Leased w now jobId) :=
  inferInstanceAs (Decidable (_ = true))

/-- The envelope of a job whose payload is readable. -/
def readable? (w : World) (now : Time) (type : JobType) (jobId : Id) : Option JobEnvelope :=
  (w.redis.lookup now (.jobData jobId)).bind (parseEnvelope · type jobId)

/-- No job is the earliest one only if none is due. -/
theorem earliest_eq_none {w : World} {type : JobType} {now : Time} :
    earliest w type now = none ↔ ∀ m ∈ w.redis.zsets (.jobQueue type), now < m.score := by
  unfold earliest
  rw [Option.map_eq_none_iff, List.find?_eq_none]
  simp

/-! ## The steps of an answered call -/

section

variable {lib : Lib} {α : Type} {w w' : World} {r : Except Err α}

/-- The first operation of a program alone: time passes before it, and the program goes on with what
it answers. -/
theorem exec_call {o : Op} {k : Except Err o.Res → Act α}
    (h : Exec (machine lib).answered World.Later (.call o k) w r w') :
    ∃ t c, w.now ≤ t ∧ Exec (machine lib).answered World.Later
      (k (o.exec lib c { w with now := t }).1) (o.exec lib c { w with now := t }).2 r w' := by
  cases h with
  | call henv hans hk =>
    obtain ⟨t, ht, rfl⟩ := henv
    obtain ⟨-, c, rfl, rfl⟩ := hans.of_answered
    exact ⟨t, c, ht, hk⟩

/-- A Redis command. -/
theorem exec_command {caller : Caller} {c : Command Key Stored} {g : c.Res → Act α}
    (h : Exec (machine lib).answered World.Later ((command caller c).bind g) w r w') :
    ∃ t, w.now ≤ t ∧ Exec (machine lib).answered World.Later (g (w.redis.exec t c).1)
      { w with now := t, redis := (w.redis.exec t c).2 } r w' := by
  obtain ⟨t, _, ht, hk⟩ := exec_call h
  exact ⟨t, ht, hk⟩

/-- A look at the clock. -/
theorem exec_newDate {g : Time → Act α}
    (h : Exec (machine lib).answered World.Later (newDate.bind g) w r w') :
    ∃ t, w.now ≤ t ∧ Exec (machine lib).answered World.Later (g t) { w with now := t } r w' := by
  obtain ⟨t, _, ht, hk⟩ := exec_call h
  exact ⟨t, ht, hk⟩

/-- A random value. -/
theorem exec_randomId {g : Id → Act α}
    (h : Exec (machine lib).answered World.Later (randomId.bind g) w r w') :
    ∃ t, w.now ≤ t ∧ Exec (machine lib).answered World.Later (g w.random)
      { w with now := t, random := w.random + 1 } r w' := by
  obtain ⟨t, _, ht, hk⟩ := exec_call h
  exact ⟨t, ht, hk⟩

end

/-! ## The whole call -/

/-- The store after `discard`. -/
def discarded (redis : Redis Key Stored) (type : JobType) (jobId : Id) : Redis Key Stored :=
  (redis.writeSet (.jobQueue type) (Redis.without (redis.zsets (.jobQueue type)) jobId)).remove
    [.jobData jobId, .jobInflight jobId]

/-- The store after a job has been leased. -/
def leased (redis : Redis Key Stored) (jobId token : Id) (expiry : Time) : Redis Key Stored :=
  redis.write (.jobInflight jobId) (some ⟨.token token, some expiry⟩)

/-- A call looks at the earliest due job, and at no other one. The clock was read at `t₁`, the lease
was asked for at `t₂`, and the payload was read at `t₃`. -/
structure LooksAtEarliest (env : Env) (type : JobType) (w : World) (t₁ t₂ t₃ : Time)
    (result : ClaimResult) (redis : Redis Key Stored) : Prop where
  /-- The queue is empty exactly if no job is due. -/
  empty : result = .empty ↔ ∀ m ∈ w.redis.zsets (.jobQueue type), t₁ < m.score
  /-- The queue is busy exactly if the earliest due job is leased. -/
  busy : result = .busy ↔ ∃ jobId ∈ earliest w type t₁, Leased w t₂ jobId
  /-- A job is called malformed exactly if it is the earliest due one, unleased and unreadable. -/
  malformed : ∀ jobId, result = .malformed jobId ↔
    jobId ∈ earliest w type t₁ ∧ ¬Leased w t₂ jobId ∧ readable? w t₃ type jobId = none
  /-- A job is claimed exactly if it is the earliest due one, unleased and readable. -/
  claimed : ∀ jobId envelope, result = .claimed jobId envelope ↔
    jobId ∈ earliest w type t₁ ∧ ¬Leased w t₂ jobId ∧ readable? w t₃ type jobId = some envelope
  /-- A job that is claimed has been leased. -/
  leases : ∀ jobId envelope, result = .claimed jobId envelope →
    redis = leased w.redis jobId w.random (t₂ + env.jobQueueLeaseMs)
  /-- A malformed job leaves the queue, with its payload and its lease. -/
  discards : ∀ jobId, result = .malformed jobId → redis =
    discarded (leased w.redis jobId w.random (t₂ + env.jobQueueLeaseMs)) type jobId
  /-- Otherwise nothing changes. -/
  leaves : result = .empty ∨ result = .busy → redis = w.redis

/-- The payload of a job does not depend on its lease. -/
theorem lookup_leased (redis : Redis Key Stored) (now : Time) (jobId token : Id) (expiry : Time) :
    (leased redis jobId token expiry).lookup now (.jobData jobId) =
      redis.lookup now (.jobData jobId) := by
  unfold Redis.lookup leased
  rw [Redis.write_strings, Function.update_of_ne (by simp)]

section

variable {env : Env} {type : JobType} {w : World} {t₁ t₂ t₃ : Time} {jobId : Id}

/-- A call that finds no job due. -/
theorem looksAtEarliest_empty (h : earliest w type t₁ = none) :
    LooksAtEarliest env type w t₁ t₁ t₁ .empty w.redis where
  empty := by simpa using earliest_eq_none.mp h
  busy := by simp [h]
  malformed := by simp [h]
  claimed := by simp [h]
  leases := by simp
  discards := by simp
  leaves := fun _ => rfl

/-- A job that is due. -/
theorem not_empty_of_earliest (h : earliest w type t₁ = some jobId) :
    ¬∀ m ∈ w.redis.zsets (.jobQueue type), t₁ < m.score := by
  intro hnone
  rw [earliest_eq_none.mpr hnone] at h
  cases h

/-- Only the earliest due job can be taken. -/
theorem eq_of_earliest {j : Id} {P : Prop} (h : earliest w type t₁ = some jobId)
    (hj : j ∈ earliest w type t₁ ∧ P) : j = jobId ∧ P := by
  obtain ⟨hmem, hP⟩ := hj
  rw [h, Option.mem_some_iff] at hmem
  exact ⟨hmem.symm, hP⟩

/-- A leased job is not taken. -/
theorem not_taken_of_leased {j : Id} {P : Prop} (h : earliest w type t₁ = some jobId)
    (hlease : Leased w t₂ jobId) : ¬(j ∈ earliest w type t₁ ∧ ¬Leased w t₂ j ∧ P) := by
  intro hj
  obtain ⟨rfl, hfree, -⟩ := eq_of_earliest h hj
  exact hfree hlease

/-- A job is taken for what its payload reads as. -/
theorem read_of_taken {j : Id} {x y : Option JobEnvelope} (h : earliest w type t₁ = some jobId)
    (hread : readable? w t₃ type jobId = x)
    (hj : j ∈ earliest w type t₁ ∧ ¬Leased w t₂ j ∧ readable? w t₃ type j = y) :
    j = jobId ∧ x = y := by
  obtain ⟨rfl, -, hy⟩ := eq_of_earliest h hj
  exact ⟨rfl, hread.symm.trans hy⟩

/-- A call that finds the earliest due job leased. -/
theorem looksAtEarliest_busy (h : earliest w type t₁ = some jobId) (hlease : Leased w t₂ jobId) :
    LooksAtEarliest env type w t₁ t₂ t₂ .busy w.redis where
  empty := by simpa using not_empty_of_earliest h
  busy := by simp [h, hlease]
  malformed := fun _ => iff_of_false nofun (not_taken_of_leased h hlease)
  claimed := fun _ _ => iff_of_false nofun (not_taken_of_leased h hlease)
  leases := by simp
  discards := by simp
  leaves := fun _ => rfl

/-- A call that discards the earliest due job. -/
theorem looksAtEarliest_malformed (h : earliest w type t₁ = some jobId)
    (hlease : ¬Leased w t₂ jobId) (hread : readable? w t₃ type jobId = none) :
    LooksAtEarliest env type w t₁ t₂ t₃ (.malformed jobId)
      (discarded (leased w.redis jobId w.random (t₂ + env.jobQueueLeaseMs)) type jobId) where
  empty := by simpa using not_empty_of_earliest h
  busy := by simp [h, hlease]
  malformed := by
    intro j
    rw [ClaimResult.malformed.injEq]
    constructor
    · rintro rfl
      exact ⟨h, hlease, hread⟩
    · intro hj
      obtain ⟨rfl, -⟩ := read_of_taken h hread hj
      rfl
  claimed := by
    refine fun j envelope => iff_of_false nofun fun hj => ?_
    obtain ⟨-, hnone⟩ := read_of_taken h hread hj
    cases hnone
  leases := by simp
  discards := by
    rintro _ ⟨⟩
    rfl
  leaves := by simp

/-- A call that claims the earliest due job. -/
theorem looksAtEarliest_claimed {envelope : JobEnvelope} (h : earliest w type t₁ = some jobId)
    (hlease : ¬Leased w t₂ jobId) (hread : readable? w t₃ type jobId = some envelope) :
    LooksAtEarliest env type w t₁ t₂ t₃ (.claimed jobId envelope)
      (leased w.redis jobId w.random (t₂ + env.jobQueueLeaseMs)) where
  empty := by simpa using not_empty_of_earliest h
  busy := by simp [h, hlease]
  malformed := by
    refine fun j => iff_of_false nofun fun hj => ?_
    obtain ⟨-, hsome⟩ := read_of_taken h hread hj
    cases hsome
  claimed := by
    intro j envelope'
    rw [ClaimResult.claimed.injEq]
    constructor
    · rintro ⟨rfl, rfl⟩
      exact ⟨h, hlease, hread⟩
    · intro hj
      obtain ⟨rfl, hsome⟩ := read_of_taken h hread hj
      exact ⟨rfl, Option.some.inj hsome⟩
  leases := by
    rintro _ _ ⟨⟩
    rfl
  discards := by simp
  leaves := by simp

end

/-- A call of `claimNext` alone ends, and looks at the earliest due job only. -/
theorem claimNext_looks_at_earliest (lib : Lib) (env : Env) (type : JobType) (w : World) :
    (∃ r w', Exec (machine lib).answered World.Later (claimNext env type) w r w') ∧
      ∀ r w', Exec (machine lib).answered World.Later (claimNext env type) w r w' →
        ∃ t₁ t₂ t₃ result, w.now ≤ t₁ ∧ t₁ ≤ t₂ ∧ t₂ ≤ t₃ ∧ t₃ ≤ w'.now ∧ r = .ok result ∧
          LooksAtEarliest env type w t₁ t₂ t₃ result w'.redis := by
  refine ⟨⟨_, _, (machine lib).answered.exec_run World.later_refl ({} : Choice)
    (claimNext env type) w⟩, ?_⟩
  intro r w' h
  unfold claimNext dueJobId at h
  simp only [Prog.bind_eq, Prog.bind_assoc] at h
  obtain ⟨t₁, ht₁, h⟩ := exec_newDate h
  obtain ⟨t, ht, h⟩ := exec_command h
  have hdue : (w.redis.exec t (.firstDue (.jobQueue type) t₁)).1 = earliest w type t₁ := rfl
  have hread : (w.redis.exec t (.firstDue (.jobQueue type) t₁)).2 = w.redis := rfl
  simp only [hdue, hread] at h
  cases hfirst : earliest w type t₁ with
  | none =>
    rw [hfirst] at h
    obtain ⟨rfl, rfl⟩ := h.of_ret
    exact ⟨t₁, t₁, t₁, .empty, ht₁, Nat.le_refl _, Nat.le_refl _, ht, rfl,
      looksAtEarliest_empty hfirst⟩
  | some jobId =>
    rw [hfirst] at h
    obtain ⟨t', ht', h⟩ := exec_randomId h
    obtain ⟨t₂, ht₂, h⟩ := exec_command h
    have ht₁₂ : t₁ ≤ t₂ := Nat.le_trans ht (Nat.le_trans ht' ht₂)
    obtain ⟨hfree, hset⟩ | ⟨htaken, hset⟩ :=
      w.redis.exec_setNx t₂ (.jobInflight jobId) (.token w.random) env.jobQueueLeaseMs
    · have hlease : ¬Leased w t₂ jobId := by
        unfold Leased
        rw [hfree]
        simp
      simp only [hset, if_true] at h
      obtain ⟨t₃, ht₃, h⟩ := exec_command h
      have ht₂₃ : t₂ ≤ t₃ := ht₃
      -- The payload is read as it was before the lease.
      have hget : ((leased w.redis jobId w.random (t₂ + env.jobQueueLeaseMs)).exec t₃
          (.get (.jobData jobId))).1 = w.redis.lookup t₃ (.jobData jobId) :=
        lookup_leased _ _ _ _ _
      unfold leased at hget
      simp only [hget] at h
      cases hread : readable? w t₃ type jobId with
      | none =>
        unfold readable? at hread
        simp only [hread] at h
        unfold discard remove at h
        simp only [Prog.bind_eq, Prog.bind_assoc] at h
        obtain ⟨t₄, ht₄, h⟩ := exec_command h
        obtain ⟨t₅, ht₅, h⟩ := exec_command h
        obtain ⟨rfl, rfl⟩ := h.of_ret
        exact ⟨t₁, t₂, t₃, .malformed jobId, ht₁, ht₁₂, ht₂₃, Nat.le_trans ht₄ ht₅, rfl,
          looksAtEarliest_malformed hfirst hlease hread⟩
      | some envelope =>
        unfold readable? at hread
        simp only [hread] at h
        obtain ⟨rfl, rfl⟩ := h.of_ret
        exact ⟨t₁, t₂, t₃, .claimed jobId envelope, ht₁, ht₁₂, ht₂₃, Nat.le_refl _, rfl,
          looksAtEarliest_claimed hfirst hlease hread⟩
    · simp only [hset, Bool.false_eq_true, if_false] at h
      obtain ⟨rfl, rfl⟩ := h.of_ret
      exact ⟨t₁, t₂, t₂, .busy, ht₁, ht₁₂, Nat.le_refl _, Nat.le_refl _, rfl,
        looksAtEarliest_busy hfirst htaken⟩

/-- What `enqueue` stores under the key of a job. -/
def envelopeOf (jobId : Id) : Stored :=
  .json (.obj [("jobId", .str (.id jobId)), ("type", .str (.lit JobType.groupSummaryRecompute.name)),
    ("payload", .obj [("groupId", .str (.id 7))]), ("attempts", .num 0),
    ("createdAt", .str (.iso 0))])

/-- Two jobs that are due, both of them with their payloads, and no lease. -/
def twoJobs : World :=
  { redis :=
      { strings := fun
          | .jobData 1 => some ⟨envelopeOf 1, some 86400000⟩
          | .jobData 2 => some ⟨envelopeOf 2, some 86400000⟩
          | _ => none
        zsets := fun
          | .jobQueue .groupSummaryRecompute => [⟨1, 1⟩, ⟨1, 2⟩]
          | _ => [] }
    now := 5
    random := 40 }

/-- Another worker has leased the first job. -/
def firstLeased : World :=
  { twoJobs with redis := leased twoJobs.redis 1 39 30005 }

/-- The payload of the first job is gone. -/
def firstUnreadable : World :=
  { twoJobs with redis := twoJobs.redis.remove [.jobData 1] }

/-- Two jobs are due, and the call claims the earlier one. -/
theorem claimNext_looks_at_earliest_twoJobs :
    ∃ r w', Exec (machine .plain).answered World.Later (claimNext {} .groupSummaryRecompute) twoJobs
      r w' ∧ ∃ t₁ t₂ t₃ result, r = .ok result ∧
        LooksAtEarliest {} .groupSummaryRecompute twoJobs t₁ t₂ t₃ result w'.redis := by
  obtain ⟨⟨r, w', h⟩, hlooks⟩ :=
    claimNext_looks_at_earliest .plain {} .groupSummaryRecompute twoJobs
  obtain ⟨t₁, t₂, t₃, result, -, -, -, -, hr, hresult⟩ := hlooks r w' h
  exact ⟨r, w', h, t₁, t₂, t₃, result, hr, hresult⟩

/-- The second job is due, readable and free. A call alone answers that the queue is busy while the
first job is leased, and discards the first job if that has no payload. -/
theorem claimNext_skips_no_job :
    (⟨1, 2⟩ ∈ firstLeased.redis.zsets (.jobQueue .groupSummaryRecompute) ∧ 1 ≤ firstLeased.now ∧
      ¬Leased firstLeased firstLeased.now 2 ∧
      (readable? firstLeased firstLeased.now .groupSummaryRecompute 2).isSome = true ∧
      ∃ w', Exec (machine .plain).answered World.Later (claimNext {} .groupSummaryRecompute)
        firstLeased (.ok .busy) w') ∧
    (⟨1, 2⟩ ∈ firstUnreadable.redis.zsets (.jobQueue .groupSummaryRecompute) ∧
      1 ≤ firstUnreadable.now ∧ ¬Leased firstUnreadable firstUnreadable.now 2 ∧
      (readable? firstUnreadable firstUnreadable.now .groupSummaryRecompute 2).isSome = true ∧
      ∃ w', Exec (machine .plain).answered World.Later (claimNext {} .groupSummaryRecompute)
        firstUnreadable (.ok (.malformed 1)) w') := by
  have hrun := fun w => (machine .plain).answered.exec_run World.later_refl ({} : Choice)
    (claimNext {} .groupSummaryRecompute) w
  have hbusy : ((machine .plain).answered.run ({} : Choice)
      (claimNext {} .groupSummaryRecompute) firstLeased).1 = .ok .busy := rfl
  have hmalformed : ((machine .plain).answered.run ({} : Choice)
      (claimNext {} .groupSummaryRecompute) firstUnreadable).1 = .ok (.malformed 1) := rfl
  refine ⟨⟨by decide, by decide, by decide, by decide, ?_⟩,
    by decide, by decide, by decide, by decide, ?_⟩
  · exact ⟨_, hbusy ▸ hrun firstLeased⟩
  · exact ⟨_, hmalformed ▸ hrun firstUnreadable⟩

end SplitBill.JobQueue
