import SplitBill.Backend

/-!
# Leases

A lease is a string key that a process sets to a random token, with a time to live, if the key does
not exist. `DistributedLock` and `JobQueue.claimNext` both take one. This module says what the log
tells of a lease, and what one step of a run can do to it when the processes use its key as
`acquire` and `release` do.
-/

namespace SplitBill

open Interleave

/-! ## What the log says -/

/-- The random value that a call drew, with the number of the call. -/
def drawn? : BackendEntry → Option (ℕ × Id)
  | ⟨pid, .random, _, .ok t, _, _⟩ => some (pid, t)
  | _ => none

/-- The random values that were drawn, latest first. -/
def draws (log : List BackendEntry) : List (ℕ × Id) := log.filterMap drawn?

/-- A lease that the store granted. -/
structure Grant where
  pid : ℕ
  token : Id
  /-- The first instant at which the lease is over. -/
  expiresAt : Time
  deriving DecidableEq

/-- The lease that an entry took on the key. -/
def grant? (key : Key) : BackendEntry → Option Grant
  | ⟨pid, .redis _ (.setNx k (.token t) ttlMs), pre, .ok true, _, _⟩ =>
    if k = key then some ⟨pid, t, pre.now + ttlMs⟩ else none
  | _ => none

/-- The leases that were taken on the key, latest first. -/
def grants (key : Key) (log : List BackendEntry) : List Grant := log.filterMap (grant? key)

/-- What an entry that asked for the key was told. -/
def acquire? (key : Key) : BackendEntry → Option (Except Err Bool)
  | ⟨_, .redis _ (.setNx k (.token _) _), _, _, seen, _⟩ => if k = key then some seen else none
  | _ => none

/-- The token with which an entry released the key, and whether the store deleted the key. -/
def release? (key : Key) : BackendEntry → Option (Id × Bool)
  | ⟨_, .redis _ (.delIfEq k (.token t)), _, did, _, _⟩ =>
    if k = key then some (t, match did with | .ok deleted => deleted | .error _ => false) else none
  | _ => none

/-- The leases of the key that have not been released since they were taken, latest first. -/
def holders (key : Key) : List BackendEntry → List Grant
  | [] => []
  | e :: log =>
    match grant? key e, release? key e with
    | some g, _ => g :: holders key log
    | none, some (t, true) => (holders key log).filter (·.token ≠ t)
    | none, _ => holders key log

section

variable {key : Key} {e : BackendEntry} {log : List BackendEntry} {g : Grant} {t : Id}

/-- A grant adds its holder. -/
theorem holders_grant (hg : grant? key e = some g) :
    holders key (e :: log) = g :: holders key log := by
  simp only [holders, hg]

/-- A release ends the tenure of its token. -/
theorem holders_release (hg : grant? key e = none) (hr : release? key e = some (t, true)) :
    holders key (e :: log) = (holders key log).filter (·.token ≠ t) := by
  simp only [holders, hg, hr]

/-- Every other entry leaves the holders. -/
theorem holders_keep (hg : grant? key e = none) (hr : ∀ t, release? key e ≠ some (t, true)) :
    holders key (e :: log) = holders key log := by
  simp only [holders, hg]

/-- Taking a lease releases none. -/
theorem release?_of_grant (hg : grant? key e = some g) : release? key e = none := by
  unfold grant? at hg
  split at hg
  · rfl
  · cases hg

end

/-! ## Random values -/

/-- No random value was drawn twice, and none of them will be drawn again. -/
structure Draws (h : Hist backend Err World) : Prop where
  bound : ∀ d ∈ draws h.log, d.2 < h.world.random
  distinct : (draws h.log).Pairwise (·.2 ≠ ·.2)

/-- Equal tokens were drawn by the same call. -/
theorem Draws.pid_eq {h : Hist backend Err World} (hd : Draws h) {p q : ℕ} {t : Id}
    (hp : (p, t) ∈ draws h.log) (hq : (q, t) ∈ draws h.log) : p = q := by
  by_contra hne
  have hpq : (p, t) ≠ (q, t) := fun heq => hne (Prod.mk.inj heq).1
  have hsymm : Std.Symm fun a b : ℕ × Id => a.2 ≠ b.2 := ⟨fun _ _ => Ne.symm⟩
  exact hd.distinct.forall hp hq hpq rfl

variable {lib : Lib}

/-- An operation never takes a random value back. -/
theorem answer_random_le {o : Op} {w w' : World} {did seen : Except Err (backend.Res o)}
    (h : (machine lib).Answer o w did seen w') : w.random ≤ w'.random := by
  rcases answer_cases h with ⟨c, -, rfl, -⟩ | ⟨rfl, -⟩
  · cases o with
    | db d => exact (Access.exec_random d.access c w).ge
    | random => exact Nat.le_succ _
    | bcryptHash password => exact Nat.le_succ _
    | _ => exact le_rfl
  · exact le_rfl

/-- Whoever draws a random value gets the next one. -/
theorem answer_random {w w' : World} {did seen : Except Err Id}
    (h : (machine lib).Answer .random w did seen w') :
    did = .ok w.random ∧ seen = .ok w.random ∧ w' = { w with random := w.random + 1 } := by
  rcases answer_cases h with ⟨c, rfl, rfl, rfl | ⟨e, he, -⟩⟩ | ⟨-, e, he, -⟩
  · exact ⟨rfl, rfl, rfl⟩
  · cases he
  · cases he

/-- An entry that draws nothing. -/
theorem draws_cons_none {e : BackendEntry} {log : List BackendEntry} (h : drawn? e = none) :
    draws (e :: log) = draws log :=
  List.filterMap_cons_none h

/-- An entry that draws a token. -/
theorem draws_cons_some {e : BackendEntry} {log : List BackendEntry} {d : ℕ × Id}
    (h : drawn? e = some d) : draws (e :: log) = d :: draws log :=
  List.filterMap_cons_some h

/-- What was drawn stays drawn. -/
theorem mem_draws_cons (e : BackendEntry) {log : List BackendEntry} {d : ℕ × Id}
    (hd : d ∈ draws log) : d ∈ draws (e :: log) :=
  ((List.suffix_cons e log).filterMap drawn?).mem hd

/-- What a call has drawn, by its own log. -/
theorem draws_own {h : Hist backend Err World} {pid : ℕ} {t : Id}
    (ht : (pid, t) ∈ draws (h.own pid)) : (pid, t) ∈ draws h.log :=
  (List.filter_sublist.filterMap drawn?).subset ht

/-- A step draws no random value, or the next one. -/
theorem drawn?_cases {h : Hist backend Err World} (pid : ℕ) {o : Op} {did seen : Except Err o.Res}
    {w : World} (hans : (machine lib).Answer o h.world did seen w) :
    drawn? ⟨pid, o, h.world, did, seen, w⟩ = none ∨
      drawn? ⟨pid, o, h.world, did, seen, w⟩ = some (pid, h.world.random) ∧
        h.world.random < w.random := by
  cases o with
  | random =>
    obtain ⟨rfl, -, rfl⟩ := answer_random hans
    exact .inr ⟨rfl, Nat.lt_succ_self _⟩
  | _ => exact .inl rfl

/-- A step keeps the random values apart. -/
theorem Draws.record {h : Hist backend Err World} (hd : Draws h) (pid : ℕ) {o : Op}
    {did seen : Except Err o.Res} {w : World} (hans : (machine lib).Answer o h.world did seen w) :
    Draws (h.record pid o did seen w) := by
  have hbound : ∀ d ∈ draws h.log, d.2 < w.random := fun d hmem =>
    lt_of_lt_of_le (hd.bound d hmem) (answer_random_le hans)
  rcases drawn?_cases pid hans with hnone | ⟨hsome, hlt⟩
  · constructor <;> rw [Hist.record_log, draws_cons_none hnone]
    · exact hbound
    · exact hd.distinct
  · constructor <;> rw [Hist.record_log, draws_cons_some hsome]
    · exact List.forall_mem_cons.mpr ⟨hlt, hbound⟩
    · exact List.pairwise_cons.mpr ⟨fun d hmem => (hd.bound d hmem).ne', hd.distinct⟩

/-! ## What a step does to the key -/

/-- The operation does not write the key. -/
def Op.LeavesKey (key : Key) : Op → Prop
  | .redis _ c => c.LeavesKey key
  | _ => True

/-- The operation uses the key only as `acquire` and `release` do, with one of the tokens. -/
def Op.WithToken (key : Key) (tokens : List Id) : Op → Prop
  | .redis _ (.setNx k v _) => k = key → ∃ t ∈ tokens, v = .token t
  | .redis _ (.delIfEq k v) => k = key → ∃ t ∈ tokens, v = .token t
  | o => o.LeavesKey key

/-- An operation that leaves the key alone uses none of the tokens on it. -/
theorem Op.LeavesKey.withToken {key : Key} {o : Op} (h : o.LeavesKey key) (tokens : List Id) :
    o.WithToken key tokens := by
  cases o with
  | redis caller c =>
    cases c with
    | setNx k v ttlMs => exact fun hk => absurd hk h
    | delIfEq k v => exact fun hk => absurd hk h
    | _ => exact h
  | _ => exact h

/-- An operation that does not write the key leaves it as it was. -/
theorem answer_leavesKey {key : Key} {o : Op} (ho : o.LeavesKey key) {w w' : World}
    {did seen : Except Err (backend.Res o)} (h : (machine lib).Answer o w did seen w') :
    w'.redis.strings key = w.redis.strings key := by
  rcases answer_cases h with ⟨c, -, rfl, -⟩ | ⟨rfl, -⟩
  · cases o with
    | redis caller cmd => exact Redis.exec_strings_of_leavesKey w.redis ho
    | db d =>
      show (d.access.exec c w).2.redis.strings key = _
      rw [Access.exec_redis]
    | _ => rfl
  · rfl

/-- Equality with a token. -/
theorem Stored.beq_token {v : Stored} {t : Id} (h : (some v == some (.token t)) = true) :
    v = .token t := by
  cases v with
  | json j => cases h
  | token n =>
    have hn : (n == t) = true := h
    rw [eq_of_beq hn]
  | other s => cases h

/-- What a step does to the key: it takes the lease, it releases the lease whose token it names, or
it leaves the key as it was. -/
inductive KeyStep (key : Key) (tokens : List Id) (e : BackendEntry) : Prop
  | grant (g : Grant) (hg : grant? key e = some g) (hpid : g.pid = e.pid) (ht : g.token ∈ tokens)
      (hpre : e.pre.redis.lookup e.pre.now key = none)
      (hpost : e.post.redis.strings key = some ⟨.token g.token, some g.expiresAt⟩)
  | release (t : Id) (ht : t ∈ tokens) (hg : grant? key e = none)
      (hr : release? key e = some (t, true))
      (hpre : e.pre.redis.lookup e.pre.now key = some (.token t))
      (hpost : e.post.redis.strings key = none)
  | keep (hg : grant? key e = none)
      (hr : ∀ t deleted, release? key e = some (t, deleted) → deleted = false ∧
        e.post.redis = e.pre.redis)
      (hpost : e.post.redis.strings key = e.pre.redis.strings key)

/-- An operation that does not write the key is no step on it. -/
theorem keyStep_of_leavesKey {key : Key} {o : Op} (ho : o.LeavesKey key) (tokens : List Id)
    (pid : ℕ) {w w' : World} {did seen : Except Err o.Res}
    (h : (machine lib).Answer o w did seen w') :
    KeyStep key tokens ⟨pid, o, w, did, seen, w'⟩ ∧ acquire? key ⟨pid, o, w, did, seen, w'⟩ = none ∧
      release? key ⟨pid, o, w, did, seen, w'⟩ = none := by
  have hpost := answer_leavesKey ho h
  suffices hnone : grant? key ⟨pid, o, w, did, seen, w'⟩ = none ∧
      acquire? key ⟨pid, o, w, did, seen, w'⟩ = none ∧
      release? key ⟨pid, o, w, did, seen, w'⟩ = none by
    obtain ⟨hg, ha, hr⟩ := hnone
    refine ⟨.keep hg (fun t deleted hsome => ?_) hpost, ha, hr⟩
    rw [hr] at hsome
    cases hsome
  -- Only `SET NX` and `DEL` if equal are steps of the lock, and these are about another key.
  cases o with
  | redis caller c =>
    cases c with
    | setNx k v ttlMs =>
      cases v with
      | token t =>
        rcases did with e | _ | _
        · exact ⟨rfl, if_neg ho, rfl⟩
        · exact ⟨rfl, if_neg ho, rfl⟩
        · exact ⟨if_neg ho, if_neg ho, rfl⟩
      | json j => exact ⟨rfl, rfl, rfl⟩
      | other s => exact ⟨rfl, rfl, rfl⟩
    | delIfEq k v =>
      cases v with
      | token t => exact ⟨rfl, rfl, if_neg ho⟩
      | json j => exact ⟨rfl, rfl, rfl⟩
      | other s => exact ⟨rfl, rfl, rfl⟩
    | _ => exact ⟨rfl, rfl, rfl⟩
  | _ => exact ⟨rfl, rfl, rfl⟩

/-- A request for the key takes the lease, or leaves the key as it was. Who is told that it has the
lease has it. -/
theorem keyStep_setNx {key : Key} {caller : Caller} {t : Id} {ttlMs : ℕ} {tokens : List Id}
    (ht : t ∈ tokens) (pid : ℕ) {w w' : World} {did seen : Except Err Bool}
    (h : (machine lib).Answer (.redis caller (.setNx key (.token t) ttlMs)) w did seen w') :
    KeyStep key tokens
        ⟨pid, .redis caller (.setNx key (.token t) ttlMs), w, did, seen, w'⟩ ∧
      (seen = .ok true → did = .ok true) := by
  rcases answer_cases h with ⟨c, hdid, rfl, hseen⟩ | ⟨rfl, e, -, rfl, rfl⟩
  · have htruth : seen = .ok true → did = .ok true := by
      intro htrue
      rcases hseen with hseen | ⟨e, -, he⟩
      · rw [← hseen, htrue]
      · rw [he] at htrue
        cases htrue
    refine ⟨?_, htruth⟩
    -- The key is free and the lease is granted, or it is taken and nothing changes.
    rcases w.redis.exec_setNx w.now key (.token t) ttlMs with ⟨hpre, hexec⟩ | ⟨-, hexec⟩
    · have hd : did = .ok true := by
        rw [hdid]
        exact congrArg (Except.ok ·.1) hexec
      subst hd
      refine .grant ⟨pid, t, w.now + ttlMs⟩ (if_pos rfl) rfl ht hpre ?_
      show ((w.redis.exec w.now (.setNx key (.token t) ttlMs)).2).strings key = _
      rw [hexec]
      exact Function.update_self _ _ _
    · have hd : did = .ok false := by
        rw [hdid]
        exact congrArg (Except.ok ·.1) hexec
      subst hd
      refine .keep rfl (by rintro - - ⟨⟩) ?_
      show ((w.redis.exec w.now (.setNx key (.token t) ttlMs)).2).strings key = _
      rw [hexec]
  · refine ⟨.keep rfl (by rintro - - ⟨⟩) rfl, ?_⟩
    rintro ⟨⟩

/-- A release deletes the key if it holds the token, or leaves Redis as it was. -/
theorem keyStep_delIfEq {key : Key} {caller : Caller} {t : Id} {tokens : List Id}
    (ht : t ∈ tokens) (pid : ℕ) {w w' : World} {did seen : Except Err Bool}
    (h : (machine lib).Answer (.redis caller (.delIfEq key (.token t))) w did seen w') :
    KeyStep key tokens ⟨pid, .redis caller (.delIfEq key (.token t)), w, did, seen, w'⟩ := by
  rcases answer_cases h with ⟨c, hdid, rfl, -⟩ | ⟨rfl, e, -, rfl, -⟩
  -- The key holds the token and goes, or holds something else and stays.
  · rcases w.redis.exec_delIfEq w.now key (.token t) with ⟨hpre, hexec⟩ | hexec
    · have hd : did = .ok true := by
        rw [hdid]
        exact congrArg (Except.ok ·.1) hexec
      subst hd
      refine .release t ht rfl (if_pos rfl) ?_ ?_
      · show w.redis.lookup w.now key = _
        cases hv : w.redis.lookup w.now key with
        | none =>
          rw [hv] at hpre
          cases hpre
        | some v =>
          rw [hv] at hpre
          rw [Stored.beq_token hpre]
      · show ((w.redis.exec w.now (.delIfEq key (.token t))).2).strings key = _
        rw [hexec]
        exact if_pos (List.mem_singleton.mpr rfl)
    · have hd : did = .ok false := by
        rw [hdid]
        exact congrArg (Except.ok ·.1) hexec
      subst hd
      have hredis : (w.redis.exec w.now (.delIfEq key (.token t))).2 = w.redis := by rw [hexec]
      refine .keep rfl (fun u deleted hr => ?_) (congrArg (·.strings key) hredis)
      have hr' : some (t, false) = some (u, deleted) := (if_pos rfl).symm.trans hr
      exact ⟨(Prod.mk.inj (Option.some.inj hr')).2.symm, hredis⟩
  · refine .keep rfl (fun u deleted hr => ?_) rfl
    have hr' : some (t, false) = some (u, deleted) := (if_pos rfl).symm.trans hr
    exact ⟨(Prod.mk.inj (Option.some.inj hr')).2.symm, rfl⟩

/-- Every step that uses the key only as `acquire` and `release` do is a step on it, and who is told
that it has the lease has it. -/
theorem keyStep {key : Key} {tokens : List Id} {o : Op} (ho : o.WithToken key tokens) (pid : ℕ)
    {w w' : World} {did seen : Except Err o.Res} (h : (machine lib).Answer o w did seen w') :
    KeyStep key tokens ⟨pid, o, w, did, seen, w'⟩ ∧
      (acquire? key ⟨pid, o, w, did, seen, w'⟩ = some (.ok true) →
        (grant? key ⟨pid, o, w, did, seen, w'⟩).isSome = true) ∧
      ∀ t deleted, release? key ⟨pid, o, w, did, seen, w'⟩ = some (t, deleted) → t ∈ tokens := by
  -- Whatever leaves the key alone is no step of the lock.
  have hleaves : o.LeavesKey key → _ := fun hl => keyStep_of_leavesKey hl tokens pid h
  have hother : o.LeavesKey key → KeyStep key tokens ⟨pid, o, w, did, seen, w'⟩ ∧
      (acquire? key ⟨pid, o, w, did, seen, w'⟩ = some (.ok true) →
        (grant? key ⟨pid, o, w, did, seen, w'⟩).isSome = true) ∧
      ∀ t deleted, release? key ⟨pid, o, w, did, seen, w'⟩ = some (t, deleted) → t ∈ tokens := by
    intro hl
    obtain ⟨hstep, ha, hr⟩ := hleaves hl
    refine ⟨hstep, fun h' => ?_, fun t deleted h' => ?_⟩
    · rw [ha] at h'
      cases h'
    · rw [hr] at h'
      cases h'
  cases o with
  | redis caller c =>
    cases c with
    | setNx k v ttlMs =>
      by_cases hk : k = key
      · obtain ⟨t, ht, rfl⟩ := ho hk
        subst hk
        obtain ⟨hstep, htruth⟩ := keyStep_setNx ht pid h
        refine ⟨hstep, fun ha => ?_, by rintro - - ⟨⟩⟩
        have hseen : some seen = some (.ok true) := (if_pos rfl).symm.trans ha
        obtain rfl := htruth (Option.some.inj hseen)
        show (if k = k then _ else _ : Option Grant).isSome = true
        rw [if_pos rfl]
        rfl
      · exact hother hk
    | delIfEq k v =>
      by_cases hk : k = key
      · obtain ⟨t, ht, rfl⟩ := ho hk
        subst hk
        refine ⟨keyStep_delIfEq ht pid h, by rintro ⟨⟩, fun u deleted hr => ?_⟩
        have hr' : some (t, _) = some (u, deleted) := (if_pos rfl).symm.trans hr
        exact (Prod.mk.inj (Option.some.inj hr')).1 ▸ ht
      · exact hother hk
    | _ => exact hother ho
  | _ => exact hother trivial

/-- The key's value is the token of the slot that it holds, which is not over. -/
theorem exists_slot_of_lookup {w : World} {key : Key} {v : Stored}
    (h : w.redis.lookup w.now key = some v) :
    ∃ s, w.redis.strings key = some s ∧ s.value = v ∧ ∀ t, s.expiresAt = some t → w.now < t := by
  obtain ⟨s, hs, hlive, hv⟩ := Redis.lookup_eq_some.mp h
  refine ⟨s, hs, hv, fun t ht => ?_⟩
  unfold Slot.live at hlive
  rw [ht] at hlive
  exact of_decide_eq_true hlive

/-- A key that holds a lease which is not over has a value. -/
theorem lookup_of_lease {w : World} {key : Key} {t : Id} {expiresAt : Time}
    (hs : w.redis.strings key = some ⟨.token t, some expiresAt⟩) (hlt : w.now < expiresAt) :
    w.redis.lookup w.now key = some (.token t) :=
  Redis.lookup_eq_some.mpr ⟨_, hs, decide_eq_true hlt, rfl⟩

end SplitBill
