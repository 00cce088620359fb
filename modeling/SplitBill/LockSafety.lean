import SplitBill.DistributedLock
import SplitBill.Interleave.Logic
import SplitBill.Lease

/-!
# The lock is safe

Any number of processes that use one key as a lock, through `withLock` or through `acquire` and
`release` themselves, side by side. Time passes at will, commands fail or lose their answers, and a
process may stop for good at any step.

The invariant is that the key holds the token of every lease that is neither over nor released, and
nothing but the token of such a lease. Tokens are drawn at random and by one process each, so two
processes never hold the lock at once, and a release that deletes the key deletes its own lease.
-/

namespace SplitBill

open Interleave

variable {lib : Lib} {α : Type}

/-! ## The processes -/

/-- The tokens that a process can name after an operation. -/
def tokensAfter (tokens : List Id) : (o : Op) → Except Err o.Res → List Id
  | .random, .ok t => t :: tokens
  | _, _ => tokens

/-- The program uses the key only as `acquire` and `release` do: it stores and releases tokens that
it has drawn itself. -/
def Locks (key : Key) : Act α → List Id → Prop
  | .ret _, _ => True
  | .throw _, _ => True
  | .call o k, tokens => o.WithToken key tokens ∧ ∀ r, Locks key (k r) (tokensAfter tokens o r)

/-- A process that uses the lock. The operation that `withLock` guards leaves the key alone, and a
program that calls `acquire` and `release` itself uses the key in no other way. -/
inductive LockCall (key : Key) (α : Type)
  /-- `withLock`. -/
  | withLock (operation : Act α) (h : operation.Issues (Op.LeavesKey key))
  /-- A program that calls `acquire` and `release` in its own way. -/
  | direct (program : Act α) (h : Locks key program [])

/-- The program of a process. -/
def LockCall.body (env : Env) {key : Key} : LockCall key α → Act α
  | withLock operation _ => DistributedLock.withLock env key operation
  | direct program _ => program

/-- Processes that use the lock, side by side. -/
abbrev lockSystem (lib : Lib) (env : Env) (key : Key) (α : Type) : System backend Err α World where
  machine := machine lib
  Call := LockCall key α
  body := LockCall.body env
  valid _ := True
  env := World.Later

/-- The worlds from which the runs start: the key does not exist. -/
def Unlocked (key : Key) (w : World) : Prop := w.redis.strings key = none

/-! ## The invariant -/

/-- What a release may do: it deletes the key only if the key holds the caller's own lease, which is
not over, and otherwise it changes nothing. `log` is what happened before. -/
def ReleasesOwn (key : Key) (e : BackendEntry) (log : List BackendEntry) : Prop :=
  ∀ t deleted, release? key e = some (t, deleted) →
    if deleted then
      ∃ g ∈ holders key log, g.pid = e.pid ∧ g.token = t ∧ e.pre.now < g.expiresAt ∧
        e.pre.redis.strings key = some ⟨.token t, some g.expiresAt⟩
    else e.post.redis = e.pre.redis

/-- How the key goes with the log. -/
structure LockInv (key : Key) (h : Hist backend Err World) : Prop where
  fresh : Draws h
  /-- Whoever holds a lease drew its token. -/
  owner : ∀ g ∈ holders key h.log, (g.pid, g.token) ∈ draws h.log
  /-- The key holds every lease that is not over. -/
  stored : ∀ g ∈ holders key h.log, h.world.now < g.expiresAt →
    h.world.redis.strings key = some ⟨.token g.token, some g.expiresAt⟩
  /-- The key holds nothing but a lease. -/
  origin : ∀ s, h.world.redis.strings key = some s →
    ∃ g ∈ holders key h.log, s = ⟨.token g.token, some g.expiresAt⟩
  /-- A lease is released by nobody but its holder. -/
  kept : ∀ g ∈ grants key h.log, g ∈ holders key h.log ∨
    ∃ e ∈ h.log, e.pid = g.pid ∧ (release? key e).isSome = true
  /-- Who is told that it has the lock has taken a lease. -/
  truthful : ∀ e ∈ h.log, acquire? key e = some (.ok true) → ∃ g ∈ grants key h.log, g.pid = e.pid
  releases : ∀ e log, e :: log <:+ h.log → ReleasesOwn key e log

namespace LockInv

variable {key : Key} {h : Hist backend Err World}

/-- Time may pass. -/
theorem later (hi : LockInv key h) {w : World} (hw : h.world.Later w) :
    LockInv key (h.withWorld w) := by
  obtain ⟨t, ht, rfl⟩ := hw
  exact
    { fresh := ⟨hi.fresh.bound, hi.fresh.distinct⟩
      owner := hi.owner
      stored := fun g hg hlt => hi.stored g hg (lt_of_le_of_lt ht hlt)
      origin := hi.origin
      kept := hi.kept
      truthful := hi.truthful
      releases := hi.releases }

/-- A key that has no value is held by nobody. -/
theorem over_of_lookup_none (hi : LockInv key h)
    (hnone : h.world.redis.lookup h.world.now key = none) {g : Grant}
    (hg : g ∈ holders key h.log) : ¬h.world.now < g.expiresAt := by
  intro hlt
  have hsome := lookup_of_lease (hi.stored g hg hlt) hlt
  rw [hnone] at hsome
  cases hsome

/-- The lease whose token the key holds, and who holds it. -/
theorem holder_of_lookup (hi : LockInv key h) {t : Id}
    (ht : h.world.redis.lookup h.world.now key = some (.token t)) :
    ∃ g ∈ holders key h.log, g.token = t ∧ h.world.now < g.expiresAt ∧
      h.world.redis.strings key = some ⟨.token t, some g.expiresAt⟩ := by
  obtain ⟨s, hs, hv, hlive⟩ := exists_slot_of_lookup ht
  obtain ⟨g, hg, rfl⟩ := hi.origin s hs
  have htoken : g.token = t := Stored.token.inj hv
  exact ⟨g, hg, htoken, hlive _ rfl, htoken ▸ hs⟩

section Step

variable {tokens : List Id} {e : BackendEntry} {log : List BackendEntry}

/-- An entry that neither grants nor releases leaves the holders. -/
theorem holders_unreleased (hg : grant? key e = none)
    (hr : ∀ t deleted, release? key e = some (t, deleted) → deleted = false ∧
      e.post.redis = e.pre.redis) : holders key (e :: log) = holders key log := by
  refine holders_keep hg fun t hrt => ?_
  cases (hr t true hrt).1

/-- The lease of a grant is drawn by its holder. -/
theorem owner_step (hi : LockInv key ⟨e.pre, log⟩) (hstep : KeyStep key tokens e)
    (htokens : ∀ t ∈ tokens, (e.pid, t) ∈ draws log) :
    ∀ g ∈ holders key (e :: log), (g.pid, g.token) ∈ draws (e :: log) := by
  have hold : ∀ g ∈ holders key log, (g.pid, g.token) ∈ draws (e :: log) :=
    fun g hg => mem_draws_cons _ (hi.owner g hg)
  cases hstep with
  | grant g hg hpid ht =>
    rw [holders_grant hg]
    refine List.forall_mem_cons.mpr ⟨?_, hold⟩
    rw [hpid]
    exact mem_draws_cons _ (htokens g.token ht)
  | release t _ hg hr =>
    rw [holders_release hg hr]
    exact fun g hmem => hold g (List.mem_of_mem_filter hmem)
  | keep hg hr =>
    rw [holders_unreleased hg hr]
    exact hold

/-- A step keeps the value of every unexpired holder under the key. -/
theorem stored_step (hi : LockInv key ⟨e.pre, log⟩) (hstep : KeyStep key tokens e)
    (hnow : e.post.now = e.pre.now) : ∀ g ∈ holders key (e :: log), e.post.now < g.expiresAt →
      e.post.redis.strings key = some ⟨.token g.token, some g.expiresAt⟩ := by
  rw [hnow]
  cases hstep with
  | grant g hg hpid ht hpre hpost =>
    -- Every earlier lease is over, or the key would have existed.
    rw [holders_grant hg]
    refine List.forall_mem_cons.mpr ⟨fun _ => hpost, fun g' hg' hlt => ?_⟩
    exact absurd hlt (hi.over_of_lookup_none hpre hg')
  | release t ht hg hr hpre hpost =>
    -- Only one lease is not over, and it is the released one.
    obtain ⟨g, -, -, -, hslot⟩ := hi.holder_of_lookup hpre
    rw [holders_release hg hr]
    intro g' hg' hlt
    obtain ⟨hmem, hne⟩ := List.mem_filter.mp hg'
    have hslot' := hi.stored g' hmem hlt
    rw [hslot] at hslot'
    have htoken : t = g'.token := Stored.token.inj (congrArg Slot.value (Option.some.inj hslot'))
    exact absurd htoken.symm (of_decide_eq_true hne)
  | keep hg hr hpost =>
    rw [holders_unreleased hg hr, hpost]
    exact hi.stored

/-- After a step the value under the key is still a holder's. -/
theorem origin_step (hi : LockInv key ⟨e.pre, log⟩) (hstep : KeyStep key tokens e) :
    ∀ s, e.post.redis.strings key = some s → ∃ g ∈ holders key (e :: log),
      s = ⟨.token g.token, some g.expiresAt⟩ := by
  cases hstep with
  | grant g hg hpid ht hpre hpost =>
    intro s hs
    rw [hpost] at hs
    rw [holders_grant hg]
    exact ⟨g, List.mem_cons_self, (Option.some.inj hs).symm⟩
  | release t ht hg hr hpre hpost =>
    intro s hs
    rw [hpost] at hs
    cases hs
  | keep hg hr hpost =>
    rw [holders_unreleased hg hr, hpost]
    exact hi.origin

/-- A lease is given up by a release of its holder, who alone knows its token. -/
theorem kept_step (hi : LockInv key ⟨e.pre, log⟩) (hstep : KeyStep key tokens e)
    (htokens : ∀ t ∈ tokens, (e.pid, t) ∈ draws log) :
    ∀ g ∈ grants key (e :: log), g ∈ holders key (e :: log) ∨
      ∃ e' ∈ e :: log, e'.pid = g.pid ∧ (release? key e').isSome = true := by
  have hold : ∀ g ∈ grants key log, g ∈ holders key log ∨
      ∃ e' ∈ e :: log, e'.pid = g.pid ∧ (release? key e').isSome = true := by
    intro g hg
    rcases hi.kept g hg with hhold | ⟨e', he, hrest⟩
    · exact .inl hhold
    · exact .inr ⟨e', List.mem_cons_of_mem _ he, hrest⟩
  unfold grants
  -- Only a release ends a tenure, and its token is the caller's own.
  cases hstep with
  | grant g hg =>
    rw [holders_grant hg, List.filterMap_cons_some hg]
    refine List.forall_mem_cons.mpr ⟨.inl List.mem_cons_self, fun g' hg' => ?_⟩
    exact (hold g' hg').imp (List.mem_cons_of_mem _) id
  | release t ht hg hr =>
    rw [holders_release hg hr, List.filterMap_cons_none hg]
    intro g hmem
    rcases hold g hmem with hhold | hgone
    · by_cases htoken : g.token = t
      · have howner := hi.owner g hhold
        rw [htoken] at howner
        refine .inr ⟨e, List.mem_cons_self, hi.fresh.pid_eq (htokens t ht) howner, ?_⟩
        rw [hr]
        rfl
      · exact .inl (List.mem_filter.mpr ⟨hhold, decide_eq_true htoken⟩)
    · exact .inr hgone
  | keep hg hr =>
    rw [holders_unreleased hg hr, List.filterMap_cons_none hg]
    exact hold

/-- After a step whoever was told that it has the lock was granted it. -/
theorem truthful_step (hi : LockInv key ⟨e.pre, log⟩) (hstep : KeyStep key tokens e)
    (htruth : acquire? key e = some (.ok true) → (grant? key e).isSome = true) :
    ∀ e' ∈ e :: log, acquire? key e' = some (.ok true) → ∃ g ∈ grants key (e :: log),
      g.pid = e'.pid := by
  refine List.forall_mem_cons.mpr ⟨fun ha => ?_, fun e' he ha => ?_⟩
  · obtain ⟨g, hg⟩ := Option.isSome_iff_exists.mp (htruth ha)
    cases hstep with
    | grant g' hg' hpid => exact ⟨g', List.mem_filterMap.mpr ⟨_, List.mem_cons_self, hg'⟩, hpid⟩
    | release t _ hnone => rw [hnone] at hg; cases hg
    | keep hnone => rw [hnone] at hg; cases hg
  · obtain ⟨g, hg, hpid⟩ := hi.truthful e' he ha
    exact ⟨g, ((List.suffix_cons _ log).filterMap (grant? key)).mem hg, hpid⟩

/-- A release deletes the lease of its own caller, since nobody else has drawn the token. -/
theorem releasesOwn_step (hi : LockInv key ⟨e.pre, log⟩) (hstep : KeyStep key tokens e)
    (htokens : ∀ t ∈ tokens, (e.pid, t) ∈ draws log) : ReleasesOwn key e log := by
  intro u deleted hr'
  cases hstep with
  | grant g hg =>
    rw [release?_of_grant hg] at hr'
    cases hr'
  | release t ht hg hr hpre hpost =>
    obtain ⟨g, hghold, hgt, hglive, hslot⟩ := hi.holder_of_lookup hpre
    rw [hr] at hr'
    obtain ⟨rfl, rfl⟩ := Prod.mk.inj (Option.some.inj hr')
    have howner := hi.owner g hghold
    rw [hgt] at howner
    exact ⟨g, hghold, hi.fresh.pid_eq howner (htokens t ht), hgt, hglive, hslot⟩
  | keep hg hr hpost =>
    obtain ⟨rfl, hredis⟩ := hr u deleted hr'
    exact hredis

end Step

/-- A step with tokens that its process has drawn itself keeps the invariant. -/
theorem record {pid : ℕ} {o : Op} {did seen : Except Err o.Res} {w : World} {tokens : List Id}
    (hi : LockInv key h) (ho : o.WithToken key tokens)
    (htokens : ∀ t ∈ tokens, (pid, t) ∈ draws h.log)
    (hans : (machine lib).Answer o h.world did seen w) :
    LockInv key (h.record pid o did seen w) := by
  obtain ⟨hstep, htruth, -⟩ := keyStep ho pid hans
  exact
    { fresh := hi.fresh.record pid hans
      owner := hi.owner_step hstep htokens
      stored := hi.stored_step hstep (answer_now hans)
      origin := hi.origin_step hstep
      kept := hi.kept_step hstep htokens
      truthful := hi.truthful_step hstep htruth
      releases := forall_suffix_cons.mpr ⟨hi.releasesOwn_step hstep htokens, hi.releases⟩ }

end LockInv

/-! ## The processes keep it -/

/-- What every step of a run keeps. -/
def LockRely (key : Key) (h h' : Hist backend Err World) : Prop :=
  LockInv key h → LockInv key h'

/-- The process was not refused the lock, and has not begun to release it. `log` are the entries of
the process. -/
def Operating (key : Key) (log : List BackendEntry) : Prop :=
  (∃ e ∈ log, ∃ r, acquire? key e = some r ∧ r ≠ .ok false) ∧ ∀ e ∈ log, release? key e = none

/-- After its first two steps, in which it draws a token and asks for the lock, the process has
taken no step but while it operated, or to release the lock. -/
def Steps (key : Key) (log : List BackendEntry) : Prop :=
  ∀ e l, e :: l <:+ log → 2 ≤ l.length → (release? key e).isSome = true ∨ Operating key l

/-- What holds of a process all along. -/
def LockCall.Inside {key : Key} (pid : ℕ) : LockCall key α → Hist backend Err World → Prop
  | .withLock _ _, h => Steps key (h.own pid)
  | .direct _ _, _ => True

section

variable {env : Env} {key : Key} {pid : ℕ} {h : Hist backend Err World}

/-- A call's first two entries are steps of the protocol. -/
theorem steps_of_length_le {log : List BackendEntry} (hlen : log.length ≤ 2) : Steps key log := by
  intro e l hsuffix hl
  have := hsuffix.length_le
  rw [List.length_cons] at this
  omega

/-- One entry more of a call is a step of the protocol when it is the release or the operation. -/
theorem steps_cons {e : BackendEntry} {log : List BackendEntry} (hlog : Steps key log)
    (he : 2 ≤ log.length → (release? key e).isSome = true ∨ Operating key log) :
    Steps key (e :: log) :=
  forall_suffix_cons.mpr ⟨he, hlog⟩

/-- The tokens after a step were drawn by then. -/
theorem draws_tokensAfter {tokens : List Id} (htokens : ∀ t ∈ tokens, (pid, t) ∈ draws (h.own pid))
    {o : Op} {did seen : Except Err o.Res} {w : World}
    (hans : (machine lib).Answer o h.world did seen w) :
    ∀ t ∈ tokensAfter tokens o seen, (pid, t) ∈ draws ((h.record pid o did seen w).own pid) := by
  rw [Hist.own_record_self]
  cases o with
  | random =>
    obtain ⟨rfl, rfl, rfl⟩ := answer_random hans
    rw [draws_cons_some rfl]
    exact List.forall_mem_cons.mpr
      ⟨List.mem_cons_self, fun t ht => List.mem_cons_of_mem _ (htokens t ht)⟩
  | _ => exact fun t ht => mem_draws_cons _ (htokens t ht)

/-- A program that uses the key only as `acquire` and `release` do keeps the invariant. -/
theorem locks_wp {p : Act α} {tokens : List Id} (hp : Locks key p tokens) (hi : LockInv key h)
    (htokens : ∀ t ∈ tokens, (pid, t) ∈ draws (h.own pid)) :
    wp ((lockSystem lib env key α).discipline (LockRely key) (fun _ => True) pid)
      (fun _ _ => True) p h := by
  induction p generalizing tokens h with
  | ret a => trivial
  | throw e => trivial
  | call o k ih =>
    obtain ⟨ho, hk⟩ := hp
    rintro x ⟨hR, hown⟩ seen y ⟨-, did, w, hans, rfl⟩
    rw [← hown] at htokens
    have hx := hR hi
    have hy := hx.record ho (fun t ht => draws_own (htokens t ht)) hans
    exact ⟨⟨fun _ => hy, trivial⟩, ih seen (hk seen) hy (draws_tokensAfter htokens hans)⟩

/-- A process that operates and has drawn the tokens, in a run in which the invariant holds. -/
structure Within (key : Key) (pid : ℕ) (tokens : List Id) (h : Hist backend Err World) :
    Prop where
  inv : LockInv key h
  drawn : ∀ t ∈ tokens, (pid, t) ∈ draws (h.own pid)
  steps : Steps key (h.own pid)
  asked : 2 ≤ (h.own pid).length
  operating : Operating key (h.own pid)

/-- What a call knows within its tenure the others cannot change. -/
theorem Within.rely {tokens : List Id} {h' : Hist backend Err World}
    (hw : Within key pid tokens h) (hR : LockRely key h h') (hown : h'.own pid = h.own pid) :
    Within key pid tokens h' :=
  ⟨hR hw.inv, hown ▸ hw.drawn, hown ▸ hw.steps, hown ▸ hw.asked, hown ▸ hw.operating⟩

/-- A step of the operation. -/
theorem Within.record {tokens : List Id} (hw : Within key pid tokens h) {o : Op}
    {did seen : Except Err o.Res} {w : World} (ho : o.LeavesKey key)
    (hans : (machine lib).Answer o h.world did seen w) :
    Within key pid tokens (h.record pid o did seen w) := by
  obtain ⟨-, -, hnone⟩ := keyStep_of_leavesKey ho [] pid hans
  obtain ⟨⟨e, he, hr⟩, hfree⟩ := hw.operating
  constructor
  case inv =>
    exact hw.inv.record (ho.withToken []) (fun t ht => absurd ht List.not_mem_nil) hans
  case drawn =>
    rw [Hist.own_record_self]
    exact fun t ht => mem_draws_cons _ (hw.drawn t ht)
  case steps =>
    rw [Hist.own_record_self]
    exact steps_cons hw.steps fun _ => .inr hw.operating
  case asked =>
    rw [Hist.own_record_self, List.length_cons]
    exact Nat.le_succ_of_le hw.asked
  case operating =>
    rw [Hist.own_record_self]
    exact ⟨⟨e, List.mem_cons_of_mem _ he, hr⟩, List.forall_mem_cons.mpr ⟨hnone, hfree⟩⟩

/-- The operation operates to its end. -/
theorem operation_wp {operation : Act α} (hop : operation.Issues (Op.LeavesKey key))
    {tokens : List Id} (hw : Within key pid tokens h) :
    wp ((lockSystem lib env key α).discipline (LockRely key) (fun y => Steps key (y.own pid)) pid)
      (fun _ y => Within key pid tokens y) operation h := by
  refine wp_of_issues hop (fun x y hx hxy => hx.rely hxy.1 hxy.2) ?_ (fun _ _ hx => hx) hw
  rintro o x seen y ho hx ⟨-, did, w, hans, rfl⟩
  have hy := hx.record ho hans
  exact ⟨⟨fun _ => hy.inv, hy.steps⟩, hy⟩

/-- A process releases the lock. -/
theorem release_wp {t : Id} (hw : Within key pid [t] h) :
    wp ((lockSystem lib env key α).discipline (LockRely key) (fun y => Steps key (y.own pid)) pid)
      (fun _ _ => True) (DistributedLock.release key t) h := by
  refine wp_perform.mpr ?_
  rintro x ⟨hR, hown⟩ r y ⟨-, did, w, hans, rfl⟩
  have hx := hw.rely hR hown
  have ho : Op.WithToken key [t] (.redis .distributedLock (.delIfEq key (.token t))) :=
    fun _ => ⟨t, List.mem_singleton.mpr rfl, rfl⟩
  have hy := hx.inv.record ho (fun u hu => draws_own (hx.drawn u hu)) hans
  refine ⟨⟨fun _ => hy, ?_⟩, trivial⟩
  show Steps key (Hist.own _ pid)
  rw [Hist.own_record_self]
  refine steps_cons hx.steps fun _ => .inl ?_
  show (if key = key then _ else none : Option (Id × Bool)).isSome = true
  rw [if_pos rfl]
  rfl

/-- The token that `acquire` returned. -/
def acquired : Except Err (Option Id) → List Id
  | .ok (some t) => [t]
  | _ => []

/-- A process asks for the lock. It is refused, or it operates from then on; and the token that it
is given is one that it drew. -/
theorem acquire_wp (hi : LockInv key h) (hown : h.own pid = []) :
    wp ((lockSystem lib env key α).discipline (LockRely key) (fun y => Steps key (y.own pid)) pid)
      (fun r y => r ≠ .ok none → Within key pid (acquired r) y)
      (DistributedLock.acquire env key) h := by
  refine wp_perform_bind.mpr ?_
  rintro x ⟨hR, hx⟩ r y ⟨-, did, w, hans, rfl⟩
  rw [hown] at hx
  obtain ⟨rfl, rfl, rfl⟩ := answer_random hans
  -- The token is new, so that nobody else has it.
  have hrandom : Op.LeavesKey key .random := trivial
  have hdrawn : LockInv key (x.record pid .random _ _ _) :=
    (hR hi).record (hrandom.withToken []) (fun t ht => absurd ht List.not_mem_nil) hans
  obtain ⟨e, hown₁, hdraw, hfree⟩ : ∃ e, (x.record pid .random (.ok x.world.random)
      (.ok x.world.random) { x.world with random := x.world.random + 1 }).own pid = [e] ∧
        drawn? e = some (pid, x.world.random) ∧ release? key e = none := by
    rw [Hist.own_record_self, hx]
    exact ⟨_, rfl, rfl, rfl⟩
  refine ⟨⟨fun _ => hdrawn, ?_⟩, ?_⟩
  · show Steps key (Hist.own _ pid)
    rw [hown₁]
    exact steps_of_length_le (Nat.le_succ 1)
  refine wp_perform_bind.mpr ?_
  rintro x₁ ⟨hR₁, hx₁⟩ r y ⟨-, did, w, hans₁, rfl⟩
  rw [hown₁] at hx₁
  have htoken : (pid, x.world.random) ∈ draws (x₁.own pid) := by
    rw [hx₁, draws_cons_some hdraw]
    exact List.mem_cons_self
  have ho : Op.WithToken key [x.world.random] (.redis .distributedLock
      (.setNx key (.token x.world.random) env.distributedLockTtlMs)) :=
    fun _ => ⟨_, List.mem_singleton.mpr rfl, rfl⟩
  have hy := (hR₁ hdrawn).record ho
    (fun t ht => draws_own (List.mem_singleton.mp ht ▸ htoken)) hans₁
  have hsteps : Steps key ((x₁.record pid _ did r w).own pid) := by
    rw [Hist.own_record_self, hx₁]
    exact steps_of_length_le le_rfl
  refine ⟨⟨fun _ => hy, hsteps⟩, ?_⟩
  -- The caller knows its token, whatever `SET NX` answered.
  have htokens : ∀ t ∈ [x.world.random], (pid, t) ∈ draws ((x₁.record pid _ did r w).own pid) := by
    rw [Hist.own_record_self]
    exact List.forall_mem_singleton.mpr (mem_draws_cons _ htoken)
  have hwithin : r ≠ .ok false → ∀ tokens ⊆ [x.world.random],
      Within key pid tokens (x₁.record pid _ did r w) := by
    intro hr tokens hsub
    refine ⟨hy, fun t ht => htokens t (hsub ht), hsteps, ?_, ?_⟩ <;> rw [Hist.own_record_self, hx₁]
    · exact le_rfl
    · refine ⟨⟨_, List.mem_cons_self, r, if_pos rfl, hr⟩, ?_⟩
      exact List.forall_mem_cons.mpr ⟨rfl, List.forall_mem_singleton.mpr hfree⟩
  -- An answer that was lost may have been a grant; a refusal ends the call.
  rcases r with e | _ | _
  · exact fun _ => hwithin (by rintro ⟨⟩) [] (List.nil_subset _)
  · exact fun hne => absurd rfl hne
  · exact fun _ => hwithin (by rintro ⟨⟩) _ (List.Subset.refl _)

/-- `withLock` keeps the invariant, and runs its operation only while it operates. -/
theorem withLock_wp {operation : Act α} (hop : operation.Issues (Op.LeavesKey key))
    (hi : LockInv key h) (hown : h.own pid = []) :
    wp ((lockSystem lib env key α).discipline (LockRely key) (fun y => Steps key (y.own pid)) pid)
      (fun _ _ => True) (DistributedLock.withLock env key operation) h := by
  refine wp_bind.mpr (wp_attempt.mpr (wp_mono ?_ (acquire_wp hi hown)))
  rintro (e | _ | t) y hy
  · -- Redis failed: the operation runs without the lock.
    exact wp_mono (fun _ _ _ => trivial) (operation_wp hop (hy (by rintro ⟨⟩)))
  · trivial
  · refine wp_bind.mpr (wp_attempt.mpr (wp_mono ?_ (operation_wp hop (hy (by rintro ⟨⟩)))))
    intro outcome z hz
    refine wp_bind.mpr (wp_attempt.mpr (wp_mono ?_ (release_wp hz)))
    rintro - - -
    cases outcome <;> trivial

end

/-! ## Runs -/

/-- What the processes of a run are held to. -/
def lockOutline (lib : Lib) (env : Env) (key : Key) (α : Type) :
    (lockSystem lib env key α).Outline (LockRely key) (Unlocked key) where
  I := LockInv key
  L := LockCall.Inside
  refl _ hi := hi
  trans h₁ h₂ hi := h₂ (h₁ hi)
  init w hw := by
    refine ⟨⟨by simp [draws], by simp [draws]⟩, by simp [holders], by simp [holders], ?_,
      by simp [grants], by simp, by simp⟩
    intro s hs
    rw [hw] at hs
    cases hs
  inv _ _ hi hR := hR hi
  env _ _ _ he := fun hi => hi.later he
  begins pid c h _ hown := by
    cases c with
    | withLock operation hop =>
      show Steps key (h.own pid)
      rw [hown]
      exact steps_of_length_le (Nat.zero_le _)
    | direct program hp => trivial
  steps pid c h h' hL _ hown := by
    cases c with
    | withLock operation hop =>
      show Steps key (h'.own pid)
      rw [hown]
      exact hL
    | direct program hp => trivial
  ends _ _ _ _ _ _ _ _ := trivial
  body pid c h hi _ hown := by
    cases c with
    | withLock operation hop => exact withLock_wp hop hi hown
    | direct program hp => exact locks_wp hp hi fun t ht => absurd ht List.not_mem_nil

/-- A process that operates has been told of an error, or has a lease that it has not released. -/
theorem Operating.lease {key : Key} {h : Hist backend Err World} (hi : LockInv key h) {pid : ℕ}
    (hop : Operating key (h.own pid)) :
    (∃ e ∈ h.own pid, ∃ error, acquire? key e = some (.error error)) ∨
      ∃ g ∈ grants key h.log, g.pid = pid ∧ g ∈ holders key h.log := by
  obtain ⟨⟨e, he, r, hr, hne⟩, hfree⟩ := hop
  obtain ⟨hmem, hpid⟩ := Hist.mem_own.mp he
  rcases r with error | _ | _
  · exact .inl ⟨e, he, error, hr⟩
  · exact absurd rfl hne
  · obtain ⟨g, hg, hgpid⟩ := hi.truthful e hmem hr
    refine .inr ⟨g, hg, hgpid.trans hpid, ?_⟩
    rcases hi.kept g hg with hhold | ⟨e', he', hpid', hrelease⟩
    · exact hhold
    · have hown : e' ∈ h.own pid := Hist.mem_own.mpr ⟨he', hpid'.trans (hgpid.trans hpid)⟩
      rw [hfree e' hown] at hrelease
      cases hrelease

/-- The lock is safe, in every state that any processes side by side reach. At most one process
holds a lease that is not over; a release deletes the key only if the key holds the caller's own
lease, and otherwise changes nothing; two processes operate at once only if one of them outlived its
lease or was told of an error when it asked for the lock; and `withLock` runs its operation only
while it operates. -/
theorem lock_safety {lib : Lib} {env : Env} {key : Key} {α : Type}
    {cfg : (lockSystem lib env key α).Config}
    (h : (lockSystem lib env key α).Reachable (Unlocked key) cfg) :
    (∀ g ∈ holders key cfg.hist.log, ∀ g' ∈ holders key cfg.hist.log,
      cfg.hist.world.now < g.expiresAt → cfg.hist.world.now < g'.expiresAt → g.pid = g'.pid) ∧
    (∀ e log, e :: log <:+ cfg.hist.log → ReleasesOwn key e log) ∧
    (∀ p q, p ≠ q → Operating key (cfg.hist.own p) → Operating key (cfg.hist.own q) →
      ∃ r, (r = p ∨ r = q) ∧
        ((∃ e ∈ cfg.hist.own r, ∃ error, acquire? key e = some (.error error)) ∨
          ∃ g ∈ grants key cfg.hist.log, g.pid = r ∧ g.expiresAt ≤ cfg.hist.world.now)) ∧
    ∀ p operation hop rest, cfg.procs[p]? = some (.withLock operation hop, rest) →
      Steps key (cfg.hist.own p) := by
  have hi := (lockOutline lib env key α).holds h
  have hsingle : ∀ g ∈ holders key cfg.hist.log, ∀ g' ∈ holders key cfg.hist.log,
      cfg.hist.world.now < g.expiresAt → cfg.hist.world.now < g'.expiresAt → g.pid = g'.pid := by
    intro g hg g' hg' hlt hlt'
    -- Two unexpired holders would both have their token under the key.
    have hslot := hi.stored g hg hlt
    rw [hi.stored g' hg' hlt'] at hslot
    have htoken : g'.token = g.token :=
      Stored.token.inj (congrArg Slot.value (Option.some.inj hslot))
    have howner := hi.owner g' hg'
    rw [htoken] at howner
    exact hi.fresh.pid_eq (hi.owner g hg) howner
  refine ⟨hsingle, hi.releases, fun p q hne hp hq => ?_, fun p operation hop rest hproc => ?_⟩
  -- Of two callers that operate, one was not granted the lease or has outlived it.
  · rcases hp.lease hi with hfail | ⟨g, hg, hpid, hhold⟩
    · exact ⟨p, .inl rfl, .inl hfail⟩
    rcases hq.lease hi with hfail | ⟨g', hg', hpid', hhold'⟩
    · exact ⟨q, .inr rfl, .inl hfail⟩
    rcases Nat.lt_or_ge cfg.hist.world.now g.expiresAt with hlt | hover
    · rcases Nat.lt_or_ge cfg.hist.world.now g'.expiresAt with hlt' | hover
      · have heq := hsingle g hhold g' hhold' hlt hlt'
        rw [hpid, hpid'] at heq
        exact absurd heq hne
      · exact ⟨q, .inr rfl, .inr ⟨g', hg', hpid', hover⟩⟩
    · exact ⟨p, .inl rfl, .inr ⟨g, hg, hpid, hover⟩⟩
  · exact (lockOutline lib env key α).started h hproc

instance (lib : Lib) (env : Env) (key : Key) (α : Type) :
    DecidablePred (lockSystem lib env key α).valid :=
  fun _ => isTrue trivial

/-- A process whose operation counts a metric. -/
def countingCall : LockCall (.lockSettlementGroup 10) Unit :=
  .withLock (increment .groupsCreatedTotal) ((Prog.issues_perform _ _).mpr trivial)

/-- A process that outlives its lease, and another one that takes the lock meanwhile. -/
def outlivedLease : List (System.Action (lockSystem .plain {} (.lockSettlementGroup 10) Unit)) :=
  [.spawn countingCall, .op 0 {}, .op 0 {}, .env (World.wait 10000) (World.later_wait 10000),
    .spawn countingCall, .op 1 {}, .op 1 {}, .op 0 {}, .op 0 {}]

/-- A holder that outlives its lease, and the next one. -/
theorem lock_safety_outlived : ∃ cfg,
    (lockSystem .plain {} (.lockSettlementGroup 10) Unit).play outlivedLease
      ((lockSystem .plain {} (.lockSettlementGroup 10) Unit).start {}) = some cfg ∧
    holders (.lockSettlementGroup 10) cfg.hist.log = [⟨1, 1, 20000⟩, ⟨0, 0, 10000⟩] ∧
    ∀ e log, e :: log <:+ cfg.hist.log → ReleasesOwn (.lockSettlementGroup 10) e log := by
  have hrun : ((lockSystem .plain {} (.lockSettlementGroup 10) Unit).play outlivedLease
      ((lockSystem .plain {} (.lockSettlementGroup 10) Unit).start {})).map
        (fun cfg => holders (.lockSettlementGroup 10) cfg.hist.log) =
      some [⟨1, 1, 20000⟩, ⟨0, 0, 10000⟩] := by decide
  obtain ⟨cfg, hplay, hholders⟩ := Option.map_eq_some_iff.mp hrun
  have hstart : Unlocked (.lockSettlementGroup 10) {} := rfl
  have hreach : (lockSystem .plain {} (.lockSettlementGroup 10) Unit).Reachable
      (Unlocked (.lockSettlementGroup 10)) cfg :=
    System.reachable_of_play (fun _ _ _ => trivial) (.start hstart) hplay
  exact ⟨cfg, hplay, hholders, (lock_safety hreach).2.1⟩

end SplitBill
