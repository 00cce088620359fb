import SplitBill.Queues.Delivery
import SplitBill.Queues.PollLoop

/-!
# Stopping a worker

`stop` waits until no job is in flight, and a tick that waits for an answer of `claimNext` has none
in flight yet. In runs in which no such tick gets a job any more, nothing runs when `stop` has
resolved. `running` tells a loop only whether some `start` came last. In runs in which a stopped
runner is started again only when its loop has returned, one loop runs at a time, and none goes on
polling after a `stop`.
-/

namespace SplitBill

open Interleave

variable {sys : RunnerSystem}

/-! ## The count of jobs in flight -/

namespace Loop

/-- The loop's tick has a job in flight. -/
def counts (l : Loop) : Bool :=
  match l.status with
  | .ticking own _ => counting own
  | _ => false

/-- A handler runs in the loop. -/
def handles (l : Loop) : Bool :=
  match l.status with
  | .ticking own _ => handling own
  | _ => false

/-- What is left of a loop's tick keeps to the count, and the loop runs a handler only while the job
is counted. -/
structure Sound (lib : Lib) (i : ℕ) (l : Loop) : Prop where
  keeps : ∀ own rest, l.status = .ticking own rest →
    wp (countsJobs lib i) (fun _ own => Between false own) rest own
  handles : l.handles = true → l.counts = true

/-- Whether a loop has a job in flight depends on its status only. -/
theorem counts_congr {l l' : Loop} (h : l'.status = l.status) : l'.counts = l.counts := by
  unfold counts
  rw [h]

/-- Whether a loop is in a tick depends on its status only. -/
theorem ticks_congr {l l' : Loop} (h : l'.status = l.status) : l'.ticks = l.ticks := by
  unfold ticks
  rw [h]

/-- Whether a loop is active depends on its status only. -/
theorem active_congr {l l' : Loop} (h : l'.status = l.status) : l'.active = l.active := by
  unfold active
  rw [h]

/-- A note changes nothing. -/
theorem Sound.congr {lib : Lib} {i : ℕ} {l l' : Loop} (hl : l.Sound lib i)
    (h : l'.status = l.status) : l'.Sound lib i := by
  constructor
  · intro own rest hs
    exact hl.keeps own rest (h ▸ hs)
  · intro hhandles
    rw [counts_congr h]
    apply hl.handles
    unfold Loop.handles at hhandles ⊢
    rwa [h] at hhandles

end Loop

/-- The runner counts the jobs in flight. -/
structure CountsInFlight (sys : RunnerSystem) (cfg : RunnerConfig) : Prop where
  sound : ∀ (i : ℕ) (l : Loop), cfg.loops[i]? = some l → l.Sound sys.lib i
  inFlight : cfg.state.inFlight = cfg.loops.countP Loop.counts

/-- A new tick has no job in flight. -/
theorem sound_tick (sys : RunnerSystem) (i : ℕ) {l : Loop} (hl : l.status = .ticking [] sys.tick) :
    l.Sound sys.lib i ∧ l.counts = false := by
  refine ⟨⟨?_, ?_⟩, ?_⟩
  · intro own rest hs
    rw [hl] at hs
    obtain ⟨rfl, rfl⟩ := LoopStatus.ticking.inj hs
    exact tick_counts sys.registry.offQueue sys.types ⟨rfl, rfl⟩
  · intro h
    rw [Loop.handles, hl] at h
    cases h
  · rw [Loop.counts, hl]
    rfl

/-- A loop that is in no tick has no job in flight. -/
theorem sound_of_not_ticks {lib : Lib} {i : ℕ} {l : Loop} (hl : l.ticks = false) :
    l.Sound lib i ∧ l.counts = false := by
  rcases l with ⟨_ | _ | _, overtaken, told, defiant⟩
  · cases hl
  all_goals exact ⟨⟨fun own rest hs => (by cases hs), fun h => (by cases h)⟩, rfl⟩

/-- A loop at the end of its tick has no job in flight. -/
theorem Loop.Sound.counts_of_end {lib : Lib} {i : ℕ} {l : Loop} (h : l.Sound lib i)
    {own : List RunnerEntry} {rest : Tick Unit} (hs : l.status = .ticking own rest)
    (hend : rest = .ret () ∨ ∃ e, rest = .throw e) : l.counts = false := by
  have hcounting : counting own = false := by
    rcases hend with rfl | ⟨e, rfl⟩
    · exact (h.keeps own _ hs).counting
    · exact (h.keeps own _ hs).counting
  rw [Loop.counts, hs]
  exact hcounting

/-- What an operation does to the runner's fields. -/
theorem runner_of_answer {lib : Lib} {o : RunnerOp} {s s' : RunnerState}
    {did seen : Except Err (runnerInterface.Res o)}
    (h : (runnerMachine lib).Answer o s did seen s') :
    s'.running = s.running ∧
      s'.inFlight = if raises o then s.inFlight + 1 else if lowers o then s.inFlight - 1
        else s.inFlight := by
  have hexec : ∀ c, (o.exec lib c s).2.running = s.running ∧ (o.exec lib c s).2.inFlight =
      if raises o then s.inFlight + 1 else if lowers o then s.inFlight - 1 else s.inFlight := by
    intro c
    cases o with
    | backend o => exact ⟨rfl, rfl⟩
    | raiseInFlight => exact ⟨rfl, rfl⟩
    | lowerInFlight => exact ⟨rfl, rfl⟩
  cases h with
  | done c => exact hexec c
  | lost e c h => exact hexec c
  | failed e h =>
    cases o with
    | backend o => exact ⟨rfl, rfl⟩
    | raiseInFlight => cases h
    | lowerInFlight => cases h

namespace CountsInFlight

variable {cfg : RunnerConfig}

/-- Notes on the loops change nothing. -/
theorem map (h : CountsInFlight sys cfg) {f : Loop → Loop} (hf : ∀ l, (f l).status = l.status)
    {s : RunnerState} (hs : s.inFlight = cfg.state.inFlight) (stops : List StopCall) :
    CountsInFlight sys ⟨s, cfg.loops.map f, stops⟩ := by
  constructor
  · intro i l hl
    rw [List.getElem?_map] at hl
    obtain ⟨l₀, hl₀, rfl⟩ := Option.map_eq_some_iff.mp hl
    exact (h.sound i l₀ hl₀).congr (hf l₀)
  · show s.inFlight = (cfg.loops.map f).countP Loop.counts
    rw [hs, h.inFlight, List.countP_map]
    congr 1
    funext l
    exact (Loop.counts_congr (hf l)).symm

/-- A `stop` gets no job in flight. -/
theorem requestStop (h : CountsInFlight sys cfg) : CountsInFlight sys cfg.requestStop := by
  refine h.map ?_ ?_ _
  · exact fun _ => rfl
  · rfl

/-- One more loop. -/
theorem concat {s : RunnerState} {loops : List Loop} {stops : List StopCall}
    (h : CountsInFlight sys ⟨s, loops, stops⟩) {l : Loop} (hl : l.status = .ticking [] sys.tick) :
    CountsInFlight sys ⟨s, loops ++ [l], stops⟩ := by
  have hnew := fun i => sound_tick sys i hl
  constructor
  · intro i l' hi
    rcases old_or_added hi with hi | ⟨-, rfl⟩
    · exact h.sound i l' hi
    · exact (hnew _).1
  · show s.inFlight = (loops ++ [l]).countP Loop.counts
    rw [List.countP_append, List.countP_singleton, (hnew 0).2]
    exact h.inFlight

/-- One loop is at another place. -/
theorem set (h : CountsInFlight sys cfg) {i : ℕ} {l l' : Loop} (hl : cfg.loops[i]? = some l)
    (hl' : l'.Sound sys.lib i) {s : RunnerState}
    (hs : s.inFlight + l.counts.toNat = cfg.state.inFlight + l'.counts.toNat)
    (stops : List StopCall) : CountsInFlight sys ⟨s, cfg.loops.set i l', stops⟩ := by
  obtain ⟨hlt, hget⟩ := List.getElem?_eq_some_iff.mp hl
  constructor
  -- The loops other than `i` are as they were.
  · intro j m hm
    by_cases hij : i = j
    · subst hij
      rw [List.getElem?_set_self hlt] at hm
      obtain rfl := Option.some.inj hm
      exact hl'
    · rw [List.getElem?_set_ne hij] at hm
      exact h.sound j m hm
  -- The counter moves with the one loop that changed.
  · show s.inFlight = (cfg.loops.set i l').countP Loop.counts
    rw [List.countP_set hlt, hget]
    have hcount := h.inFlight
    have hpos : l.counts = true → 0 < cfg.loops.countP Loop.counts := by
      intro hcounts
      exact List.countP_pos_iff.mpr ⟨l, List.mem_of_getElem? hl, hcounts⟩
    cases hc : l.counts <;> cases hc' : l'.counts <;>
      simp only [hc, hc', Bool.toNat_true, Bool.toNat_false, Bool.false_eq_true, if_true, if_false,
        forall_const] at hs hpos ⊢ <;> omega

/-- A loop of no tick any more. -/
theorem leave (h : CountsInFlight sys cfg) {i : ℕ} {l l' : Loop} (hl : cfg.loops[i]? = some l)
    (hcounts : l.counts = false) (hl' : l'.Sound sys.lib i ∧ l'.counts = false) {s : RunnerState}
    (hs : s.inFlight = cfg.state.inFlight) (stops : List StopCall) :
    CountsInFlight sys ⟨s, cfg.loops.set i l', stops⟩ := by
  apply h.set hl hl'.1
  rw [hcounts, hl'.2, hs]

/-- One operation of a tick. -/
theorem op (h : CountsInFlight sys cfg) {i : ℕ} {l : Loop} (hl : cfg.loops[i]? = some l)
    {own : List RunnerEntry} {o : RunnerOp} {k : Except Err o.Res → Tick Unit}
    (hs : l.status = .ticking own (.call o k)) {did seen : Except Err (runnerInterface.Res o)}
    {s : RunnerState} (hans : (runnerMachine sys.lib).Answer o cfg.state did seen s) :
    CountsInFlight sys (cfg.answered i l own o did seen s (k seen)) := by
  have hsound := h.sound i l hl
  obtain ⟨hguar, hrest⟩ := hsound.keeps own _ hs own rfl seen _ ⟨_, did, s, hans, rfl⟩
  have hrule : CountsJobs own o := hguar _ rfl
  have hcounts : l.counts = counting own := by
    rw [Loop.counts, hs]
  have hhandles : handling own = true → counting own = true := by
    intro hhandling
    rw [← hcounts]
    apply hsound.handles
    rw [Loop.handles, hs]
    exact hhandling
  have hflight := (runner_of_answer hans).2
  apply h.set hl
  · constructor
    · intro own' rest hs'
      obtain ⟨rfl, rfl⟩ := LoopStatus.ticking.inj hs'
      exact hrest
    · intro hnew
      show counting (⟨i, o, cfg.state, did, seen, s⟩ :: own) = true
      have hnew' : handling (⟨i, o, cfg.state, did, seen, s⟩ :: own) = true := hnew
      cases o with
      | raiseInFlight => rfl
      | lowerInFlight =>
        -- No handler runs when the count is lowered.
        have hold : handling own = true := hnew'
        rw [(hrule.lowers rfl).2] at hold
        cases hold
      | backend o =>
        rw [counting_cons_of_backend rfl]
        by_cases hstarts : startsHandler (.backend o) = true
        · exact hrule.starts hstarts
        · apply hhandles
          simp only [handling, within, hstarts, Bool.false_eq_true, if_false] at hnew'
          split at hnew'
          · cases hnew'
          · exact hnew'
  · show s.inFlight + l.counts.toNat = cfg.state.inFlight +
      (counting (⟨i, o, cfg.state, did, seen, s⟩ :: own)).toNat
    rw [hcounts, hflight]
    cases o with
    | backend o =>
      rw [counting_cons_of_backend rfl]
      rfl
    | raiseInFlight =>
      rw [hrule.raises rfl]
      rfl
    | lowerInFlight =>
      have hcounting := (hrule.lowers rfl).1
      have hpos : 0 < cfg.state.inFlight := by
        rw [h.inFlight]
        apply List.countP_pos_iff.mpr
        exact ⟨l, List.mem_of_getElem? hl, hcounts.trans hcounting⟩
      rw [hcounting]
      show cfg.state.inFlight - 1 + 1 = cfg.state.inFlight + 0
      omega

/-- The check of a `stop`. -/
theorem check (h : CountsInFlight sys cfg) (k : ℕ) : CountsInFlight sys (cfg.check k) := by
  unfold RunnerConfig.check
  split
  · exact h
  · split
    · refine h.map ?_ rfl _
      exact fun _ => rfl
    · exact h

/-- A `start` adds a loop, which has no job in flight yet. -/
theorem start (h : CountsInFlight sys cfg) : CountsInFlight sys (cfg.start sys.tick) := by
  unfold RunnerConfig.start
  split
  · exact h
  · refine concat (h.map ?_ ?_ _) ?_
    · exact fun _ => rfl
    · rfl
    · rfl

/-- A loop that wakes up begins a tick or returns, and has no job in flight either way. -/
theorem wake (h : CountsInFlight sys cfg) {i : ℕ} {l : Loop} (hl : cfg.loops[i]? = some l)
    (hasleep : l.status = .asleep) : CountsInFlight sys (cfg.wake sys.tick i l) := by
  have hcounts : l.counts = false := by
    rw [Loop.counts, hasleep]
  unfold RunnerConfig.wake
  split
  · refine h.leave hl hcounts (sound_tick sys i ?_) rfl _
    rfl
  · refine h.leave hl hcounts (sound_of_not_ticks ?_) rfl _
    rfl

/-- Every step of a runner keeps the count. -/
theorem step (h : CountsInFlight sys cfg) {cfg' : RunnerConfig} (hs : sys.Step cfg cfg') :
    CountsInFlight sys cfg' := by
  cases hs with
  | start hmay => exact h.start
  | stop => exact h.requestStop.check _
  | check k => exact h.check k
  | wake i l hl hasleep => exact h.wake hl hasleep
  | rest i l hl own hticks =>
    have hcounts := (h.sound i l hl).counts_of_end hticks (.inl rfl)
    refine h.leave hl hcounts (sound_of_not_ticks ?_) rfl _
    rfl
  | fail i l hl own e hticks =>
    have hcounts := (h.sound i l hl).counts_of_end hticks (.inr ⟨e, rfl⟩)
    refine h.leave hl hcounts (sound_of_not_ticks ?_) ?_ _
    · rfl
    · rfl
  | op i l hl own o k hticks hmay did seen s hans => exact h.op hl hticks hans
  | env w => exact ⟨h.sound, h.inFlight⟩

end CountsInFlight

/-- A runner counts the jobs in flight in every run. -/
theorem countsInFlight {cfg : RunnerConfig} (h : sys.Reachable cfg) : CountsInFlight sys cfg := by
  apply h.invariant
  · intro w
    refine ⟨fun i l hl => ?_, rfl⟩
    cases hl
  · exact fun cfg cfg' hcfg hs => hcfg.step hs

/-! ## A graceful stop -/

/-- When a `stop` has resolved, and no `start` has been called since the `stop`, no handler runs. -/
def GracefulStop (cfg : RunnerConfig) : Prop :=
  ∀ s ∈ cfg.stops, s.resolved = true → s.restarted = false → ∀ l ∈ cfg.loops, l.handles = false

/-- A tick that a `stop` has not waited for gets no job any more. -/
def NoLateClaim (l : Loop) (o : RunnerOp) : Prop := raises o = true → l.overtaken = false

instance (l : Loop) (o : RunnerOp) : Decidable (NoLateClaim l o) :=
  inferInstanceAs (Decidable (_ → _))

/-- The runner, in runs in which no tick gets a job after a `stop` that has not waited for it. -/
def RunnerSystem.patient (sys : RunnerSystem) : RunnerSystem :=
  { sys with mayPerform := NoLateClaim }

/-- What holds after a `stop`. -/
structure Stopped (cfg : RunnerConfig) : Prop where
  /-- The loops are told to end, as long as no `start` is called. -/
  running : ∀ s ∈ cfg.stops, s.restarted = false → cfg.state.running = false
  /-- Nothing is in flight when the `stop` has resolved, and the tick of a loop was not waited
  for. -/
  quiet : ∀ s ∈ cfg.stops, s.resolved = true → s.restarted = false → ∀ l ∈ cfg.loops,
    l.counts = false ∧ (l.ticks = true → l.overtaken = true)

namespace Stopped

variable {cfg : RunnerConfig}

/-- The check of a `stop`. -/
theorem check (h : Stopped cfg) (hcount : CountsInFlight sys cfg) (k : ℕ) :
    Stopped (cfg.check k) := by
  unfold RunnerConfig.check
  split
  · exact h
  · next s hs =>
    split
    · next hzero =>
      have hmem : s ∈ cfg.stops := List.mem_of_getElem? hs
      constructor
      · intro t ht hrestarted
        rcases List.mem_or_eq_of_mem_set ht with ht | rfl
        · exact h.running t ht hrestarted
        · exact h.running s hmem hrestarted
      · rintro t - - - l hl
        obtain ⟨l₀, hl₀, rfl⟩ := List.mem_map.mp hl
        refine ⟨?_, fun hticks => ?_⟩
        · -- The count is the number of loops with a job in flight.
          rw [hcount.inFlight, List.countP_eq_zero] at hzero
          exact Bool.not_eq_true _ ▸ hzero.1 l₀ hl₀
        · show (l₀.overtaken || l₀.ticks) = true
          rw [← @Loop.ticks_congr l₀ l₀.overtake rfl, hticks, Bool.or_true]
    · exact h

/-- One loop is at another place, and the fields are as they were. -/
theorem set (h : Stopped cfg) {i : ℕ} {l' : Loop} {s : RunnerState}
    (hrunning : s.running = true → cfg.state.running = true)
    (hl' : ∀ t ∈ cfg.stops, t.resolved = true → t.restarted = false →
      l'.counts = false ∧ (l'.ticks = true → l'.overtaken = true)) :
    Stopped ⟨s, cfg.loops.set i l', cfg.stops⟩ := by
  constructor
  · intro t ht hrestarted
    by_contra hr
    have hold := h.running t ht hrestarted
    rw [hrunning (Bool.not_eq_false _ ▸ hr)] at hold
    cases hold
  · intro t ht hresolved hrestarted m hm
    rcases List.mem_or_eq_of_mem_set hm with hm | rfl
    · exact h.quiet t ht hresolved hrestarted m hm
    · exact hl' t ht hresolved hrestarted

/-- A `start` comes after every `stop` so far. -/
theorem start (h : Stopped cfg) (tick : Tick Unit) : Stopped (cfg.start tick) := by
  unfold RunnerConfig.start
  split
  · exact h
  · constructor
    · intro t ht hrestarted
      obtain ⟨t₀, -, rfl⟩ := List.mem_map.mp ht
      cases hrestarted
    · intro t ht _ hrestarted
      obtain ⟨t₀, -, rfl⟩ := List.mem_map.mp ht
      cases hrestarted

/-- A new `stop` has not resolved before its first check. -/
theorem requestStop (h : Stopped cfg) : Stopped cfg.requestStop := by
  constructor
  · exact fun _ _ _ => rfl
  intro t ht hresolved hrestarted l hl
  obtain ⟨l₀, hl₀, rfl⟩ := List.mem_map.mp hl
  rcases List.mem_append.mp ht with ht | ht
  · exact h.quiet t ht hresolved hrestarted l₀ hl₀
  · obtain rfl := List.mem_singleton.mp ht
    cases hresolved

/-- A loop that wakes up after a `stop` returns. -/
theorem wake (h : Stopped cfg) (tick : Tick Unit) (i : ℕ) (l : Loop) :
    Stopped (cfg.wake tick i l) := by
  unfold RunnerConfig.wake
  split
  · next hrunning =>
    refine h.set (fun _ => hrunning) fun t ht _ hrestarted => ?_
    rw [h.running t ht hrestarted] at hrunning
    cases hrunning
  · refine h.set id fun _ _ _ _ => ⟨rfl, fun hticks => ?_⟩
    cases hticks

/-- An operation of a tick that a `stop` has not waited for gets no job. -/
theorem op (h : Stopped cfg) {i : ℕ} {l : Loop} (hl : cfg.loops[i]? = some l)
    {own : List RunnerEntry} {o : RunnerOp} {k : Except Err o.Res → Tick Unit}
    (hticks : l.status = .ticking own (.call o k)) (hmay : NoLateClaim l o)
    {did seen : Except Err (runnerInterface.Res o)} {s : RunnerState}
    (hans : (runnerMachine sys.lib).Answer o cfg.state did seen s) :
    Stopped (cfg.answered i l own o did seen s (k seen)) := by
  refine h.set (fun hrunning => ?_) fun t ht hresolved hrestarted => ?_
  · rw [← (runner_of_answer hans).1]
    exact hrunning
  -- A loop that was overtaken by the stop has no claim left to make.
  obtain ⟨hcounts, hovertaken⟩ := h.quiet t ht hresolved hrestarted l (List.mem_of_getElem? hl)
  have hlate : l.overtaken = true := by
    apply hovertaken
    rw [Loop.ticks, hticks]
  have hcounting : counting own = false := by
    rw [Loop.counts, hticks] at hcounts
    exact hcounts
  refine ⟨?_, fun _ => hlate⟩
  show counting (⟨i, o, cfg.state, did, seen, s⟩ :: own) = false
  cases o with
  | backend o =>
    rw [counting_cons_of_backend rfl]
    exact hcounting
  | raiseInFlight =>
    have hnot : l.overtaken = false := hmay rfl
    rw [hlate] at hnot
    cases hnot
  | lowerInFlight => rfl

/-- Every step keeps what holds after a `stop`. -/
theorem step (h : Stopped cfg) (hcount : CountsInFlight sys.patient cfg) {cfg' : RunnerConfig}
    (hs : sys.patient.Step cfg cfg') : Stopped cfg' := by
  cases hs with
  | start hmay => exact h.start _
  | stop => exact h.requestStop.check hcount.requestStop _
  | check k => exact h.check hcount k
  | wake i l hl hasleep => exact h.wake _ i l
  | rest i l hl own hticks =>
    refine h.set id fun _ _ _ _ => ⟨rfl, fun hticks => ?_⟩
    cases hticks
  | fail i l hl own e hticks =>
    refine h.set (fun hrunning => ?_) fun _ _ _ _ => ⟨rfl, fun hticks => ?_⟩
    · cases hrunning
    · cases hticks
  | op i l hl own o k hticks hmay did seen s hans => exact h.op hl hticks hmay hans
  | env w => exact ⟨h.running, h.quiet⟩

end Stopped

/-- In runs in which no tick gets a job after a `stop` that has not waited for it, no handler runs
when a `stop` has resolved, until the next `start`. -/
theorem graceful_stop {cfg : RunnerConfig} (h : sys.patient.Reachable cfg) : GracefulStop cfg := by
  have hstopped : Stopped cfg ∧ CountsInFlight sys.patient cfg := by
    refine h.invariant (I := fun cfg => Stopped cfg ∧ CountsInFlight sys.patient cfg) ?_ ?_
    · intro w
      exact ⟨⟨fun s hs => (List.not_mem_nil hs).elim, fun s hs => (List.not_mem_nil hs).elim⟩,
        countsInFlight (.init w)⟩
    · rintro cfg cfg' ⟨hstopped, hcount⟩ hs
      exact ⟨hstopped.step hcount hs, hcount.step hs⟩
  obtain ⟨hstopped, hcount⟩ := hstopped
  intro s hs hresolved hrestarted l hl
  obtain ⟨i, hi⟩ := List.mem_iff_getElem?.mp hl
  have hcounts := (hstopped.quiet s hs hresolved hrestarted l hl).1
  by_contra hhandles
  rw [Bool.not_eq_false] at hhandles
  rw [(hcount.sound i l hi).handles hhandles] at hcounts
  cases hcounts

/-- A worker with the handlers of the backend. -/
def plainRunner : RunnerSystem where
  lib := .plain
  env := {}
  registry := plainRegistry
  types := [.groupSummaryRecompute]

instance : DecidablePred plainRunner.mayStart := fun _ => isTrue trivial

instance (l : Loop) (o : RunnerOp) : Decidable (plainRunner.mayPerform l o) := isTrue trivial

instance : DecidablePred plainRunner.patient.mayStart := fun _ => isTrue trivial

instance (l : Loop) (o : RunnerOp) : Decidable (plainRunner.patient.mayPerform l o) :=
  inferInstanceAs (Decidable (NoLateClaim l o))

instance (cfg : RunnerConfig) : Decidable (GracefulStop cfg) :=
  inferInstanceAs (Decidable (∀ s ∈ cfg.stops, _))

/-- A new runner, and one job in the queue. -/
def oneJob : RunnerConfig where
  state := { world := ((machine .plain).run {} (recomputeJob.body {} plainRegistry) {}).2 }

/-- The next `n` operations of a loop. -/
def RunnerSystem.turns (i n : ℕ) : List RunnerSystem.Action := List.replicate n (.op i {})

/-- A runner that is stopped after `n` operations of its first tick, which performs `m` more. -/
def stopAfter (n m : ℕ) : List RunnerSystem.Action := List.flatten
  [[.start], RunnerSystem.turns 0 n, [.stop], RunnerSystem.turns 0 m, [.check 0]]

/-- The runner is stopped while a handler runs, and waits for it. -/
theorem graceful_stop_in_handler : ∃ cfg,
    plainRunner.patient.play (stopAfter 8 6) oneJob = some cfg ∧
    cfg.stops = [⟨true, false⟩] ∧ GracefulStop cfg := by
  obtain ⟨cfg, hplay, hstops⟩ : ∃ cfg,
      plainRunner.patient.play (stopAfter 8 6) oneJob = some cfg ∧ cfg.stops = [⟨true, false⟩] :=
    System.exists_of_play (by decide +kernel)
  exact ⟨cfg, hplay, hstops, graceful_stop (RunnerSystem.reachable_of_play (.init _) hplay)⟩

/-- A claim is on its way when the runner is stopped, and the handler starts when the `stop` has
resolved. -/
theorem graceful_stop_fails :
    ¬∀ cfg : RunnerConfig, plainRunner.Reachable cfg → GracefulStop cfg := by
  intro hgraceful
  obtain ⟨cfg, hplay, hstop⟩ : ∃ cfg,
      plainRunner.play (stopAfter 4 3) oneJob = some cfg ∧ ¬GracefulStop cfg :=
    System.exists_of_play (by decide +kernel)
  exact hstop (hgraceful cfg (RunnerSystem.reachable_of_play (.init _) hplay))

/-! ## One loop at a time -/

/-- At most one loop has not returned, and no loop has begun a tick after a `stop`. -/
def SingleLoop (cfg : RunnerConfig) : Prop :=
  cfg.loops.countP Loop.active ≤ 1 ∧ ∀ l ∈ cfg.loops, l.defiant = false

instance (cfg : RunnerConfig) : Decidable (SingleLoop cfg) := inferInstanceAs (Decidable (_ ∧ _))

/-- A stopped runner is started only when its loops have returned. -/
def LoopsReturned (cfg : RunnerConfig) : Prop :=
  cfg.state.running = false → ∀ l ∈ cfg.loops, l.active = false

instance (cfg : RunnerConfig) : Decidable (LoopsReturned cfg) :=
  inferInstanceAs (Decidable (_ → _))

/-- The runner, in runs in which it is started again only when its loops have returned. -/
def RunnerSystem.unhurried (sys : RunnerSystem) : RunnerSystem :=
  { sys with mayStart := LoopsReturned }

/-- One loop, which ends when it has been told to. -/
structure OneLoop (cfg : RunnerConfig) : Prop where
  single : SingleLoop cfg
  told : ∀ l ∈ cfg.loops, l.active = true → l.told = true → cfg.state.running = false

namespace OneLoop

variable {cfg : RunnerConfig}

/-- Notes that do not concern it change nothing. -/
theorem map (h : OneLoop cfg) {f : Loop → Loop} (hstatus : ∀ l, (f l).status = l.status)
    (hdefiant : ∀ l, (f l).defiant = l.defiant) {s : RunnerState}
    (htold : ∀ l ∈ cfg.loops, (f l).active = true → (f l).told = true → s.running = false)
    (stops : List StopCall) : OneLoop ⟨s, cfg.loops.map f, stops⟩ := by
  refine ⟨⟨?_, ?_⟩, ?_⟩
  · show (cfg.loops.map f).countP Loop.active ≤ 1
    have hactive : Loop.active ∘ f = Loop.active := by
      funext l
      exact Loop.active_congr (hstatus l)
    rw [List.countP_map, hactive]
    exact h.single.1
  · intro l hl
    obtain ⟨l₀, hl₀, rfl⟩ := List.mem_map.mp hl
    rw [hdefiant]
    exact h.single.2 l₀ hl₀
  · intro l hl hactive hl'
    obtain ⟨l₀, hl₀, rfl⟩ := List.mem_map.mp hl
    exact htold l₀ hl₀ hactive hl'

/-- An active loop is at another place. -/
theorem set (h : OneLoop cfg) {i : ℕ} {l l' : Loop} (hl : cfg.loops[i]? = some l)
    (hactive : l.active = true) (hdefiant : l'.defiant = false) (htold : l'.told = l.told)
    {s : RunnerState} (hs : s.running = true → cfg.state.running = true) (stops : List StopCall) :
    OneLoop ⟨s, cfg.loops.set i l', stops⟩ := by
  obtain ⟨hlt, hget⟩ := List.getElem?_eq_some_iff.mp hl
  have hrunning : cfg.state.running = false → s.running = false := by
    intro hr
    by_contra hnot
    rw [hs (Bool.not_eq_false _ ▸ hnot)] at hr
    cases hr
  refine ⟨⟨?_, ?_⟩, ?_⟩
  -- The loop that changed was the one active loop.
  · show (cfg.loops.set i l').countP Loop.active ≤ 1
    have hpos : 0 < cfg.loops.countP Loop.active :=
      List.countP_pos_iff.mpr ⟨l, List.mem_of_getElem? hl, hactive⟩
    have hone := h.single.1
    rw [List.countP_set hlt, hget, hactive]
    cases l'.active <;> simp only [if_true, Bool.false_eq_true, if_false] <;> omega
  · intro m hm
    rcases List.mem_or_eq_of_mem_set hm with hm | rfl
    · exact h.single.2 m hm
    · exact hdefiant
  · intro m hm hm' htold'
    apply hrunning
    rcases List.mem_or_eq_of_mem_set hm with hm | rfl
    · exact h.told m hm hm' htold'
    · exact h.told l (List.mem_of_getElem? hl) hactive (htold ▸ htold')

/-- The check of a `stop` starts no loop. -/
theorem check (h : OneLoop cfg) (k : ℕ) : OneLoop (cfg.check k) := by
  unfold RunnerConfig.check
  split
  · exact h
  · split
    · refine h.map ?_ ?_ ?_ _
      · exact fun _ => rfl
      · exact fun _ => rfl
      · exact h.told
    · exact h

/-- A `stop` starts no loop. -/
theorem requestStop (h : OneLoop cfg) : OneLoop cfg.requestStop := by
  refine h.map ?_ ?_ ?_ _
  · exact fun _ => rfl
  · exact fun _ => rfl
  · exact fun _ _ _ _ => rfl

/-- All earlier loops have returned, so that the new one is the only one. -/
theorem start (h : OneLoop cfg) (hmay : LoopsReturned cfg) (tick : Tick Unit) :
    OneLoop (cfg.start tick) := by
  unfold RunnerConfig.start
  split
  · exact h
  next hrunning =>
  -- `start` may be called again only when the earlier loops have returned.
  have hreturned : ∀ l ∈ cfg.loops.map fun l => { l with overtaken := false },
      l.active = false := by
    intro l hl
    obtain ⟨l₀, hl₀, rfl⟩ := List.mem_map.mp hl
    exact hmay (Bool.not_eq_true _ ▸ hrunning) l₀ hl₀
  have hnone : (cfg.loops.map fun l => { l with overtaken := false }).countP Loop.active = 0 := by
    apply List.countP_eq_zero.mpr
    intro l hl
    rw [hreturned l hl]
    exact Bool.false_ne_true
  refine ⟨⟨?_, ?_⟩, ?_⟩
  · rw [List.countP_append, hnone, List.countP_singleton]
    split <;> omega
  · intro l hl
    rcases List.mem_append.mp hl with hl | hl
    · obtain ⟨l₀, hl₀, rfl⟩ := List.mem_map.mp hl
      exact h.single.2 l₀ hl₀
    · obtain rfl := List.mem_singleton.mp hl
      rfl
  · intro l hl hactive htold
    rcases List.mem_append.mp hl with hl | hl
    · rw [hreturned l hl] at hactive
      cases hactive
    · obtain rfl := List.mem_singleton.mp hl
      cases htold

/-- A loop that has been told to end finds, when it wakes up, that it is to end. -/
theorem wake (h : OneLoop cfg) {i : ℕ} {l : Loop} (hl : cfg.loops[i]? = some l)
    (hasleep : l.status = .asleep) (tick : Tick Unit) : OneLoop (cfg.wake tick i l) := by
  have hactive : l.active = true := by
    rw [Loop.active, hasleep]
  have hmem := List.mem_of_getElem? hl
  unfold RunnerConfig.wake
  split
  · next hrunning =>
    have hdefiant : (l.defiant || l.told) = false := by
      rw [h.single.2 l hmem, Bool.false_or]
      by_contra htold
      rw [h.told l hmem hactive (Bool.not_eq_false _ ▸ htold)] at hrunning
      cases hrunning
    refine h.set hl hactive hdefiant ?_ id _
    rfl
  · refine h.set hl hactive ?_ ?_ id _
    · exact h.single.2 l hmem
    · rfl

/-- Every step keeps to one loop. -/
theorem step (h : OneLoop cfg) {cfg' : RunnerConfig} (hs : sys.unhurried.Step cfg cfg') :
    OneLoop cfg' := by
  cases hs with
  | start hmay => exact h.start hmay _
  | stop => exact h.requestStop.check _
  | check k => exact h.check k
  | wake i l hl hasleep => exact h.wake hl hasleep _
  -- A loop in a tick is active, and stays so unless its tick is over.
  | rest i l hl own hticks =>
    have hactive : l.active = true := by
      rw [Loop.active, hticks]
    refine h.set hl hactive ?_ ?_ id _
    · exact h.single.2 l (List.mem_of_getElem? hl)
    · rfl
  | fail i l hl own e hticks =>
    have hactive : l.active = true := by
      rw [Loop.active, hticks]
    refine h.set hl hactive ?_ ?_ ?_ _
    · exact h.single.2 l (List.mem_of_getElem? hl)
    · rfl
    intro hrunning
    cases hrunning
  | op i l hl own o k hticks hmay did seen s hans =>
    have hactive : l.active = true := by
      rw [Loop.active, hticks]
    refine h.set hl hactive ?_ ?_ ?_ _
    · exact h.single.2 l (List.mem_of_getElem? hl)
    · rfl
    intro hrunning
    rw [← (runner_of_answer hans).1]
    exact hrunning
  | env w => exact ⟨h.single, h.told⟩

end OneLoop

/-- In runs in which a stopped runner is started again only when its loop has returned, at most one
loop is active, and none has begun a tick after a `stop`. -/
theorem single_loop {cfg : RunnerConfig} (h : sys.unhurried.Reachable cfg) : SingleLoop cfg := by
  have hone : OneLoop cfg := by
    refine h.invariant ?_ fun cfg cfg' hcfg hs => hcfg.step hs
    intro w
    exact ⟨⟨Nat.zero_le 1, fun l hl => (List.not_mem_nil hl).elim⟩,
      fun l hl => (List.not_mem_nil hl).elim⟩
  exact hone.single

instance : DecidablePred plainRunner.unhurried.mayStart :=
  inferInstanceAs (DecidablePred LoopsReturned)

instance (l : Loop) (o : RunnerOp) : Decidable (plainRunner.unhurried.mayPerform l o) :=
  isTrue trivial

/-- A new runner, and no job in the queue. -/
def noJob : RunnerConfig where
  state := { world := {} }

/-- A runner that is stopped in its sleep, and started again after `between`. -/
def restartAfter (between : List RunnerSystem.Action) : List RunnerSystem.Action := List.flatten
  [[.start], RunnerSystem.turns 0 2, [.rest 0, .stop], between, [.start]]

/-- The runner is started again when its loop has woken up and returned. -/
theorem single_loop_restarted : ∃ cfg,
    plainRunner.unhurried.play (restartAfter [.wake 0]) noJob = some cfg ∧
    cfg.loops.map (·.active) = [false, true] ∧ SingleLoop cfg := by
  obtain ⟨cfg, hplay, hactive⟩ : ∃ cfg,
      plainRunner.unhurried.play (restartAfter [.wake 0]) noJob = some cfg ∧
      cfg.loops.map (·.active) = [false, true] :=
    System.exists_of_play (by decide +kernel)
  exact ⟨cfg, hplay, hactive, single_loop (RunnerSystem.reachable_of_play (.init _) hplay)⟩

/-- The runner is started again while its loop sleeps, and the loop goes on. -/
theorem single_loop_fails :
    (¬∀ cfg : RunnerConfig, plainRunner.Reachable cfg → cfg.loops.countP Loop.active ≤ 1) ∧
    ¬∀ cfg : RunnerConfig, plainRunner.Reachable cfg → ∀ l ∈ cfg.loops, l.defiant = false := by
  obtain ⟨cfg, hplay, hactive, hdefiant⟩ : ∃ cfg,
      plainRunner.play (restartAfter [] ++ [.wake 0]) noJob = some cfg ∧
      ¬cfg.loops.countP Loop.active ≤ 1 ∧ ¬∀ l ∈ cfg.loops, l.defiant = false :=
    System.exists_of_play (by decide +kernel)
  have hreach : plainRunner.Reachable cfg := RunnerSystem.reachable_of_play (.init _) hplay
  exact ⟨fun hsingle => hactive (hsingle cfg hreach), fun hnone => hdefiant (hnone cfg hreach)⟩

end SplitBill
