import SplitBill.RateLimit.Store

/-!
# Taking a hit back

`RedisRateLimitStore.decrement` of `src/redis/rateLimitStore.ts`, which is a bare `DECR`, among the
other calls of the store.

A hit opens a window when none is open, and the window is over when the time `W` has passed since
that hit or with a reset. `DECR` neither hits nor resets. What goes wrong with it is a matter of two
steps: a `DECR` that finds no positive counter, and a hit that finds a counter at zero, which the
script takes for the first one of a window.
-/

namespace SplitBill.RateLimit.Decrement

open Interleave FixedWindow

/-- Any calls of the store. -/
def system (W : ℕ) : System interface String (Option IncrementResponse) World :=
  { RateLimit.system W with valid := fun c => c.store.windowMs = W }

/-- Nothing happens for `ms` milliseconds. -/
def waits {W : ℕ} (ms : ℕ) : System.Action (system W) := .env (World.wait ms) (env_wait W ms)

/-! ## What goes wrong -/

/-- What the key may hold once a log has been performed: a counter that is not negative and
that does not outlive the running window, which ends when the time `W` has passed since the
window's first hit. -/
def KeepsWindow (W : ℕ) (key : String) (w : World) (log : List LogEntry) : Prop :=
  ∀ s, w.redis.slot? w.now key = some s → 0 ≤ s.value ∧
    ∃ expiry ∈ s.expiresAt, ∃ first ∈ (window W (events key log)).getLast?,
      expiry ≤ first.time + W

/-- An entry does not create the key with `DECR`. -/
def CreatesNone (key : String) (e : LogEntry) : Prop :=
  e.op = .decr key → e.pre.redis.slot? e.pre.now key = none →
    e.post.redis.slot? e.post.now key = none

/-- `DECR` finds a positive counter. A hit that finds the counter at zero comes in the instant of
the window's first hit, so that all of the window is left. -/
def InTime (W : ℕ) (key : String) : LogEntry → Prop
  | ⟨_, .evalIncrement k _, pre, .ok _, _, _⟩ =>
    k = key → ∀ s ∈ pre.redis.slot? pre.now key, s.value = 0 → s.expiresAt = some (pre.now + W)
  | ⟨_, .decr k, pre, .ok _, _, _⟩ => k = key → ∃ s ∈ pre.redis.slot? pre.now key, 0 < s.value
  | _ => True

instance (W : ℕ) (key : String) : DecidablePred (InTime W key)
  | ⟨_, .evalIncrement k _, pre, .ok _, _, _⟩ =>
    inferInstanceAs (Decidable (k = key → ∀ s ∈ pre.redis.slot? pre.now key, s.value = 0 →
      s.expiresAt = some (pre.now + W)))
  | ⟨_, .decr k, pre, .ok _, _, _⟩ =>
    inferInstanceAs (Decidable (k = key → ∃ s ∈ pre.redis.slot? pre.now key, 0 < s.value))
  | ⟨_, .evalIncrement _ _, _, .error _, _, _⟩ | ⟨_, .decr _, _, .error _, _, _⟩
  | ⟨_, .del _, _, _, _, _⟩ | ⟨_, .now, _, _, _, _⟩ => .isTrue trivial

/-- No step of a log did what `DECR` must not do. -/
def Undoes (W : ℕ) (key : String) (log : List LogEntry) : Prop :=
  ∀ e l, e :: l <:+ log → CreatesNone key e ∧ KeepsWindow W key e.post (e :: l)

/-! ## One step -/

/-- The key holds a counter that is not negative until the running window is over, and the first hit
of the window is past. -/
structure Tracks (W : ℕ) (key : String) (w : World) (log : List LogEntry) : Prop where
  slot : ∃ n : ℤ, 0 ≤ n ∧ w.redis.strings key =
    (window W (events key log)).getLast?.map fun first => ⟨n, some (first.time + W)⟩
  past : ∀ first ∈ (window W (events key log)).getLast?, first.time ≤ w.now

section

variable {W : ℕ} {key : String} {w w' : World} {e : LogEntry} {log : List LogEntry}

/-- What a command finds. -/
theorem Tracks.finds (ht : Tracks W key w log) :
    (w.redis.slot? w.now key = none ∧ ¬Open W w.now (window W (events key log))) ∨
      ∃ n first, 0 ≤ n ∧ first ∈ (window W (events key log)).getLast? ∧
        w.now < first.time + W ∧ w.redis.slot? w.now key = some ⟨n, some (first.time + W)⟩ := by
  obtain ⟨n, hn, hslot⟩ := ht.slot
  unfold Redis.slot?
  rw [hslot]
  cases hfirst : (window W (events key log)).getLast? with
  | none => exact .inl ⟨rfl, by simp [Open, hfirst]⟩
  | some first =>
    by_cases hlt : w.now < first.time + W
    · exact .inr ⟨n, first, hn, rfl, hlt, by simp [Slot.live, hlt]⟩
    · exact .inl ⟨by simp [Slot.live, hlt], by simpa [Open, hfirst] using hlt⟩

/-- While the key holds what it should, it does what is wanted of it. -/
theorem Tracks.keepsWindow (ht : Tracks W key w log) : KeepsWindow W key w log := by
  intro s hs
  rcases ht.finds with ⟨hnone, -⟩ | ⟨n, first, hn, hfirst, -, hsome⟩
  · rw [hnone] at hs
    cases hs
  · obtain rfl : ⟨n, some (first.time + W)⟩ = s := Option.some.inj (hsome.symm.trans hs)
    exact ⟨hn, _, rfl, first, hfirst, Nat.le_refl _⟩

/-- An entry without an event that leaves the key and the time changes nothing. -/
theorem Tracks.keep (ht : Tracks W key w log) (he : event? key e = none)
    (hkey : w'.redis.strings key = w.redis.strings key) (hnow : w'.now = w.now) :
    Tracks W key w' (e :: log) := by
  constructor
  · rw [events_cons_none he, hkey]
    exact ht.slot
  · rw [events_cons_none he, hnow]
    exact ht.past

/-- The time passes. -/
theorem Tracks.pass (ht : Tracks W key w log) (hredis : w'.redis = w.redis)
    (hnow : w.now ≤ w'.now) :
    Tracks W key w' log := by
  refine ⟨?_, fun first hfirst => Nat.le_trans (ht.past first hfirst) hnow⟩
  rw [hredis]
  exact ht.slot

/-- A step is in time, and then the key holds what it should, or it breaks what is wanted. -/
def Dichotomy (W : ℕ) (key : String) (e : LogEntry) (log : List LogEntry) : Prop :=
  (InTime W key e ∧ CreatesNone key e ∧ Tracks W key e.post (e :: log)) ∨
    (¬InTime W key e ∧ ¬(CreatesNone key e ∧ KeepsWindow W key e.post (e :: log)))

/-- A hit of the window that begins with `first`. -/
theorem Tracks.hit {x first : Hit} {n : ℤ} (he : event? key e = some (.hit x))
    (hlast : (window W (.hit x :: events key log)).getLast? = some first) (hn : 0 ≤ n)
    (hkey : w'.redis.strings key = some ⟨n, some (first.time + W)⟩)
    (hpast : first.time ≤ w'.now) : Tracks W key w' (e :: log) := by
  constructor
  · refine ⟨n, hn, ?_⟩
    rw [events_cons_some he, hlast, hkey]
    rfl
  · rw [events_cons_some he, hlast]
    rintro _ ⟨⟩
    exact hpast

/-- The step of a hit. -/
theorem dichotomy_hit (ht : Tracks W key w log) (hkey : e.op = .evalIncrement key W)
    (he : ∃ x : Hit, x.time = w.now ∧ event? key e = some (.hit x))
    (hpost : e.post = { w with redis := (incrementScript w.now key W w.redis).2 })
    (htime : InTime W key e ↔ ∀ s ∈ w.redis.slot? w.now key, s.value = 0 →
      s.expiresAt = some (w.now + W)) : Dichotomy W key e log := by
  obtain ⟨x, hx, he⟩ := he
  have hcreates : CreatesNone key e := by
    intro hop
    rw [hkey] at hop
    cases hop
  have hlast := getLast?_window_hit W x (events key log)
  have hnow : e.post.now = w.now := by rw [hpost]
  rw [hx] at hlast
  rcases ht.finds with ⟨hnone, hclosed⟩ | ⟨n, first, hn, hfirst, hlt, hsome⟩
  · -- The hit opens a window, as the key is missing.
    have hscript := @incrementScript_first w.now W key w.redis (by simp [hnone])
    rw [if_neg hclosed] at hlast
    rw [hnone] at htime
    refine .inl ⟨htime.mpr nofun, hcreates, Tracks.hit he hlast Int.one_nonneg ?_ ?_⟩
    · rw [hpost, hscript.2, Function.update_self, hx]
    · omega
  · -- The hit belongs to the running window.
    have hopen : Open W w.now (window W (events key log)) := ⟨first, hfirst, hlt⟩
    have hpast : first.time ≤ w.now := ht.past first hfirst
    have hin : InTime W key e ↔ (n = 0 → first.time = w.now) := by
      rw [htime, hsome]
      simp
    rw [if_pos hopen, Option.mem_def.mp hfirst] at hlast
    by_cases hzero : n = 0
    · have hscript := @incrementScript_first w.now W key w.redis (by simp [hsome, hzero])
      have hslot : e.post.redis.strings key = some ⟨1, some (w.now + W)⟩ := by
        rw [hpost, hscript.2, Function.update_self]
      by_cases hfresh : first.time = w.now
      · -- All of the window is left, and `PEXPIRE` writes the expiry that the key has.
        refine .inl ⟨hin.mpr fun _ => hfresh, hcreates, Tracks.hit he hlast Int.one_nonneg ?_ ?_⟩
        · rw [hslot, hfresh]
        · omega
      · -- `PEXPIRE` moves the end of the running window.
        refine .inr ⟨fun h => hfresh (hin.mp h hzero), fun h => ?_⟩
        have hlive : e.post.redis.slot? e.post.now key = some ⟨1, some (w.now + W)⟩ := by
          unfold Redis.slot?
          rw [hslot, hnow]
          exact if_pos (decide_eq_true (by omega))
        obtain ⟨-, _, ⟨⟩, first', hfirst', hle⟩ := h.2 _ hlive
        rw [events_cons_some he, hlast] at hfirst'
        cases hfirst'
        omega
    · have hscript := @incrementScript_next w.now W key w.redis _ hsome hzero
      refine .inl ⟨hin.mpr fun h => absurd h hzero, hcreates,
        Tracks.hit he hlast (by omega : 0 ≤ n + 1) ?_ ?_⟩
      · rw [hpost, hscript.2, Function.update_self]
      · omega

/-- The step of a `DECR`. -/
theorem dichotomy_decr (ht : Tracks W key w log) (hkey : e.op = .decr key)
    (he : event? key e = none) (hpre : e.pre = w)
    (hpost : e.post = { w with redis := (w.redis.incrBy w.now key (-1)).2 })
    (htime : InTime W key e ↔ ∃ s ∈ w.redis.slot? w.now key, 0 < s.value) :
    Dichotomy W key e log := by
  rcases ht.finds with ⟨hnone, -⟩ | ⟨n, first, hn, hfirst, hlt, hsome⟩
  · -- The key is created.
    have hlive : e.post.redis.slot? e.post.now key = some ⟨-1, none⟩ := by
      rw [hpost, Redis.incrBy_missing hnone]
      simp [Redis.slot?, Slot.live]
    refine .inr ⟨fun h => ?_, fun h => ?_⟩
    · obtain ⟨s, hs, -⟩ := htime.mp h
      rw [hnone] at hs
      cases hs
    · have hmissing := h.1 hkey (by rw [hpre]; exact hnone)
      rw [hlive] at hmissing
      cases hmissing
  · have hlive : e.post.redis.slot? e.post.now key = some ⟨n + -1, some (first.time + W)⟩ := by
      rw [hpost, Redis.incrBy_exists hsome]
      simp [Redis.slot?, Slot.live, hlt]
    by_cases hpos : 0 < n
    · refine .inl ⟨htime.mpr ⟨_, hsome, hpos⟩, fun _ hmissing => ?_, ?_, ?_⟩
      · rw [hpre, hsome] at hmissing
        cases hmissing
      · rw [events_cons_none he, Option.mem_def.mp hfirst, hpost, Redis.incrBy_exists hsome]
        refine ⟨n + -1, by omega, ?_⟩
        rw [Redis.write_strings, Function.update_self, Option.map_some]
      · rw [events_cons_none he, hpost]
        exact ht.past
    · refine .inr ⟨fun h => ?_, fun h => ?_⟩
      · obtain ⟨s, hs, hvalue⟩ := htime.mp h
        rw [hsome] at hs
        cases hs
        exact hpos hvalue
      · have hvalue : 0 ≤ n + -1 := (h.2 _ hlive).1
        omega

/-- An entry without an event that leaves the key and the time is in time. -/
theorem dichotomy_keep (ht : Tracks W key w log) (htime : InTime W key e)
    (hop : e.op ≠ .decr key) (he : event? key e = none)
    (hkey : e.post.redis.strings key = w.redis.strings key) (hnow : e.post.now = w.now) :
    Dichotomy W key e log :=
  .inl ⟨htime, fun h => absurd h hop, ht.keep he hkey hnow⟩

/-- Every operation is in time, or breaks what is wanted. -/
theorem dichotomy {o : Op} (ho : o.Within W) (pid : ℕ) {did seen : Except String (interface.Res o)}
    (hans : machine.Answer o w did seen w') (ht : Tracks W key w log) :
    Dichotomy W key ⟨pid, o, w, did, seen, w'⟩ log := by
  -- An answer that is lost makes no difference: the entry tells what the store did.
  have hdone : ∀ ch seen, w' = (machine.exec o ch w).2 → did = (machine.exec o ch w).1 →
      Dichotomy W key ⟨pid, o, w, did, seen, w'⟩ log := by
    rintro ch seen rfl rfl
    cases o with
    | evalIncrement k windowMs =>
      obtain rfl : windowMs = W := ho
      by_cases hk : k = key
      · subst hk
        refine dichotomy_hit ht rfl ⟨⟨pid, w.now, _⟩, rfl, if_pos rfl⟩ rfl ?_
        exact ⟨fun h => h rfl, fun h _ => h⟩
      · refine dichotomy_keep ht (fun h => absurd h hk) (fun h => ?_) (if_neg hk) ?_ rfl
        · cases h
        · exact incrementScript_of_ne (Ne.symm hk)
    | decr k =>
      by_cases hk : k = key
      · subst hk
        refine dichotomy_decr ht rfl rfl rfl rfl ?_
        exact ⟨fun h => h rfl, fun h _ => h⟩
      · refine dichotomy_keep ht (fun h => absurd h hk) (fun h => hk ?_) rfl ?_ rfl
        · exact Op.decr.inj h
        · exact Redis.incrBy_strings_of_ne (Ne.symm hk)
    | del k =>
      by_cases hk : k = key
      · subst hk
        have hreset : events k ((⟨pid, .del k, w, (machine.exec (.del k) ch w).1, seen,
            (machine.exec (.del k) ch w).2⟩ : LogEntry) :: log) = .reset :: events k log :=
          events_cons_some (if_pos rfl)
        refine .inl ⟨trivial, fun h => ?_, ⟨0, Int.le_refl _, ?_⟩, ?_⟩
        · cases h
        · rw [hreset]
          exact if_pos (List.mem_singleton_self _)
        · rw [hreset]
          rintro _ ⟨⟩
      · refine dichotomy_keep ht trivial (fun h => ?_) (if_neg hk) ?_ rfl
        · cases h
        · refine if_neg fun hmem => hk ?_
          exact (List.mem_singleton.mp hmem).symm
    | now =>
      refine dichotomy_keep ht trivial (fun h => ?_) rfl rfl rfl
      cases h
  cases hans with
  | done ch => exact hdone ch _ rfl rfl
  | lost e ch h => exact hdone ch _ rfl rfl
  | failed e h =>
    -- A command that failed leaves the world, so it creates nothing either.
    refine .inl ⟨?_, fun _ hmissing => hmissing, ht.keep ?_ rfl rfl⟩
    · cases o <;> trivial
    · cases o <;> rfl

/-! ## Every run -/

/-- What holds of every history: as long as every step is in time the key holds what it should, and
the first step that is not breaks what is wanted. -/
structure Decides (W : ℕ) (key : String) (h : Hist interface String World) : Prop where
  tracks : (∀ e ∈ h.log, InTime W key e) → Tracks W key h.world h.log
  undoes : Undoes W key h.log ↔ ∀ e ∈ h.log, InTime W key e

/-- What is wanted of a log is wanted of its last step and of the log before. -/
theorem undoes_cons : Undoes W key (e :: log) ↔
    Undoes W key log ∧ CreatesNone key e ∧ KeepsWindow W key e.post (e :: log) := by
  unfold Undoes
  rw [forall_suffix_cons]
  exact and_comm

/-- Every operation keeps it so. -/
theorem Decides.step {h : Hist interface String World} (hd : Decides W key h) {o : Op}
    (ho : o.Within W) (pid : ℕ) {did seen : Except String (interface.Res o)}
    (hans : machine.Answer o h.world did seen w) :
    Decides W key (h.record pid o did seen w) := by
  have hlog : (h.record pid o did seen w).log = ⟨pid, o, h.world, did, seen, w⟩ :: h.log := rfl
  constructor
  · intro hall
    rw [hlog] at hall ⊢
    have hearlier : ∀ e ∈ h.log, InTime W key e := fun e he => hall e (List.mem_cons_of_mem _ he)
    -- A late undoing would not be in time, as all of them are.
    rcases dichotomy ho pid hans (hd.tracks hearlier) with ⟨-, -, htracks⟩ | ⟨hlate, -⟩
    · exact htracks
    · exact absurd (hall _ List.mem_cons_self) hlate
  -- The log before has decided for its own steps, the last step decides for itself.
  · rw [hlog, undoes_cons, hd.undoes, List.forall_mem_cons]
    constructor
    · rintro ⟨hearlier, hlast⟩
      rcases dichotomy ho pid hans (hd.tracks hearlier) with ⟨hin, -, -⟩ | ⟨-, hbreaks⟩
      · exact ⟨hin, hearlier⟩
      · exact absurd hlast hbreaks
    · rintro ⟨hin, hearlier⟩
      rcases dichotomy ho pid hans (hd.tracks hearlier) with ⟨-, hnone, htracks⟩ | ⟨hlate, -⟩
      · exact ⟨hearlier, hnone, htracks.keepsWindow⟩
      · exact absurd hin hlate

end

/-- The calls of a store keep to its windows. -/
theorem body_issues {W : ℕ} {c : Call} (hc : c.store.windowMs = W) :
    c.body.Issues (Op.Within W) := by
  have hask : ∀ o : Op, o.Within W → (ask o).Issues (Op.Within W) :=
    fun o ho => (Prog.issues_perform (S := interface) _ o).mpr ho
  cases c with
  | increment s key =>
    have hscript : (Op.evalIncrement (s.fullKey key) s.windowMs).Within W := hc
    refine ((hask _ hscript).bind fun res => ?_).bind fun _ => trivial
    show Prog.Issues _ (if 0 ≤ res.2 then _ else _)
    split
    · exact (hask .now trivial).bind fun _ => trivial
    · trivial
  | decrement s key =>
    exact ((hask (.decr (s.fullKey key)) trivial).bind fun _ => Prog.issues_ret _ _).bind
      fun _ => Prog.issues_ret _ _
  | resetKey s key =>
    exact ((hask (.del (s.fullKey key)) trivial).bind fun _ => Prog.issues_ret _ _).bind
      fun _ => Prog.issues_ret _ _

/-- From an empty store, whatever the instances do and however the time passes, `decrement` only
undoes a hit of the running window exactly if every step is in time. -/
theorem decrement_undoes_iff {W : ℕ} (key : String) {cfg : (system W).Config}
    (hr : (system W).Reachable (fun w => ∀ key, w.redis.strings key = none) cfg) :
    (Undoes W key cfg.hist.log ∧ KeepsWindow W key cfg.hist.world cfg.hist.log) ↔
      ∀ e ∈ cfg.hist.log, InTime W key e := by
  have hd : Decides W key cfg.hist := by
    refine System.invariant (Op.Within W) (Decides W key) (fun c hc => body_issues hc) ?_ ?_ ?_ hr
    · intro w hw
      refine ⟨fun _ => ⟨⟨0, Int.le_refl _, hw key⟩, ?_⟩, ⟨fun _ => ?_, fun _ e l hl => ?_⟩⟩
      · rintro _ ⟨⟩
      · rintro e ⟨⟩
      · cases List.suffix_nil.mp hl
    · rintro h w hd ⟨hredis, hnow⟩
      exact ⟨fun hall => (hd.tracks hall).pass hredis hnow, hd.undoes⟩
    · intro pid o h did seen w ho hd _ hans
      exact hd.step ho pid hans
  constructor
  · rintro ⟨hundoes, -⟩
    exact hd.undoes.mp hundoes
  · intro hall
    exact ⟨hd.undoes.mpr hall, (hd.tracks hall).keepsWindow⟩

instance (W : ℕ) : DecidablePred (system W).valid :=
  fun c => inferInstanceAs (Decidable (c.store.windowMs = W))

/-- Two hits of which one is undone, a hit in the next window, and a reset. -/
def undone : List (System.Action (system 1000)) :=
  List.flatten [[.spawn (.increment sharedStore "ip"), .spawn (.increment sharedStore "ip"),
    .spawn (.decrement sharedStore "ip"), .spawn (.increment sharedStore "ip"),
    .spawn (.resetKey sharedStore "ip")],
    System.turns _ 0 (0 : ℕ) 2, System.turns _ 1 (0 : ℕ) 2, System.turns _ 2 (0 : ℕ) 1,
    [waits 1000],
    System.turns _ 3 (0 : ℕ) 2, System.turns _ 4 (0 : ℕ) 1]

/-- A hit of two is undone in its window, and the rest counts on. -/
theorem decrement_undoes_iff_undone :
    ∃ cfg : (system 1000).Config,
      (system 1000).Reachable (fun w => ∀ key, w.redis.strings key = none) cfg ∧
        cfg.hist.log.length = 8 ∧ Undoes 1000 "rl:api:ip" cfg.hist.log := by
  obtain ⟨cfg, hplay, hlog, hin⟩ : ∃ cfg, (system 1000).play undone ((system 1000).start ⟨{}, 0⟩) =
      some cfg ∧ cfg.hist.log.length = 8 ∧ ∀ e ∈ cfg.hist.log, InTime 1000 "rl:api:ip" e :=
    System.exists_of_play (by decide +kernel)
  have hr : (system 1000).Reachable (fun w => ∀ key, w.redis.strings key = none) cfg :=
    System.reachable_of_play (fun _ _ _ => trivial) (.start fun _ => rfl) hplay
  exact ⟨cfg, hr, hlog, ((decrement_undoes_iff "rl:api:ip" hr).mpr hin).1⟩

/-- A hit, and a `decrement` that comes when its window is over. -/
def lateDecrement : List (System.Action (system 1000)) :=
  List.flatten [[.spawn (.increment sharedStore "ip"), .spawn (.decrement sharedStore "ip")],
    System.turns _ 0 (0 : ℕ) 2,
    [waits 1000],
    System.turns _ 1 (0 : ℕ) 1]

/-- A hit that is undone, and another one in the middle of its window. -/
def secondFirstHit : List (System.Action (system 1000)) :=
  List.flatten [[.spawn (.increment sharedStore "ip"), .spawn (.decrement sharedStore "ip"),
    .spawn (.increment sharedStore "ip")], System.turns _ 0 (0 : ℕ) 2, System.turns _ 1 (0 : ℕ) 1,
    [waits 500],
    System.turns _ 2 (0 : ℕ) 2]

/-- The key lives forever with the value `-1`, and the window that began at `0` ends at `1500`. -/
theorem decrement_creates_key_and_extends_window :
    (∃ cfg : (system 1000).Config,
      (system 1000).Reachable (fun w => ∀ key, w.redis.strings key = none) cfg ∧
        cfg.hist.world.redis.pttl cfg.hist.world.now "rl:api:ip" = -1 ∧
        cfg.hist.world.redis.lookup cfg.hist.world.now "rl:api:ip" = some (-1) ∧
        ¬(Undoes 1000 "rl:api:ip" cfg.hist.log ∧
          KeepsWindow 1000 "rl:api:ip" cfg.hist.world cfg.hist.log)) ∧
    ∃ cfg : (system 1000).Config,
      (system 1000).Reachable (fun w => ∀ key, w.redis.strings key = none) cfg ∧
        cfg.hist.world.now = 500 ∧ (window 1000 (events "rl:api:ip" cfg.hist.log)).getLast?.map
          (·.time) = some 0 ∧
        cfg.hist.world.redis.pttl cfg.hist.world.now "rl:api:ip" = 1000 ∧
        ¬(Undoes 1000 "rl:api:ip" cfg.hist.log ∧
          KeepsWindow 1000 "rl:api:ip" cfg.hist.world cfg.hist.log) := by
  constructor
  · obtain ⟨cfg, hplay, hslot, httl, hlookup⟩ : ∃ cfg,
        (system 1000).play lateDecrement ((system 1000).start ⟨{}, 0⟩) = some cfg ∧
          (cfg.hist.world.redis.slot? cfg.hist.world.now "rl:api:ip").map (·.value) = some (-1) ∧
          cfg.hist.world.redis.pttl cfg.hist.world.now "rl:api:ip" = -1 ∧
          cfg.hist.world.redis.lookup cfg.hist.world.now "rl:api:ip" = some (-1) :=
      System.exists_of_play (by decide +kernel)
    refine ⟨cfg, System.reachable_of_play (fun _ _ _ => trivial) (.start fun _ => rfl) hplay, httl,
      hlookup, ?_⟩
    -- The counter is below zero.
    rintro ⟨-, hkeeps⟩
    obtain ⟨s, hs, hvalue⟩ := Option.map_eq_some_iff.mp hslot
    have hpos : 0 ≤ s.value := (hkeeps s hs).1
    omega
  · obtain ⟨cfg, hplay, hslot, hnow, hfirst, httl⟩ : ∃ cfg,
        (system 1000).play secondFirstHit ((system 1000).start ⟨{}, 0⟩) = some cfg ∧
          (cfg.hist.world.redis.slot? cfg.hist.world.now "rl:api:ip").map (·.expiresAt) =
            some (some 1500) ∧
          cfg.hist.world.now = 500 ∧ (window 1000 (events "rl:api:ip" cfg.hist.log)).getLast?.map
            (·.time) = some 0 ∧
          cfg.hist.world.redis.pttl cfg.hist.world.now "rl:api:ip" = 1000 :=
      System.exists_of_play (by decide +kernel)
    refine ⟨cfg, System.reachable_of_play (fun _ _ _ => trivial) (.start fun _ => rfl) hplay, hnow,
      hfirst, httl, ?_⟩
    -- The counter outlives the window of its first hit.
    rintro ⟨-, hkeeps⟩
    obtain ⟨s, hs, hexpiry⟩ := Option.map_eq_some_iff.mp hslot
    obtain ⟨-, expiry, hmem, first, hlast, hle⟩ := hkeeps s hs
    rw [Option.mem_def, hexpiry] at hmem
    rw [Option.mem_def.mp hlast] at hfirst
    have htime : first.time = 0 := Option.some.inj hfirst
    have hend : 1500 = expiry := Option.some.inj hmem
    omega

end SplitBill.RateLimit.Decrement
