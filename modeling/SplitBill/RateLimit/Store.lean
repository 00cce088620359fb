import Mathlib.Data.Int.Notation
import SplitBill.Interleave.Logic
import SplitBill.RateLimit.FixedWindow
import SplitBill.Redis

/-!
# The rate limit store

`src/redis/rateLimitStore.ts`. A counter is a string key. The script that counts a hit is evaluated
as one command; it sets the time to live with the first hit and leaves it alone afterwards. A
counter may become zero or negative with `decrement`, so the values are integers. Any number of
instances may use the store. Redis has one clock, and each instance reads its own one.

With hits and resets alone the counters are those of fixed windows (`fixedWindow_holds`). What
`decrement` does to them is the matter of `RateLimit/Decrement.lean`.
-/

namespace SplitBill

/-! ## The commands of the script -/

namespace Redis

variable {K V : Type}

/-- A string key that exists at the instant `now`. -/
def slot? (r : Redis K V) (now : ℕ) (k : K) : Option (Slot V) := (r.strings k).filter (·.live now)

/-- `PTTL`: the time that is left, `-1` for a key without expiry and `-2` for a missing one. -/
def pttl (r : Redis K V) (now : ℕ) (k : K) : ℤ :=
  match r.slot? now k with
  | none => -2
  | some ⟨_, none⟩ => -1
  | some ⟨_, some t⟩ => (t : ℤ) - now

variable [DecidableEq K]

/-- `INCR` and `DECR`: a missing key counts as zero, and the expiry stays as it is. -/
def incrBy (r : Redis K ℤ) (now : ℕ) (k : K) (n : ℤ) : ℤ × Redis K ℤ :=
  match r.slot? now k with
  | some s => (s.value + n, r.write k (some { s with value := s.value + n }))
  | none => (n, r.write k (some ⟨n, none⟩))

/-- `PEXPIRE`: the answer is whether the key exists. -/
def pexpire (r : Redis K V) (now : ℕ) (k : K) (ttlMs : ℕ) : Bool × Redis K V :=
  match r.slot? now k with
  | some s => (true, r.write k (some { s with expiresAt := some (now + ttlMs) }))
  | none => (false, r)

section Frame

variable {now : ℕ} {k key : K} {n : ℤ}

/-- A command that counts leaves the other keys. -/
theorem incrBy_strings_of_ne {r : Redis K ℤ} (h : key ≠ k) :
    (r.incrBy now k n).2.strings key = r.strings key := by
  unfold incrBy
  cases r.slot? now k with
  | none => exact Function.update_of_ne h _ _
  | some s => exact Function.update_of_ne h _ _

/-- A missing key is created without an expiry. -/
theorem incrBy_missing {r : Redis K ℤ} (h : r.slot? now k = none) :
    r.incrBy now k n = (n, r.write k (some ⟨n, none⟩)) := by
  unfold incrBy
  rw [h]

/-- A key that exists keeps its expiry. -/
theorem incrBy_exists {r : Redis K ℤ} {s : Slot ℤ} (h : r.slot? now k = some s) :
    r.incrBy now k n = (s.value + n, r.write k (some { s with value := s.value + n })) := by
  unfold incrBy
  rw [h]

/-- `PEXPIRE` leaves the other keys. -/
theorem pexpire_strings_of_ne {r : Redis K V} {ttlMs : ℕ} (h : key ≠ k) :
    (r.pexpire now k ttlMs).2.strings key = r.strings key := by
  unfold pexpire
  cases r.slot? now k with
  | none => rfl
  | some s => exact Function.update_of_ne h _ _

end Frame

end Redis

namespace RateLimit

open Interleave FixedWindow

/-- `INCREMENT_SCRIPT`: the number of hits and the time that is left. -/
def incrementScript (now : ℕ) (key : String) (windowMs : ℕ) (r : Redis String ℤ) :
    (ℤ × ℤ) × Redis String ℤ :=
  let (hits, r) := r.incrBy now key 1
  let r := if hits = 1 then (r.pexpire now key windowMs).2 else r
  ((hits, r.pttl now key), r)

/-- How Redis stores a counter. -/
def slotOf (c : Counter) : Slot ℤ := ⟨c.totalHits, some c.resetTime⟩

/-- A counter is there until its window is over. -/
theorem live_slotOf (c : Counter) (now : ℕ) :
    (slotOf c).live now = decide (now < c.resetTime) := rfl

section

variable {now W : ℕ} {key : String} {r : Redis String ℤ} {c : Option Counter}

/-- A hit that finds no key, or a counter at zero, is taken for the first one of a window. -/
theorem incrementScript_first (h : ∀ s, r.slot? now key = some s → s.value = 0) :
    (incrementScript now key W r).1.1 = 1 ∧
      (incrementScript now key W r).2.strings =
        Function.update r.strings key (some ⟨1, some (now + W)⟩) := by
  have hfirst : ∃ x : Option ℕ, r.incrBy now key 1 = (1, r.write key (some ⟨1, x⟩)) ∧
      (r.write key (some ⟨1, x⟩)).slot? now key = some ⟨1, x⟩ := by
    cases hs : r.slot? now key with
    | none => exact ⟨none, Redis.incrBy_missing hs, by simp [Redis.slot?, Slot.live]⟩
    | some s =>
      have hlive : s.live now = true := (Option.filter_eq_some_iff.mp hs).2
      refine ⟨s.expiresAt, ?_, ?_⟩
      · rw [Redis.incrBy_exists hs, h s hs]
        rfl
      · simp only [Redis.slot?, Redis.write_strings, Function.update_self, Option.filter_some]
        exact if_pos hlive
  obtain ⟨x, hincr, hslot⟩ := hfirst
  -- The key that `INCR` wrote exists, so `PEXPIRE` finds it.
  have hexpire : ((r.write key (some ⟨1, x⟩)).pexpire now key W).2 =
      (r.write key (some ⟨1, x⟩)).write key (some ⟨1, some (now + W)⟩) := by
    unfold Redis.pexpire
    rw [hslot]
  simp only [incrementScript, hincr, if_true, hexpire, Redis.write_strings, Function.update_idem,
    and_self]

/-- Any other hit leaves the expiry. -/
theorem incrementScript_next {s : Slot ℤ} (h : r.slot? now key = some s) (hs : s.value ≠ 0) :
    (incrementScript now key W r).1.1 = s.value + 1 ∧
      (incrementScript now key W r).2.strings =
        Function.update r.strings key (some ⟨s.value + 1, s.expiresAt⟩) := by
  have hne : s.value + 1 ≠ 1 := by omega
  simp only [incrementScript, Redis.incrBy_exists h, if_neg hne, Redis.write_strings, and_self]

/-- The script leaves the other keys. -/
theorem incrementScript_of_ne {k : String} (h : k ≠ key) :
    (incrementScript now key W r).2.strings k = r.strings k := by
  simp only [incrementScript]
  split
  · rw [Redis.pexpire_strings_of_ne h, Redis.incrBy_strings_of_ne h]
  · exact Redis.incrBy_strings_of_ne h

/-- The script is a hit of the counter that the key holds. -/
theorem incrementScript_hit (hkey : r.strings key = c.map slotOf)
    (hpos : ∀ x ∈ c, 0 < x.totalHits) :
    (incrementScript now key W r).1.1 = (Counter.hit W now c).totalHits ∧
      (incrementScript now key W r).2.strings =
        Function.update r.strings key (some (slotOf (Counter.hit W now c))) := by
  cases c with
  | none =>
    have hslot : r.slot? now key = none := by
      unfold Redis.slot?
      rw [hkey]
      rfl
    exact incrementScript_first (by simp [hslot])
  | some x =>
    by_cases hlt : now < x.resetTime
    · have hslot : r.slot? now key = some (slotOf x) := by
        unfold Redis.slot?
        rw [hkey, Option.map_some, Option.filter_some, live_slotOf, decide_eq_true hlt, if_pos rfl]
      have hhit : Counter.hit W now (some x) = ⟨x.totalHits + 1, x.resetTime⟩ := if_pos hlt
      have hvalue : (slotOf x).value ≠ 0 := by
        have hx : 0 < x.totalHits := hpos x rfl
        show (x.totalHits : ℤ) ≠ 0
        omega
      rw [hhit]
      exact incrementScript_next hslot hvalue
    · -- The window is over, and the key is gone with it.
      have hslot : r.slot? now key = none := by
        unfold Redis.slot?
        rw [hkey, Option.map_some, Option.filter_some, live_slotOf, decide_eq_false hlt]
        rfl
      have hhit : Counter.hit W now (some x) = ⟨1, now + W⟩ := if_neg hlt
      rw [hhit]
      exact incrementScript_first (by simp [hslot])

end

/-! ## The store -/

/-- What the store asks for. -/
inductive Op
  /-- `redis.eval` of the script. -/
  | evalIncrement (key : String) (windowMs : ℕ)
  /-- `redis.decr`. -/
  | decr (key : String)
  /-- `redis.del`. -/
  | del (key : String)
  /-- `Date.now()`. -/
  | now

/-- The answers. -/
abbrev Op.Res : Op → Type
  | evalIncrement _ _ => ℤ × ℤ
  | decr _ => ℤ
  | del _ => ℕ
  | now => ℕ

/-- The operations of the store. -/
abbrev interface : Interface := ⟨Op, Op.Res⟩

/-- One operation. -/
abbrev ask (o : Op) : Prog interface String o.Res := Prog.perform (S := interface) o

/-- `IncrementResponse` of `express-rate-limit`. -/
structure IncrementResponse where
  totalHits : ℤ
  resetTime : Option ℤ
  deriving DecidableEq

/-- The fields of `RedisRateLimitStore`, without the client. -/
structure RedisRateLimitStore where
  /-- The field `prefix`. -/
  keyPrefix : String
  windowMs : ℕ

namespace RedisRateLimitStore

/-- The key of a counter. -/
def fullKey (s : RedisRateLimitStore) (key : String) : String := s.keyPrefix ++ key

/-- `increment`. An error is logged and thrown again. -/
def increment (s : RedisRateLimitStore) (key : String) :
    Prog interface String IncrementResponse := do
  let (hits, ttl) ← ask (.evalIncrement (s.fullKey key) s.windowMs)
  if 0 ≤ ttl then
    let now ← ask .now
    return ⟨hits, some (now + ttl)⟩
  else
    return ⟨hits, none⟩

/-- `decrement`. -/
def decrement (s : RedisRateLimitStore) (key : String) : Prog interface String Unit := do
  let _ ← ask (.decr (s.fullKey key))

/-- `resetKey`. -/
def resetKey (s : RedisRateLimitStore) (key : String) : Prog interface String Unit := do
  let _ ← ask (.del (s.fullKey key))

end RedisRateLimitStore

/-! ## Many instances -/

/-- Redis, and the time on its clock. -/
structure World where
  redis : Redis String ℤ
  now : ℕ

/-- Redis with the clocks of the instances: a command may fail before it has any effect, and its
answer may be lost. The choice is what an instance reads from its clock. -/
def machine : Machine interface String World where
  Choice := ℕ
  exec
    | .evalIncrement key windowMs, _, w =>
      let (res, r) := incrementScript w.now key windowMs w.redis
      (.ok res, { w with redis := r })
    | .decr key, _, w =>
      let (res, r) := w.redis.incrBy w.now key (-1)
      (.ok res, { w with redis := r })
    | .del key, _, w =>
      (.ok (if (w.redis.slot? w.now key).isSome then 1 else 0),
        { w with redis := w.redis.remove [key] })
    | .now, clock, w => (.ok clock, w)
  fails
    | .now, _ => False
    | _, _ => True
  loses
    | .now, _ => False
    | _, _ => True

/-- What `increment` does when it is answered. -/
theorem run_increment (clock : ℕ) (s : RedisRateLimitStore) (key : String) (w : World) :
    ∃ resetTime, machine.run clock (s.increment key) w =
      (.ok ⟨(incrementScript w.now (s.fullKey key) s.windowMs w.redis).1.1, resetTime⟩,
        { w with redis := (incrementScript w.now (s.fullKey key) s.windowMs w.redis).2 }) := by
  have hscript : machine.run clock (ask (.evalIncrement (s.fullKey key) s.windowMs)) w =
      (.ok (incrementScript w.now (s.fullKey key) s.windowMs w.redis).1,
        { w with redis := (incrementScript w.now (s.fullKey key) s.windowMs w.redis).2 }) := rfl
  have hrun := Machine.run_bind (g := fun res : ℤ × ℤ =>
    if 0 ≤ res.2 then (ask .now).bind fun now => .ret ⟨res.1, some (now + res.2)⟩
    else .ret (⟨res.1, none⟩ : IncrementResponse)) hscript
  by_cases httl : 0 ≤ (incrementScript w.now (s.fullKey key) s.windowMs w.redis).1.2
  · refine ⟨some (clock + (incrementScript w.now (s.fullKey key) s.windowMs w.redis).1.2),
      hrun.trans ?_⟩
    rw [if_pos httl]
    rfl
  · refine ⟨none, hrun.trans ?_⟩
    rw [if_neg httl]
    rfl

/-- The calls of the instances. -/
inductive Call
  | increment (store : RedisRateLimitStore) (key : String)
  | decrement (store : RedisRateLimitStore) (key : String)
  | resetKey (store : RedisRateLimitStore) (key : String)

/-- The store that a call uses. -/
def Call.store : Call → RedisRateLimitStore
  | increment s _ => s
  | decrement s _ => s
  | resetKey s _ => s

/-- A call takes no hit back. -/
def Call.KeepsHits : Call → Prop
  | decrement _ _ => False
  | _ => True

instance : DecidablePred Call.KeepsHits
  | .decrement _ _ => .isFalse id
  | .increment _ _ | .resetKey _ _ => .isTrue trivial

/-- The programs of the calls. -/
def Call.body : Call → Prog interface String (Option IncrementResponse)
  | increment s key => do
    let res ← s.increment key
    return some res
  | decrement s key => do
    s.decrement key
    return none
  | resetKey s key => do
    s.resetKey key
    return none

/-- Any number of hits and resets from any number of instances, all of them with windows of the
length `W`, as time passes. -/
def system (W : ℕ) : System interface String (Option IncrementResponse) World where
  machine := machine
  Call := Call
  body := Call.body
  valid c := c.store.windowMs = W ∧ c.KeepsHits
  env w w' := w'.redis = w.redis ∧ w.now ≤ w'.now

/-- Time passes. -/
def World.wait (ms : ℕ) (w : World) : World := { w with now := w.now + ms }

/-- A wait changes the clock only. -/
theorem env_wait (W ms : ℕ) (w : World) : (system W).env w (w.wait ms) :=
  ⟨rfl, Nat.le_add_right _ _⟩

/-- Nothing happens for `ms` milliseconds. -/
def waits {W : ℕ} (ms : ℕ) : System.Action (system W) := .env (World.wait ms) (env_wait W ms)

/-! ## What the log says -/

/-- An operation that was performed. -/
abbrev LogEntry := Entry interface String World

/-- What an entry did to the windows of a key: `DECR` leaves them alone. A command that failed did
nothing, and one whose answer was lost did what it was asked for. -/
def event? (key : String) : LogEntry → Option Event
  | ⟨pid, .evalIncrement k _, pre, .ok res, _, _⟩ =>
    if k = key then some (.hit ⟨pid, pre.now, res.1.toNat⟩) else none
  | ⟨_, .del k, _, .ok _, _, _⟩ => if k = key then some .reset else none
  | _ => none

/-- What happened to the windows of a key, the latest event first. -/
def events (key : String) (log : List LogEntry) : List Event := log.filterMap (event? key)

/-- What a step does to the counter of a key: it is a hit, with the number that the store answers,
it is a reset, or it leaves the counter alone. -/
inductive CounterStep (W : ℕ) (key : String) (c : Option Counter) (e : LogEntry) : Prop
  | hit (x : Hit) (he : event? key e = some (.hit x)) (hpid : x.pid = e.pid)
      (htime : x.time = e.pre.now) (htotal : x.totalHits = (Counter.hit W x.time c).totalHits)
      (hpost : e.post.redis.strings key = some (slotOf (.hit W x.time c)))
  | reset (he : event? key e = some .reset) (hpost : e.post.redis.strings key = none)
  | keep (he : event? key e = none)
      (hpost : e.post.redis.strings key = e.pre.redis.strings key)

/-- The operations of a store whose windows have the length `W`. -/
def Op.Within (W : ℕ) : Op → Prop
  | evalIncrement _ windowMs => windowMs = W
  | _ => True

/-- An operation takes no hit back. -/
def Op.KeepsHits : Op → Prop
  | decr _ => False
  | _ => True

/-- An operation keeps the time, and is a step of the counter of a key. -/
theorem counterStep {W : ℕ} {o : Op} (ho : o.Within W) (hkeeps : o.KeepsHits) {key : String}
    {c : Option Counter} (pid : ℕ) {w w' : World} {did seen : Except String (interface.Res o)}
    (hans : machine.Answer o w did seen w')
    (hkey : w.redis.strings key = c.map slotOf) (hpos : ∀ x ∈ c, 0 < x.totalHits) :
    w'.now = w.now ∧ CounterStep W key c ⟨pid, o, w, did, seen, w'⟩ := by
  -- An answer that is lost makes no difference: the entry tells what the store did.
  have hdone : ∀ ch seen, w' = (machine.exec o ch w).2 → did = (machine.exec o ch w).1 →
      w'.now = w.now ∧ CounterStep W key c ⟨pid, o, w, did, seen, w'⟩ := by
    rintro ch seen rfl rfl
    cases o with
    | evalIncrement k windowMs =>
      obtain rfl : windowMs = W := ho
      refine ⟨rfl, ?_⟩
      by_cases hk : k = key
      · subst hk
        obtain ⟨htotal, hpost⟩ := @incrementScript_hit w.now windowMs k w.redis c hkey hpos
        have hnat : (incrementScript w.now k windowMs w.redis).1.1.toNat =
            (Counter.hit windowMs w.now c).totalHits := by
          rw [htotal]
          exact Int.toNat_natCast _
        refine .hit ⟨pid, w.now, (incrementScript w.now k windowMs w.redis).1.1.toNat⟩ ?_ rfl rfl
          hnat ?_
        · exact if_pos rfl
        · show (incrementScript w.now k windowMs w.redis).2.strings k = _
          rw [hpost, Function.update_self]
      · exact .keep (if_neg hk) (incrementScript_of_ne (Ne.symm hk))
    | decr k => exact hkeeps.elim
    | del k =>
      refine ⟨rfl, ?_⟩
      by_cases hk : k = key
      · subst hk
        exact .reset (if_pos rfl) (if_pos (List.mem_singleton_self _))
      · refine .keep (if_neg hk) (if_neg fun hmem => hk ?_)
        exact (List.mem_singleton.mp hmem).symm
    | now => exact ⟨rfl, .keep rfl rfl⟩
  cases hans with
  | done ch => exact hdone ch _ rfl rfl
  | lost e ch h => exact hdone ch _ rfl rfl
  | failed e h =>
    refine ⟨rfl, .keep ?_ rfl⟩
    cases o <;> rfl

/-- The hits that the log holds of the counter of a key. -/
def hitsOf (key : String) (log : List LogEntry) : List Hit := hits (events key log)

section

variable {W : ℕ} {key : String} {e : LogEntry} {log : List LogEntry} {x : Hit}

/-- An entry that is no event of the key. -/
theorem events_cons_none (h : event? key e = none) : events key (e :: log) = events key log :=
  List.filterMap_cons_none h

/-- An entry that is an event of the key. -/
theorem events_cons_some {ev : Event} (h : event? key e = some ev) :
    events key (e :: log) = ev :: events key log :=
  List.filterMap_cons_some h

/-- An entry that is a hit of the key. -/
theorem hitsOf_cons_hit (h : event? key e = some (.hit x)) :
    hitsOf key (e :: log) = x :: hitsOf key log := by
  unfold hitsOf
  rw [events_cons_some h]
  rfl

/-- An entry that is no hit of the key. -/
theorem hitsOf_cons_of_ne (h : ∀ x, event? key e ≠ some (.hit x)) :
    hitsOf key (e :: log) = hitsOf key log := by
  unfold hitsOf
  cases he : event? key e with
  | none => rw [events_cons_none he]
  | some ev =>
    cases ev with
    | hit x => exact absurd he (h x)
    | reset =>
      rw [events_cons_some he]
      rfl

/-- The hits of a key are those the log has an entry of. -/
theorem mem_hitsOf : x ∈ hitsOf key log ↔ ∃ e ∈ log, event? key e = some (.hit x) := by
  unfold hitsOf events
  rw [mem_hits, List.mem_filterMap]

/-- A hit carries the number of its call. -/
theorem pid_of_event? (h : event? key e = some (.hit x)) : x.pid = e.pid := by
  unfold event? at h
  split at h
  · split at h
    · rw [← Event.hit.inj (Option.some.inj h)]
    · cases h
  · split at h
    · cases h
    · cases h
  · cases h

/-- A hit is an entry of its own call. -/
theorem mem_hitsOf_own {h : Hist interface String World} (hx : x ∈ hitsOf key h.log) :
    x ∈ hitsOf key (h.own x.pid) := by
  obtain ⟨e, he, heq⟩ := mem_hitsOf.mp hx
  have hpid : e.pid = x.pid := (pid_of_event? heq).symm
  exact mem_hitsOf.mpr ⟨e, Hist.mem_own.mpr ⟨he, hpid⟩, heq⟩

/-- A call's own hits are among all of them. -/
theorem hitsOf_own {h : Hist interface String World} {pid : ℕ} (hx : x ∈ hitsOf key (h.own pid)) :
    x ∈ hitsOf key h.log ∧ x.pid = pid := by
  obtain ⟨e, he, heq⟩ := mem_hitsOf.mp hx
  obtain ⟨hlog, hpid⟩ := Hist.mem_own.mp he
  exact ⟨mem_hitsOf.mpr ⟨e, hlog, heq⟩, (pid_of_event? heq).trans hpid⟩

/-- A hit was once the latest one of its window. -/
theorem exists_window_of_mem_hitsOf (W : ℕ) (hx : x ∈ hitsOf key log) :
    ∃ l, l <:+ log ∧ (window W (events key l)).head? = some x := by
  obtain ⟨e, he, heq⟩ := mem_hitsOf.mp hx
  obtain ⟨later, earlier, rfl⟩ := List.append_of_mem he
  obtain ⟨before, hwindow, -⟩ := window_hit W x (events key earlier)
  refine ⟨e :: earlier, List.suffix_append _ _, ?_⟩
  rw [events_cons_some heq, hwindow]
  rfl

end

/-! ## The invariant -/

/-- The key holds its counter, and the numbers that the store answered are those of the counter. The
hits are in order of time, and no call hits twice. -/
structure Counts (W : ℕ) (key : String) (h : Hist interface String World) : Prop where
  slot : h.world.redis.strings key = (counter W (events key h.log)).map slotOf
  answered : Answered W (events key h.log)
  past : ∀ x ∈ hitsOf key h.log, x.time ≤ h.world.now
  ordered : (hitsOf key h.log).Pairwise (·.time ≥ ·.time)
  once : (hitsOf key h.log).Pairwise (·.pid ≠ ·.pid)

/-- What a call does next, given its entries: it hits at most once. -/
def Step (W : ℕ) (l : List LogEntry) (o : Op) : Prop :=
  o.Within W ∧ o.KeepsHits ∧
    ∀ key windowMs, o = .evalIncrement key windowMs → ∀ key, hitsOf key l = []

/-- An entry that hits is an evaluation of the script. -/
theorem evalIncrement_of_event? {key : String} {e : LogEntry} {x : Hit}
    (h : event? key e = some (.hit x)) : ∃ k windowMs, e.op = .evalIncrement k windowMs := by
  unfold event? at h
  split at h
  · exact ⟨_, _, rfl⟩
  · split at h <;> cases h
  · cases h

/-- The counters are right as long as no hit comes, and the key holds what is left of them. -/
theorem Counts.of_hits {W : ℕ} {key : String} {h h' : Hist interface String World}
    (hc : Counts W key h)
    (hslot : h'.world.redis.strings key = (counter W (events key h'.log)).map slotOf)
    (hanswered : Answered W (events key h'.log)) (hhits : hitsOf key h'.log = hitsOf key h.log)
    (hnow : h.world.now ≤ h'.world.now) : Counts W key h' := by
  have hpast : ∀ x ∈ hitsOf key h.log, x.time ≤ h'.world.now :=
    fun x hx => Nat.le_trans (hc.past x hx) hnow
  rw [← hhits] at hpast
  exact ⟨hslot, hanswered, hpast, hhits ▸ hc.ordered, hhits ▸ hc.once⟩

/-- Every operation of a call keeps the counters. -/
theorem Counts.step {W : ℕ} {key : String} {h : Hist interface String World} (hc : Counts W key h)
    {pid : ℕ} {o : Op} (ho : Step W (h.own pid) o) {w : World}
    {did seen : Except String (interface.Res o)} (hans : machine.Answer o h.world did seen w) :
    Counts W key (h.record pid o did seen w) := by
  obtain ⟨hnow, hstep⟩ :=
    counterStep ho.1 ho.2.1 pid hans hc.slot fun x hx => counter_pos hx
  rcases hstep with ⟨x, he, hpid, htime, htotal, hpost⟩ | ⟨he, hpost⟩ | ⟨he, hpost⟩
  · have hhits : hitsOf key (h.record pid o did seen w).log = x :: hitsOf key h.log :=
      hitsOf_cons_hit he
    have hevents : events key (h.record pid o did seen w).log = .hit x :: events key h.log :=
      events_cons_some he
    -- A call that hits has no hit so far.
    have hnew : ∀ y ∈ hitsOf key h.log, x.pid ≠ y.pid := by
      intro y hy hxy
      obtain ⟨k, windowMs, hop⟩ := evalIncrement_of_event? he
      have hown := mem_hitsOf_own hy
      rw [← hxy, hpid, ho.2.2 k windowMs hop key] at hown
      cases hown
    have htime' : x.time = h.world.now := htime
    have hpast : ∀ y ∈ hitsOf key h.log, y.time ≤ w.now := by
      rw [hnow]
      exact hc.past
    constructor
    case slot =>
      rw [hevents]
      exact hpost
    case answered =>
      rw [hevents]
      exact ⟨htotal, hc.answered⟩
    case past =>
      rw [hhits]
      exact List.forall_mem_cons.mpr ⟨by rw [htime', ← hnow]; exact Nat.le_refl _, hpast⟩
    case ordered =>
      rw [hhits]
      refine List.pairwise_cons.mpr ⟨fun y hy => ?_, hc.ordered⟩
      rw [htime']
      exact hc.past y hy
    case once =>
      rw [hhits]
      exact List.pairwise_cons.mpr ⟨hnew, hc.once⟩
  · -- The window is over, and no hit has come.
    have hhits : hitsOf key (h.record pid o did seen w).log = hitsOf key h.log :=
      hitsOf_cons_of_ne fun x hx => by
        rw [he] at hx
        cases hx
    have hevents : events key (h.record pid o did seen w).log = .reset :: events key h.log :=
      events_cons_some he
    refine hc.of_hits ?slot ?answered hhits hnow.ge
    case slot =>
      rw [hevents]
      exact hpost
    case answered =>
      rw [hevents]
      exact hc.answered
  · have hevents : events key (h.record pid o did seen w).log = events key h.log :=
      events_cons_none he
    refine hc.of_hits ?slot ?answered (congrArg hits hevents) hnow.ge
    case slot =>
      rw [hevents]
      exact hpost.trans hc.slot
    case answered =>
      rw [hevents]
      exact hc.answered

/-- The programs of the calls hit at most once, and a call of `increment` that returned did. -/
theorem body_wp {W : ℕ} {c : Call} (hc : c.store.windowMs = W ∧ c.KeepsHits) (pid : ℕ) :
    wp (machine.ownLog pid (Step W))
      (fun r l => ∀ s key res, c = .increment s key → r = .ok (some res) →
        ∃ x ∈ hitsOf (s.fullKey key) l, x.totalHits = res.totalHits.toNat) c.body [] := by
  cases c with
  | increment s key =>
    have hstart : Step W [] (.evalIncrement (s.fullKey key) s.windowMs) :=
      ⟨hc.1, trivial, fun _ _ _ _ => rfl⟩
    refine wp_bind.mpr (wp_ownLog_bind (fun e l => ?_) hstart fun w did v w' hans => ?_)
    · rintro _ _ _ _ ⟨⟩
    · obtain rfl := hans.did_eq
      -- The call's own hit is what its answer counts.
      have hevent : event? (s.fullKey key)
          ⟨pid, .evalIncrement (s.fullKey key) s.windowMs, w, .ok v, .ok v, w'⟩ =
            some (.hit ⟨pid, w.now, v.1.toNat⟩) := if_pos rfl
      obtain ⟨hits, ttl⟩ := v
      have hmem : ⟨pid, w.now, hits.toNat⟩ ∈ hitsOf (s.fullKey key)
          [(⟨pid, .evalIncrement (s.fullKey key) s.windowMs, w, .ok (hits, ttl), .ok (hits, ttl),
            w'⟩ : LogEntry)] := mem_hitsOf.mpr ⟨_, List.mem_singleton_self _, hevent⟩
      show wp _ _ (if 0 ≤ ttl then _ else _) _
      split
      · have hnow : Step W [(⟨pid, .evalIncrement (s.fullKey key) s.windowMs, w, .ok (hits, ttl),
            .ok (hits, ttl), w'⟩ : LogEntry)] .now :=
          ⟨trivial, trivial, fun _ _ h => by cases h⟩
        refine wp_ownLog_bind (fun e l => ?_) hnow fun w₁ did clock w₂ hans => ?_
        · rintro _ _ _ _ ⟨⟩
        · rintro s' key' res ⟨⟩ ⟨⟩
          obtain ⟨e, he, heq⟩ := mem_hitsOf.mp hmem
          exact ⟨_, mem_hitsOf.mpr ⟨e, List.mem_cons_of_mem _ he, heq⟩, rfl⟩
      · rintro s' key' res ⟨⟩ ⟨⟩
        exact ⟨_, hmem, rfl⟩
  | decrement s key => exact hc.2.elim
  | resetKey s key =>
    have hstart : Step W [] (.del (s.fullKey key)) := ⟨trivial, trivial, fun _ _ h => by cases h⟩
    refine wp_bind.mpr (wp_ownLog_bind (fun e l => ?_) hstart fun w did v w' hans => ?_)
    · rintro _ _ _ _ ⟨⟩
    · rintro _ _ _ ⟨⟩

/-! ## What the store shows, and what it answers -/

/-- The key exists exactly during the latest window, from its first hit on, until the time `W` has
passed. It then holds the number of the hits, and has the rest of the time to live. -/
structure ShowsWindow (W : ℕ) (key : String) (h : Hist interface String World) : Prop where
  missing : window W (events key h.log) = [] → h.world.redis.lookup h.world.now key = none
  lasts : ∀ first ∈ (window W (events key h.log)).getLast?,
    h.world.redis.lookup h.world.now key =
      if h.world.now < first.time + W then some (window W (events key h.log)).length else none
  ttl : ∀ first ∈ (window W (events key h.log)).getLast?, h.world.now < first.time + W →
    h.world.redis.pttl h.world.now key = ((first.time + W : ℕ) : ℤ) - h.world.now
  expires : (h.world.redis.lookup h.world.now key).isSome = true →
    0 < h.world.redis.pttl h.world.now key

/-- The hits of the latest window of a log belong to different calls and lie within the time `W`
from the first one. They are answered with the numbers from one on, so at most `limit` of them with
a number up to `limit`. -/
structure NumbersHits (W : ℕ) (key : String) (l : List LogEntry) : Prop where
  calls : (window W (events key l)).Pairwise (·.pid ≠ ·.pid)
  within : ∀ first ∈ (window W (events key l)).getLast?, ∀ x ∈ window W (events key l),
    first.time ≤ x.time ∧ x.time < first.time + W
  numbered : (window W (events key l)).map (·.totalHits) =
    (List.range' 1 (window W (events key l)).length).reverse
  limited : ∀ limit, (window W (events key l)).countP (·.totalHits ≤ limit) ≤ limit

section

variable {W : ℕ} {key : String} {h : Hist interface String World}

/-- What the invariant says of the present. -/
theorem Counts.showsWindow (hc : Counts W key h) : ShowsWindow W key h := by
  have hslot := hc.slot
  -- The slot holds the count of the window, and expires with it.
  rw [counter_eq] at hslot
  have hlookup : ∀ first ∈ (window W (events key h.log)).getLast?,
      h.world.redis.strings key =
        some ⟨((window W (events key h.log)).length : ℤ), some (first.time + W)⟩ := by
    intro first hfirst
    rw [hslot, Option.mem_def.mp hfirst]
    rfl
  have hlasts : ∀ first ∈ (window W (events key h.log)).getLast?,
      h.world.redis.lookup h.world.now key =
        if h.world.now < first.time + W then
          some (window W (events key h.log)).length else none := by
    intro first hfirst
    unfold Redis.lookup
    rw [hlookup first hfirst]
    by_cases hlt : h.world.now < first.time + W
    · simp [Slot.live, hlt]
    · simp [Slot.live, hlt]
  have hmissing : window W (events key h.log) = [] →
      h.world.redis.lookup h.world.now key = none := by
    intro hnil
    unfold Redis.lookup
    rw [hslot, hnil]
    rfl
  have httl : ∀ first ∈ (window W (events key h.log)).getLast?, h.world.now < first.time + W →
      h.world.redis.pttl h.world.now key = ((first.time + W : ℕ) : ℤ) - h.world.now := by
    intro first hfirst hlt
    have hlive : h.world.redis.slot? h.world.now key =
        some ⟨((window W (events key h.log)).length : ℤ), some (first.time + W)⟩ := by
      unfold Redis.slot?
      rw [hlookup first hfirst, Option.filter_some]
      exact if_pos (decide_eq_true hlt)
    unfold Redis.pttl
    rw [hlive]
  refine ⟨hmissing, hlasts, httl, fun hsome => ?_⟩
  cases hfirst : (window W (events key h.log)).getLast? with
  | none =>
    rw [hmissing (List.getLast?_eq_none_iff.mp hfirst)] at hsome
    cases hsome
  | some first =>
    -- With a counter there is a window, and its time has not run out.
    rw [hlasts first hfirst] at hsome
    split at hsome
    · next hlt =>
      rw [httl first hfirst hlt]
      omega
    · cases hsome

/-- What the invariant says of every window there was. -/
theorem Counts.numbersHits (hW : 0 < W) (hc : Counts W key h) {l : List LogEntry}
    (hl : l <:+ h.log) : NumbersHits W key l := by
  have hevents : events key l <:+ events key h.log := hl.filterMap _
  have hhits : hitsOf key l <:+ hitsOf key h.log := hevents.filterMap _
  have hanswered : Answered W (events key l) := hc.answered.of_suffix hevents
  have hordered : (hitsOf key l).Pairwise (·.time ≥ ·.time) := hc.ordered.sublist hhits.sublist
  have honce : (hitsOf key l).Pairwise (·.pid ≠ ·.pid) := hc.once.sublist hhits.sublist
  constructor
  case calls =>
    exact honce.sublist (window_isPrefix_hits W _).sublist
  case within =>
    intro first hfirst x hx
    exact ⟨le_of_mem_window hordered hx hfirst, lt_of_mem_window hW hx hfirst⟩
  case numbered =>
    exact hanswered.numbered
  case limited =>
    exact hanswered.countP_le

/-- The hits of a window have positive numbers. -/
theorem NumbersHits.pos {l : List LogEntry} (hn : NumbersHits W key l) {x : Hit}
    (hx : x ∈ window W (events key l)) : 0 < x.totalHits := by
  have hmem : x.totalHits ∈ (window W (events key l)).map (·.totalHits) :=
    List.mem_map_of_mem hx
  rw [hn.numbered, List.mem_reverse, List.mem_range'_1] at hmem
  exact hmem.1

end

/-- From an empty store, whatever the instances do and however the time passes, the counters are
those of fixed windows. -/
theorem fixedWindow_holds {W : ℕ} (hW : 0 < W) {cfg : (system W).Config}
    (hr : (system W).Reachable (fun w => ∀ key, w.redis.strings key = none) cfg) :
    (∀ key, ShowsWindow W key cfg.hist) ∧
      (∀ key l, l <:+ cfg.hist.log → NumbersHits W key l) ∧
      ∀ pid s key res, cfg.procs[pid]? = some (.increment s key, .ret (some res)) →
        ∃ l x, l <:+ cfg.hist.log ∧ (window W (events (s.fullKey key) l)).head? = some x ∧
          x.pid = pid ∧ (x.totalHits : ℤ) = res.totalHits := by
  have hinit : ∀ w : World, (∀ key, w.redis.strings key = none) → ∀ key, Counts W key ⟨w, []⟩ :=
    fun w hw key => ⟨hw key, trivial, fun x hx => (List.not_mem_nil hx).elim, .nil, .nil⟩
  -- Time changes no slot.
  have henv : ∀ (h : Hist interface String World) (w : World), (∀ key, Counts W key h) →
      (system W).env h.world w → ∀ key, Counts W key (h.withWorld w) := by
    rintro h w hc ⟨hredis, hnow⟩ key
    refine (hc key).of_hits ?_ (hc key).answered rfl hnow
    rw [Hist.withWorld_world, hredis]
    exact (hc key).slot
  obtain ⟨hcounts, hreturned⟩ := @System.keeps_of_ownLog _ _ _ _ (system W) _ (fun _ _ => Step W)
    (fun _ c r l => ∀ s key res, c = .increment s key → r = .ok (some res) →
      ∃ x ∈ hitsOf (s.fullKey key) l, x.totalHits = res.totalHits.toNat)
    (fun h => ∀ key, Counts W key h) (fun pid c hc => body_wp hc pid) hinit henv
    (fun pid c o h did seen w ho hc _ hans key => (hc key).step ho hans) cfg hr
  have hnumbers : ∀ key l, l <:+ cfg.hist.log → NumbersHits W key l :=
    fun key l hl => (hcounts key).numbersHits hW hl
  refine ⟨fun key => (hcounts key).showsWindow, hnumbers, fun pid s key res hp => ?_⟩
  -- The answer is the count of the call's own hit, which was the newest one at its time.
  obtain ⟨x, hx, htotal⟩ := hreturned pid _ _ hp s key res rfl rfl
  obtain ⟨hlog, hpid⟩ := hitsOf_own hx
  obtain ⟨l, hl, hhead⟩ := exists_window_of_mem_hitsOf W hlog
  have hpos : 0 < x.totalHits :=
    (hnumbers _ l hl).pos (List.mem_of_mem_head? hhead)
  have heq : (x.totalHits : ℤ) = res.totalHits := by omega
  exact ⟨l, x, hl, hhead, hpid, heq⟩

instance (W : ℕ) : DecidablePred (system W).valid :=
  fun (c : Call) => inferInstanceAs (Decidable (c.store.windowMs = W ∧ c.KeepsHits))

/-- An instance of the store. -/
def sharedStore : RedisRateLimitStore := ⟨"rl:api:", 1000⟩

/-- Two hits in one window, a third one when it is over, a reset, and a hit after it. -/
def fourHits : List (System.Action (system 1000)) :=
  List.flatten [[.spawn (.increment sharedStore "ip"), .spawn (.increment sharedStore "ip"),
    .spawn (.increment sharedStore "ip"), .spawn (.resetKey sharedStore "ip"),
    .spawn (.increment sharedStore "ip")],
    System.turns _ 0 (0 : ℕ) 2, System.turns _ 1 (0 : ℕ) 2,
    [waits 1000],
    System.turns _ 2 (0 : ℕ) 2, System.turns _ 3 (0 : ℕ) 1, System.turns _ 4 (0 : ℕ) 2]

/-- Two overlapping hits, one after the window, and one after a reset. -/
theorem fixedWindow_holds_fourHits :
    ∃ cfg : (system 1000).Config,
      (system 1000).Reachable (fun w => ∀ key, w.redis.strings key = none) cfg ∧
        (hitsOf "rl:api:ip" cfg.hist.log).map (fun x => (x.pid, x.time, x.totalHits)) =
          [(4, 1000, 1), (2, 1000, 1), (1, 0, 2), (0, 0, 1)] ∧
        ShowsWindow 1000 "rl:api:ip" cfg.hist ∧
        ∀ l, l <:+ cfg.hist.log → NumbersHits 1000 "rl:api:ip" l := by
  obtain ⟨cfg, hplay, hhits⟩ : ∃ cfg, (system 1000).play fourHits ((system 1000).start ⟨{}, 0⟩) =
      some cfg ∧ (hitsOf "rl:api:ip" cfg.hist.log).map (fun x => (x.pid, x.time, x.totalHits)) =
        [(4, 1000, 1), (2, 1000, 1), (1, 0, 2), (0, 0, 1)] :=
    System.exists_of_play (by decide +kernel)
  have hr : (system 1000).Reachable (fun w => ∀ key, w.redis.strings key = none) cfg :=
    System.reachable_of_play (fun _ _ _ => trivial) (.start fun _ => rfl) hplay
  obtain ⟨hshows, hnumbers, -⟩ := fixedWindow_holds (by decide) hr
  exact ⟨cfg, hr, hhits, hshows _, hnumbers _⟩

end RateLimit

end SplitBill
