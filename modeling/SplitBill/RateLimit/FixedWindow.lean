import Mathlib.Data.List.Nodup
import Mathlib.Data.Nat.Notation
import Mathlib.Logic.Function.Basic

/-!
# Counters over fixed windows

A counter numbers hits. Its first hit opens a window of a fixed length `W`, the hits within the
window are numbered from one, and the first hit after the window has ended opens the next one. A
reset closes the window at once.

A counter keeps no more than the latest number and the end of the window (`Counter`). `window` says
which hits the window holds, without a counter, and `counter_eq` that the two agree. Of counters
that several kinds of hits share, `replies` tells the numbers that a list of hits is given.
-/

namespace SplitBill.FixedWindow

/-- A hit: whose it was, when it was, and the number that it was given. -/
structure Hit where
  pid : ℕ
  time : ℕ
  totalHits : ℕ
  deriving DecidableEq

/-- What happens to a counter. -/
inductive Event
  | hit (h : Hit)
  | reset

/-- A counter: the number of the latest hit, and the first instant at which the window is over. -/
structure Counter where
  totalHits : ℕ
  resetTime : ℕ
  deriving DecidableEq

/-- The counter after a hit at the instant `now`. -/
def Counter.hit (W now : ℕ) : Option Counter → Counter
  | some c => if now < c.resetTime then ⟨c.totalHits + 1, c.resetTime⟩ else ⟨1, now + W⟩
  | none => ⟨1, now + W⟩

/-- A hit has a positive number. -/
theorem Counter.hit_pos (W now : ℕ) (c : Option Counter) : 0 < (Counter.hit W now c).totalHits := by
  unfold Counter.hit
  split
  · split
    · exact Nat.succ_pos _
    · exact Nat.one_pos
  · exact Nat.one_pos

/-- The counter after some events, the latest one first. -/
def counter (W : ℕ) : List Event → Option Counter
  | [] => none
  | .hit h :: es => some (.hit W h.time (counter W es))
  | .reset :: _ => none

/-! ## The hits of a window -/

/-- The window of the hits, the latest one first, is not over at the instant `now`. -/
def Open (W now : ℕ) (hits : List Hit) : Prop := ∃ first ∈ hits.getLast?, now < first.time + W

instance (W now : ℕ) (hits : List Hit) : Decidable (Open W now hits) := by
  unfold Open
  infer_instance

/-- The hits of the latest window, the latest one first. The window starts with a hit that no open
window covers, and ends with a reset or when the time `W` has passed since. -/
def window (W : ℕ) : List Event → List Hit
  | [] => []
  | .hit h :: es => if Open W h.time (window W es) then h :: window W es else [h]
  | .reset :: _ => []

/-- The hits were given the numbers of the counter. -/
def Answered (W : ℕ) : List Event → Prop
  | [] => True
  | .hit h :: es => h.totalHits = (Counter.hit W h.time (counter W es)).totalHits ∧ Answered W es
  | .reset :: es => Answered W es

section

variable {W : ℕ} {es : List Event}

/-- The counter has the number of the hits of the window, and the window's end. -/
theorem counter_eq (W : ℕ) (es : List Event) :
    counter W es = (window W es).getLast?.map fun first =>
      ⟨(window W es).length, first.time + W⟩ := by
  induction es with
  | nil => rfl
  | cons e es ih =>
    cases e with
    | reset => rfl
    | hit h =>
      simp only [counter, window, ih]
      -- The hit opens a window, or it falls into the open one.
      cases hlast : (window W es).getLast? with
      | none =>
        have hclosed : ¬Open W h.time (window W es) := by simp [Open, hlast]
        rw [if_neg hclosed]
        rfl
      | some first =>
        by_cases hlt : h.time < first.time + W
        · have hopen : Open W h.time (window W es) := ⟨first, hlast, hlt⟩
          have hcons : (h :: window W es).getLast? = some first := by
            rw [List.getLast?_cons, hlast]
            rfl
          rw [if_pos hopen, hcons]
          simp [Counter.hit, hlt]
        · have hclosed : ¬Open W h.time (window W es) := by simpa [Open, hlast] using hlt
          rw [if_neg hclosed]
          simp [Counter.hit, hlt]

/-- A counter has counted a hit. -/
theorem counter_pos {c : Counter} (h : c ∈ counter W es) : 0 < c.totalHits := by
  rw [counter_eq] at h
  obtain ⟨first, hfirst, rfl⟩ := Option.map_eq_some_iff.mp h
  exact List.length_pos_of_mem (List.mem_of_getLast? hfirst)

/-- A hit is the latest one of its window. -/
theorem window_hit (W : ℕ) (h : Hit) (es : List Event) :
    ∃ earlier, window W (.hit h :: es) = h :: earlier ∧
      (earlier = window W es ∨ earlier = []) := by
  by_cases hopen : Open W h.time (window W es)
  · exact ⟨window W es, if_pos hopen, .inl rfl⟩
  · exact ⟨[], if_neg hopen, .inr rfl⟩

/-- The first hit of the window that a hit belongs to. -/
theorem getLast?_window_hit (W : ℕ) (x : Hit) (es : List Event) :
    (window W (.hit x :: es)).getLast? =
      if Open W x.time (window W es) then (window W es).getLast? else some x := by
  have hwindow : window W (.hit x :: es) =
      if Open W x.time (window W es) then x :: window W es else [x] := rfl
  by_cases hopen : Open W x.time (window W es)
  · obtain ⟨first, hfirst, -⟩ := id hopen
    rw [hwindow, if_pos hopen, if_pos hopen, List.getLast?_cons, Option.mem_def.mp hfirst]
    rfl
  · rw [hwindow, if_neg hopen, if_neg hopen]
    rfl

/-- What was answered by the counter was so at any time before. -/
theorem Answered.of_suffix {es' : List Event} (h : Answered W es') (hsuffix : es <:+ es') :
    Answered W es := by
  induction es' with
  | nil => exact List.suffix_nil.mp hsuffix ▸ h
  | cons e es' ih =>
    rcases List.suffix_cons_iff.mp hsuffix with rfl | hrest
    · exact h
    · cases e with
      | reset => exact ih h hrest
      | hit x => exact ih h.2 hrest

/-- The number of a hit is its place in the window. -/
theorem totalHits_hit (W : ℕ) (h : Hit) (es : List Event) :
    (Counter.hit W h.time (counter W es)).totalHits = (window W (.hit h :: es)).length := by
  have heq : counter W (.hit h :: es) = some (Counter.hit W h.time (counter W es)) := rfl
  rw [counter_eq] at heq
  obtain ⟨first, -, hfirst⟩ := Option.map_eq_some_iff.mp heq
  rw [← hfirst]

/-- Within a window the hits are numbered from one, without repetition and without a gap. -/
theorem Answered.numbered (h : Answered W es) :
    (window W es).map (·.totalHits) = (List.range' 1 (window W es).length).reverse := by
  induction es with
  | nil => rfl
  | cons e es ih =>
    cases e with
    | reset => rfl
    | hit x =>
      have hnumber : x.totalHits = (window W (.hit x :: es)).length := by
        rw [← totalHits_hit]
        exact h.1
      obtain ⟨earlier, hwindow, rfl | rfl⟩ := window_hit W x es
      · rw [hwindow, List.length_cons] at hnumber
        rw [hwindow, List.map_cons, ih h.2, hnumber, List.length_cons, List.range'_1_concat,
          List.reverse_append, Nat.add_comm 1]
        rfl
      · rw [hwindow, List.length_singleton] at hnumber
        rw [hwindow, List.map_singleton, hnumber]
        rfl

/-- Of the numbers from one to `n`, as many are up to `limit` as there are up to the smaller one. -/
theorem countP_range' (n limit : ℕ) : (List.range' 1 n).countP (· ≤ limit) = min n limit := by
  induction n with
  | zero => simp
  | succ n ih =>
    rw [List.range'_1_concat, List.countP_append, ih, List.countP_singleton]
    by_cases hle : 1 + n ≤ limit
    · simp only [hle, decide_true, if_true]
      omega
    · simp only [hle, decide_false, Bool.false_eq_true, if_false]
      omega

/-- At most `limit` hits of a window have a number up to `limit`. -/
theorem Answered.countP_le (h : Answered W es) (limit : ℕ) :
    (window W es).countP (·.totalHits ≤ limit) ≤ limit := by
  have hcount : (window W es).countP (·.totalHits ≤ limit) =
      ((window W es).map (·.totalHits)).countP (· ≤ limit) := by
    rw [List.countP_map]
    rfl
  rw [hcount, h.numbered, List.countP_reverse, countP_range']
  exact Nat.min_le_right _ _

/-- The hit that an event is. -/
def Event.hit? : Event → Option Hit
  | hit h => some h
  | reset => none

/-- The hits among the events. -/
def hits (es : List Event) : List Hit := es.filterMap Event.hit?

/-- The hits are those of the events. -/
theorem mem_hits {h : Hit} : h ∈ hits es ↔ .hit h ∈ es := by
  unfold hits
  rw [List.mem_filterMap]
  constructor
  · rintro ⟨e, he, heq⟩
    cases e with
    | hit x =>
      obtain rfl := Option.some.inj heq
      exact he
    | reset => cases heq
  · exact fun h => ⟨_, h, rfl⟩

/-- The hits of a window are the latest ones. -/
theorem window_isPrefix_hits (W : ℕ) (es : List Event) : window W es <+: hits es := by
  induction es with
  | nil => exact List.prefix_rfl
  | cons e es ih =>
    cases e with
    | reset => exact List.nil_prefix
    | hit h =>
      have hhits : hits (.hit h :: es) = h :: hits es := rfl
      obtain ⟨earlier, hwindow, rfl | rfl⟩ := window_hit W h es
      · rw [hwindow, hhits]
        exact List.cons_prefix_cons.mpr ⟨rfl, ih⟩
      · rw [hwindow, hhits]
        exact List.cons_prefix_cons.mpr ⟨rfl, List.nil_prefix⟩

/-- The hits of a window are all within the time `W` of its first one. -/
theorem lt_of_mem_window (hW : 0 < W) {h first : Hit} (hmem : h ∈ window W es)
    (hfirst : (window W es).getLast? = some first) : h.time < first.time + W := by
  induction es with
  | nil => cases hmem
  | cons e es ih =>
    cases e with
    | reset => cases hmem
    | hit x =>
      -- A hit of the open window keeps its opener, any other hit is the opener.
      by_cases hopen : Open W x.time (window W es)
      · have hwindow : window W (.hit x :: es) = x :: window W es := if_pos hopen
        obtain ⟨opener, hopener, hlt⟩ := hopen
        rw [hwindow, List.getLast?_cons, Option.mem_def.mp hopener] at hfirst
        obtain rfl := Option.some.inj hfirst
        rw [hwindow] at hmem
        rcases List.mem_cons.mp hmem with rfl | hmem
        · exact hlt
        · exact ih hmem hopener
      · have hwindow : window W (.hit x :: es) = [x] := if_neg hopen
        rw [hwindow, List.getLast?_singleton] at hfirst
        rw [hwindow] at hmem
        rw [List.mem_singleton.mp hmem, ← Option.some.inj hfirst]
        omega

/-- If the hits are in order of time, the first one of a window is the earliest. -/
theorem le_of_mem_window (horder : (hits es).Pairwise (·.time ≥ ·.time)) {h first : Hit}
    (hmem : h ∈ window W es) (hfirst : (window W es).getLast? = some first) :
    first.time ≤ h.time := by
  have hpair := horder.sublist (window_isPrefix_hits W es).sublist
  obtain ⟨init, hinit⟩ := List.getLast?_eq_some_iff.mp hfirst
  rw [hinit] at hmem hpair
  rcases List.mem_append.mp hmem with hmem | hmem
  · exact (List.pairwise_append.mp hpair).2.2 h hmem first (List.mem_singleton_self _)
  · exact Nat.le_of_eq (congrArg Hit.time (List.mem_singleton.mp hmem)).symm

end

/-! ## Several counters -/

section Several

variable {ι : Type*} [DecidableEq ι] {W : ℕ}

/-- The numbers that hits of several counters are given, the first hit first. A hit is the counter
that it goes to, and its instant. -/
def replies (W : ℕ) : (ι → Option Counter) → List (ι × ℕ) → List ℕ
  | _, [] => []
  | m, (i, now) :: hits =>
    (Counter.hit W now (m i)).totalHits ::
      replies W (Function.update m i (some (.hit W now (m i)))) hits

/-- The number of the latest hit of a counter. -/
def latest : Option Counter → ℕ
  | none => 0
  | some c => c.totalHits

/-- Within the time `W` from `start` a hit gets the next number of its counter. -/
theorem totalHits_of_within {start now : ℕ} {c : Option Counter}
    (hc : ∀ x ∈ c, start + W ≤ x.resetTime) (hle : start ≤ now) (hlt : now < start + W) :
    (Counter.hit W now c).totalHits = latest c + 1 ∧
    start + W ≤ (Counter.hit W now c).resetTime := by
  cases c with
  | none =>
    have hreset : start + W ≤ now + W := by omega
    exact ⟨rfl, hreset⟩
  | some x =>
    have hreset : start + W ≤ x.resetTime := hc x rfl
    have hopen : now < x.resetTime := by omega
    have hhit : Counter.hit W now (some x) = ⟨x.totalHits + 1, x.resetTime⟩ := if_pos hopen
    rw [hhit]
    exact ⟨rfl, hreset⟩

/-- Within the time `W` the hits of each counter are numbered in turn. -/
theorem getElem?_replies {start : ℕ} {m : ι → Option Counter} {hits : List (ι × ℕ)}
    (hm : ∀ i, ∀ c ∈ m i, start + W ≤ c.resetTime)
    (hwithin : ∀ x ∈ hits, start ≤ x.2 ∧ x.2 < start + W) (k : ℕ) :
    (replies W m hits)[k]? = hits[k]?.map fun x =>
      latest (m x.1) + ((hits.take k).map (·.1)).count x.1 + 1 := by
  induction hits generalizing m k with
  | nil => rfl
  | cons x hits ih =>
    obtain ⟨i, now⟩ := x
    obtain ⟨hnow, hrest⟩ := List.forall_mem_cons.mp hwithin
    -- Every hit comes within the window of the first one, so that no counter starts anew.
    have hle : start ≤ now := hnow.1
    have hlt : now < start + W := hnow.2
    obtain ⟨htotal, hreset⟩ := totalHits_of_within (hm i) hle hlt
    cases k with
    | zero => simp [replies, htotal]
    | succ k =>
      have hm' : ∀ j, ∀ c ∈ Function.update m i (some (Counter.hit W now (m i))) j,
          start + W ≤ c.resetTime := by
        intro j c hc
        by_cases hj : j = i
        · subst hj
          rw [Function.update_self, Option.mem_some_iff] at hc
          rw [← hc]
          exact hreset
        · rw [Function.update_of_ne hj] at hc
          exact hm j c hc
      simp only [replies, List.getElem?_cons_succ, List.take_succ_cons, List.map_cons]
      rw [ih hm' hrest k]
      refine congrArg (hits[k]?.map ·) (funext fun y => ?_)
      by_cases hy : y.1 = i
      · rw [hy, Function.update_self, List.count_cons_self]
        show (Counter.hit W now (m i)).totalHits + _ + 1 = _
        omega
      · rw [Function.update_of_ne hy, List.count_cons_of_ne fun h => hy h.symm]

/-- The hits up to a limit are the same whether they are numbered together or each kind by itself,
if and only if there are no more than the limit or all of one kind. -/
theorem forall_rank_iff {is : List ι} {limit : ℕ} (hlimit : 0 < limit) :
    (∀ k, ∀ i ∈ is[k]?, k < limit ↔ (is.take k).count i < limit) ↔
      is.length ≤ limit ∨ ∃ i, ∀ j ∈ is, j = i := by
  constructor
  · intro h
    by_cases hlen : is.length ≤ limit
    · exact .inl hlen
    -- The first hit beyond the limit has `limit` hits of its kind before it, so all before it are.
    have hlast : limit < is.length := by omega
    have hcount : ¬(is.take limit).count is[limit] < limit := fun hlt =>
      Nat.lt_irrefl _ ((h limit _ (List.getElem?_eq_getElem hlast)).mpr hlt)
    have hfirst : ∀ j ∈ is.take limit, is[limit] = j := by
      have htake : (is.take limit).length = limit := by
        rw [List.length_take]
        omega
      have hle : (is.take limit).count is[limit] ≤ (is.take limit).length := List.count_le_length
      exact List.count_eq_length.mp (by omega)
    refine .inr ⟨is[limit], fun j hj => ?_⟩
    obtain ⟨k, hk, rfl⟩ := List.mem_iff_getElem.mp hj
    -- By induction on the place: a later hit has hits of its kind before it.
    induction k using Nat.strongRecOn with
    | ind k ih =>
      by_cases hkl : k < limit
      · apply (hfirst _ _).symm
        exact List.mem_take_iff_getElem.mpr ⟨k, Nat.lt_min.mpr ⟨hkl, hk⟩, rfl⟩
      · have hle : ¬(is.take k).count is[k] < limit := fun hlt =>
          hkl ((h k _ (List.getElem?_eq_getElem hk)).mpr hlt)
        have hpos : 0 < (is.take k).count is[k] := by omega
        obtain ⟨j, hjk, heq⟩ := List.mem_take_iff_getElem.mp (List.count_pos_iff.mp hpos)
        have hjlt : j < k := (Nat.lt_min.mp hjk).1
        rw [← heq]
        exact ih j hjlt _ (List.getElem_mem _)
  · intro h k i hi
    obtain ⟨hk, rfl⟩ := List.getElem?_eq_some_iff.mp hi
    have htake : (is.take k).length = k := by
      rw [List.length_take]
      omega
    have hle : (is.take k).count is[k] ≤ (is.take k).length := List.count_le_length
    rcases h with hlen | ⟨i, hall⟩
    · omega
    · have hsame : (is.take k).count is[k] = (is.take k).length := by
        apply List.count_eq_length.mpr
        intro j hj
        rw [hall _ (List.getElem_mem hk), hall j (List.mem_of_mem_take hj)]
      omega

end Several

end SplitBill.FixedWindow
