import Mathlib.Data.List.Basic
import Mathlib.Data.Nat.Notation

/-!
# Counting by thresholds

Values are counted at the first of some thresholds that they are below. If a value that is below a
threshold is below the later ones too, the values counted up to a threshold are those below it. What
a value and a threshold are does not matter, nor which values are below which threshold.
-/

namespace SplitBill.Cumulative

variable {V B : Type} (below : V → B → Bool) (bs : List B) (vs : List V)

/-- The values that are counted at a place. -/
def landing (i : ℕ) : ℕ := vs.countP fun v => bs.findIdx? (below v) = some i

/-- The values that are counted before a place. -/
def passed (i : ℕ) : ℕ := vs.countP fun v => (bs.findIdx? (below v)).any (· < i)

/-- Without values nothing is counted. -/
@[simp] theorem landing_nil (i : ℕ) : landing below bs [] i = 0 := rfl

/-- One more value is counted at the first place that it is below. -/
theorem landing_concat (v : V) (i : ℕ) :
    landing below bs (vs ++ [v]) i =
      landing below bs vs i + if bs.findIdx? (below v) = some i then 1 else 0 := by
  unfold landing
  rw [List.countP_append, List.countP_singleton]
  simp only [decide_eq_true_eq]

/-- No value is counted before the first place. -/
@[simp] theorem passed_zero : passed below bs vs 0 = 0 := by
  unfold passed
  rw [List.countP_eq_zero]
  intro v _
  cases bs.findIdx? (below v) <;> simp

/-- What is counted before the next place is counted before this one or at it. -/
theorem passed_succ (i : ℕ) :
    passed below bs vs (i + 1) = passed below bs vs i + landing below bs vs i := by
  unfold passed landing
  induction vs with
  | nil => rfl
  | cons v vs ih =>
    rw [List.countP_cons, List.countP_cons, List.countP_cons, ih]
    cases hfirst : bs.findIdx? (below v) with
    | none => simp only [Option.any_none, reduceCtorEq, decide_false, Bool.false_eq_true, if_false,
        Nat.add_zero]
    | some j =>
      -- A value is counted at one place.
      simp only [Option.any_some, Option.some.injEq, decide_eq_true_eq]
      split_ifs <;> omega

/-- The values that are counted up to a place are those below its threshold. -/
theorem passed_succ_eq {below bs}
    (hbelow : bs.Pairwise fun b b' => ∀ v, below v b = true → below v b' = true) {i : ℕ} {b : B}
    (hi : bs[i]? = some b) : passed below bs vs (i + 1) = vs.countP (below · b) := by
  unfold passed
  congr 1
  funext v
  obtain ⟨hlen, hb⟩ := List.getElem?_eq_some_iff.mp hi
  rw [Bool.eq_iff_iff]
  constructor
  · intro h
    obtain ⟨j, hj, hlt⟩ := (Option.any_eq_true _ _).mp h
    obtain ⟨hjlen, hbelowj, -⟩ := List.findIdx?_eq_some_iff_getElem.mp hj
    have hle : j ≤ i := Nat.le_of_lt_succ (of_decide_eq_true hlt)
    rcases Nat.lt_or_eq_of_le hle with hlt | rfl
    · rw [← hb]
      exact List.pairwise_iff_getElem.mp hbelow j i hjlen hlen hlt v hbelowj
    · rw [← hb]
      exact hbelowj
  · intro h
    -- The first threshold is no later than this one.
    cases hfirst : bs.findIdx? (below v) with
    | none =>
      have hnone := List.findIdx?_eq_none_iff.mp hfirst b (List.mem_of_getElem? hi)
      rw [h] at hnone
      cases hnone
    | some j =>
      obtain ⟨hjlen, -, hearlier⟩ := List.findIdx?_eq_some_iff_getElem.mp hfirst
      have hle : j ≤ i := by
        by_contra hgt
        have hnot := hearlier i (by omega)
        rw [hb] at hnot
        exact hnot h
      simpa using Nat.lt_succ_of_le hle

end SplitBill.Cumulative
