import Mathlib.Algebra.Order.Group.Unbundled.Int
import Mathlib.Data.Nat.Log
import Mathlib.Tactic.Linarith

/-!
# `Number`

`Number(n)` of a `bigint`: the nearest double, and of two equally near ones the one with an even
significand. A double that a `bigint` rounds to is an integer again, so the result is written as
one. The largest double is left out, since no sum of stored amounts comes near it.
-/

namespace SplitBill.Js

/-- A natural number rounded to 53 significant bits. -/
def roundNat (n : ℕ) : ℕ :=
  if n < 2 ^ 53 then n
  else
    let ulp := 2 ^ (Nat.log 2 n - 52)
    let q := n / ulp
    let r := n % ulp
    if ulp < 2 * r ∨ ulp = 2 * r ∧ q % 2 = 1 then (q + 1) * ulp else q * ulp

/-- `Number` of a `bigint`. -/
def number (n : ℤ) : ℤ := n.sign * roundNat n.natAbs

/-- `Number.MAX_SAFE_INTEGER`. -/
def maxSafeInteger : ℤ := 2 ^ 53 - 1

/-- A `bigint` that a double can hold. -/
def Representable (n : ℤ) : Prop := number n = n

instance : DecidablePred Representable := fun n => inferInstanceAs (Decidable (number n = n))

/-- `Number` is exact up to `2 ^ 53`. -/
theorem representable_of_abs_le {n : ℤ} (h : |n| ≤ 2 ^ 53) : Representable n := by
  have hround : roundNat n.natAbs = n.natAbs := by
    have hle : n.natAbs ≤ 2 ^ 53 := by
      rw [Int.abs_eq_natAbs] at h
      exact_mod_cast h
    rcases hle.lt_or_eq with hlt | heq
    · rw [roundNat, if_pos hlt]
    · rw [heq]
      decide
  rw [Representable, number, hround]
  exact Int.sign_mul_natAbs n

/-- Rounding leads to no number below `2 ^ 53` from one that is not. -/
theorem le_roundNat {n : ℕ} (h : 2 ^ 53 ≤ n) : 2 ^ 53 ≤ roundNat n := by
  have hlog : 53 ≤ Nat.log 2 n := Nat.le_log_of_pow_le (by decide) h
  have hpow : 2 ^ Nat.log 2 n = 2 ^ 52 * 2 ^ (Nat.log 2 n - 52) := by
    rw [← pow_add]
    congr 1
    omega
  have hle : 2 ^ Nat.log 2 n ≤ n := Nat.pow_log_le_self 2 (by omega)
  have hq : 2 ^ 52 ≤ n / 2 ^ (Nat.log 2 n - 52) := by
    rw [Nat.le_div_iff_mul_le (Nat.pow_pos (by decide)), ← hpow]
    exact hle
  have hfloor : 2 ^ 53 ≤ n / 2 ^ (Nat.log 2 n - 52) * 2 ^ (Nat.log 2 n - 52) :=
    calc 2 ^ 53 ≤ 2 ^ Nat.log 2 n := Nat.pow_le_pow_right (by decide) hlog
      _ = 2 ^ 52 * 2 ^ (Nat.log 2 n - 52) := hpow
      _ ≤ n / 2 ^ (Nat.log 2 n - 52) * 2 ^ (Nat.log 2 n - 52) := Nat.mul_le_mul_right _ hq
  rw [roundNat, if_neg (by omega)]
  dsimp only
  split
  · exact hfloor.trans (Nat.mul_le_mul_right _ (Nat.le_succ _))
  · exact hfloor

/-- So a positive integer is safe before it is rounded if it is safe after. -/
theorem number_le_maxSafeInteger {n : ℤ} (hn : 0 < n) :
    number n ≤ maxSafeInteger ↔ n ≤ maxSafeInteger := by
  by_cases h : n ≤ maxSafeInteger
  · have habs : |n| ≤ 2 ^ 53 := by
      rw [abs_of_pos hn]
      unfold maxSafeInteger at h
      omega
    rw [show number n = n from representable_of_abs_le habs]
  · have hlarge : 2 ^ 53 ≤ n.natAbs := by
      unfold maxSafeInteger at h
      omega
    have hround : number n = roundNat n.natAbs := by
      rw [number, Int.sign_eq_one_of_pos hn, one_mul]
    have hle := le_roundNat hlarge
    refine iff_of_false (fun hsafe => ?_) h
    rw [hround] at hsafe
    unfold maxSafeInteger at hsafe
    omega

/-- The first integer that `Number` changes. -/
example : number (2 ^ 53 + 1) = 2 ^ 53 := by decide

end SplitBill.Js
