import Mathlib.Algebra.Order.Ring.Cast
import Mathlib.Algebra.Order.Ring.Rat
import SplitBill.Js.Str

/-!
# Doubles

JavaScript's numbers as they are compared and tested: a finite one is the rational number that it
stands for, so that the two zeros are one, and every comparison with `NaN` is false. How a sum is
rounded and how a number is written are parameters (`Arithmetic`).
-/

namespace SplitBill.Js

/-- A number. -/
inductive Double
  | nan
  | infinite (negative : Bool)
  | finite (q : ℚ)
  deriving DecidableEq

namespace Double

/-- `a <= b`. -/
def le : Double → Double → Bool
  | nan, _ | _, nan => false
  | infinite true, _ | _, infinite false => true
  | infinite false, _ | _, infinite true => false
  | finite a, finite b => a ≤ b

/-- `a < b`. -/
def lt (a b : Double) : Bool := a.le b && !b.le a

/-- `Number.isFinite(value)`. -/
def isFinite : Double → Bool
  | finite _ => true
  | _ => false

/-- `Number.isInteger(value)`. -/
def isInteger : Double → Bool
  | finite q => q.den = 1
  | _ => false

/-- `<=` is transitive, and false for NaN. -/
theorem le_trans {a b c : Double} (hab : a.le b = true) (hbc : b.le c = true) : a.le c = true := by
  rcases a with _ | ⟨_ | _⟩ | a <;> rcases b with _ | ⟨_ | _⟩ | b <;>
    rcases c with _ | ⟨_ | _⟩ | c <;> simp_all [le]
  exact hab.trans hbc

/-- `<` is stronger than `<=`. -/
theorem le_of_lt {a b : Double} (h : a.lt b = true) : a.le b = true :=
  (Bool.and_eq_true_iff.mp h).1

/-- `Number.isInteger` holds of the integers only. -/
theorem isInteger_iff {x : Double} : x.isInteger = true ↔ ∃ a : ℤ, x = finite a := by
  constructor
  · intro h
    cases x with
    | nan => cases h
    | infinite negative => cases h
    | finite q =>
      exact ⟨q.num, congrArg finite ((Rat.den_eq_one_iff q).mp (of_decide_eq_true h)).symm⟩
  · rintro ⟨a, rfl⟩
    exact decide_eq_true (Rat.den_intCast a)

/-- `<=` on integers is their order. -/
theorem le_intCast (a b : ℤ) : (finite a).le (finite b) = true ↔ a ≤ b := by
  show decide ((a : ℚ) ≤ b) = true ↔ a ≤ b
  rw [decide_eq_true_eq, Int.cast_le]

/-- `<` on integers is their strict order. -/
theorem lt_intCast (a b : ℤ) : (finite a).lt (finite b) = true ↔ a < b := by
  unfold lt
  rw [Bool.and_eq_true, Bool.not_eq_true', ← Bool.not_eq_true, le_intCast, le_intCast]
  omega

/-- A natural number is an integer. -/
@[simp] theorem isInteger_natCast (n : ℕ) : (finite n).isInteger = true := by
  simp [isInteger]

end Double

/-- What is rounded or written. -/
structure Arithmetic where
  /-- `a + b`. -/
  add : Double → Double → Double
  /-- A decimal literal. -/
  literal : ℚ → Double
  /-- `String(value)`. -/
  toString : Double → Str
  /-- `Number(value.toFixed(6))`. -/
  toFixed6 : Double → Double

end SplitBill.Js
