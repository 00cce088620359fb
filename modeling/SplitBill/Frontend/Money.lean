import Mathlib.Computability.RegularExpressions
import Mathlib.Data.Rat.Cast.Order
import Mathlib.Tactic.FieldSimp
import SplitBill.Expenses.Split

/-!
# Money in the client

`src/frontend/lib/core/utils/money.dart`. An `int` of Dart has 64 bits; `+`, `*` and `-` wrap
around, `~/` rounds towards zero and `%` is never negative. What the user enters is read as a
decimal numeral and scaled to minor units, which is exact unless the digits fit an `int` and the
scaled amount does not. An amount is split as the server splits it, unless it is negative and does
not divide evenly.
-/

namespace SplitBill.Frontend

/-- What the code throws. -/
inductive DartError
  | formatException (message : String)
  | argumentError (value : Int64) (name message : String)
  deriving DecidableEq

/-- `Money`. -/
structure Money where
  minorUnits : Int64
  currencyCode : String := "PKR"
  deriving DecidableEq

/-! ## Reading an amount -/

/-- The characters that `\s` matches. -/
def isWhitespace (c : Char) : Bool :=
  c.toNat ∈ [0x9, 0xa, 0xb, 0xc, 0xd, 0x20, 0xa0, 0x1680, 0x2028, 0x2029, 0x202f, 0x205f, 0x3000,
    0xfeff] ∨ 0x2000 ≤ c.toNat ∧ c.toNat ≤ 0x200a

/-- `input.replaceAll(RegExp(r'[,\s]'), '')`. -/
def cleanAmount (input : String) : List Char :=
  input.toList.filter fun c => ¬(c = ',' ∨ isWhitespace c = true)

/-- The characters that `\d` matches. -/
def digits : List Char := "0123456789".toList

/-- `\d`. -/
def digit : RegularExpression Char := (digits.map .char).sum

/-- `^-?\d+(\.\d{1,2})?$`. -/
def amountPattern : RegularExpression Char :=
  (1 + .char '-') * (digit * digit.star) * (1 + .char '.' * (digit * (1 + digit)))

/-- `int.parse` of a list of digits. -/
def intParse (source : List Char) : Except DartError Int64 :=
  if Nat.ofDigitChars 10 source 0 < 2 ^ 63 then .ok (.ofNat (Nat.ofDigitChars 10 source 0))
  else .error (.formatException "Positive input exceeds the limit of integer")

/-- `Money.parse`. -/
def Money.parse (input : String) (currencyCode : Option String) : Except DartError Money := do
  let cleaned := cleanAmount input
  if amountPattern.rmatch cleaned = false then
    throw (.formatException "Enter a valid amount")
  let negative := cleaned.head? = some '-'
  let unsigned := if negative then cleaned.drop 1 else cleaned
  let parts := unsigned.splitOn '.'
  let whole ← intParse (parts.headD [])
  let fraction :=
    match parts[1]? with
    | some fraction => fraction.rightpad 2 '0'
    | none => ['0', '0']
  let value := whole * 100 + (← intParse fraction)
  return ⟨if negative then -value else value, currencyCode.getD "PKR"⟩

example : (Money.parse "1,200.5" none).toOption = some ⟨120050, "PKR"⟩ := by decide +kernel

/-! ## Decimal numerals -/

/-- A decimal numeral with at most two digits after its point. -/
structure Numeral where
  negative : Bool
  whole : List Char
  fraction : List Char
  whole_ne_nil : whole ≠ []
  whole_digits : ∀ c ∈ whole, c ∈ digits
  fraction_digits : ∀ c ∈ fraction, c ∈ digits
  fraction_length : fraction.length ≤ 2

namespace Numeral

/-- How a numeral is written; the point only stands before a digit. -/
def written (n : Numeral) : List Char :=
  (if n.negative then ['-'] else []) ++ n.whole ++
    if n.fraction = [] then [] else '.' :: n.fraction

/-- The number that is written before the point. -/
def wholeValue (n : Numeral) : ℕ := Nat.ofDigitChars 10 n.whole 0

/-- The value of a numeral. -/
def value (n : Numeral) : ℚ :=
  (if n.negative then -1 else 1) *
    (n.wholeValue + Nat.ofDigitChars 10 n.fraction 0 / 10 ^ n.fraction.length)

end Numeral

/-- The characters of a sum. -/
theorem mem_sum_char (cs w : List Char) :
    w ∈ (cs.map RegularExpression.char).sum.matches' ↔ ∃ c ∈ cs, w = [c] := by
  induction cs with
  | nil =>
    rw [List.map_nil, List.sum_nil, RegularExpression.matches'_zero]
    simp [Language.notMem_zero]
  | cons c cs ih =>
    rw [List.map_cons, List.sum_cons, RegularExpression.matches'_add, Language.mem_add, ih,
      List.exists_mem_cons_iff]
    exact Iff.rfl

/-- One digit. -/
theorem mem_digit (w : List Char) : w ∈ digit.matches' ↔ ∃ c ∈ digits, w = [c] :=
  mem_sum_char digits w

/-- Any number of digits. -/
theorem mem_star_digit (w : List Char) : w ∈ digit.star.matches' ↔ ∀ c ∈ w, c ∈ digits := by
  rw [RegularExpression.matches'_star, Language.mem_kstar]
  constructor
  · rintro ⟨ws, rfl, hws⟩ c hc
    obtain ⟨v, hv, hcv⟩ := List.mem_flatten.mp hc
    obtain ⟨d, hd, rfl⟩ := (mem_digit v).mp (hws v hv)
    rwa [List.mem_singleton.mp hcv]
  · intro hw
    refine ⟨w.map fun c => [c], (List.flatMap_singleton' w).symm, ?_⟩
    intro v hv
    obtain ⟨c, hc, rfl⟩ := List.mem_map.mp hv
    exact (mem_digit [c]).mpr ⟨c, hw c hc, rfl⟩

/-- The pattern matches what is written as a numeral. -/
theorem rmatch_amountPattern (cs : List Char) :
    amountPattern.rmatch cs = true ↔ ∃ n : Numeral, n.written = cs := by
  rw [RegularExpression.rmatch_iff_matches']
  unfold amountPattern
  simp only [RegularExpression.matches'_mul, RegularExpression.matches'_add, Language.mem_mul,
    Language.mem_add, RegularExpression.matches'_epsilon, Language.mem_one,
    RegularExpression.matches'_char, mem_digit, mem_star_digit]
  constructor
  · rintro ⟨_, ⟨sign, hsign, _, ⟨_, ⟨c, hc, rfl⟩, ds, hds, rfl⟩, rfl⟩, point, hpoint, rfl⟩
    -- A text that matches is taken apart into sign, whole part and decimals.
    have hwhole : ∀ d ∈ c :: ds, d ∈ digits := List.forall_mem_cons.mpr ⟨hc, hds⟩
    obtain ⟨negative, hnegative⟩ : ∃ b : Bool, sign = if b then ['-'] else [] := by
      rcases hsign with rfl | hsign
      · exact ⟨false, rfl⟩
      · exact ⟨true, hsign⟩
    obtain ⟨fraction, hfraction, hlength, hwritten⟩ : ∃ fs : List Char, (∀ d ∈ fs, d ∈ digits) ∧
        fs.length ≤ 2 ∧ point = if fs = [] then [] else '.' :: fs := by
      rcases hpoint with rfl | ⟨_, rfl, _, ⟨_, ⟨d, hd, rfl⟩, last, hlast, rfl⟩, rfl⟩
      · exact ⟨[], by simp, by simp, rfl⟩
      · rcases hlast with rfl | ⟨e, he, rfl⟩
        · exact ⟨[d], by simpa using hd, by simp, rfl⟩
        · exact ⟨[d, e], by simp [hd, he], by simp, rfl⟩
    refine ⟨⟨negative, c :: ds, fraction, List.cons_ne_nil c ds, hwhole, hfraction, hlength⟩, ?_⟩
    rw [hnegative, hwritten]
    rfl
  · rintro ⟨⟨negative, whole, fraction, hne, hwhole, hfraction, hlength⟩, rfl⟩
    -- A written numeral matches: its decimals are none, one or two.
    obtain ⟨c, ds, rfl⟩ := List.exists_cons_of_ne_nil hne
    obtain ⟨hc, hds⟩ := List.forall_mem_cons.mp hwhole
    refine ⟨_, ⟨if negative then ['-'] else [], ?_, c :: ds,
      ⟨[c], ⟨c, hc, rfl⟩, ds, hds, rfl⟩, rfl⟩, _, ?_, rfl⟩
    · cases negative with
      | false => exact .inl rfl
      | true => exact .inr rfl
    · match fraction, hlength with
      | [], _ => exact .inl rfl
      | [d], _ =>
        have hd := hfraction d (by simp)
        exact .inr ⟨['.'], rfl, [d], ⟨[d], ⟨d, hd, rfl⟩, [], .inl rfl, rfl⟩, rfl⟩
      | [d, e], _ =>
        have hd := hfraction d (by simp)
        have he := hfraction e (by simp)
        exact .inr ⟨['.'], rfl, [d, e], ⟨[d], ⟨d, hd, rfl⟩, [e], .inr ⟨e, he, rfl⟩, rfl⟩, rfl⟩

/-! ## What is read -/

namespace Numeral

variable (n : Numeral)

/-- The digits of a literal are checked one by one. -/
theorem mem_digits_of_all {ds : List Char} (h : ds.all (fun c => decide (c ∈ digits)) = true) :
    ∀ c ∈ ds, c ∈ digits :=
  fun c hc => of_decide_eq_true (List.all_eq_true.mp h c hc)

/-- A sign and a point are no digits. -/
theorem ne_of_mem_digits {c d : Char} (hc : c ∈ digits) (hd : d ∉ digits) : c ≠ d :=
  fun h => hd (h ▸ hc)

/-- The sign tells whether a numeral is negative. -/
theorem head?_written : (n.written.head? = some '-') ↔ n.negative = true := by
  obtain ⟨c, ds, hwhole⟩ := List.exists_cons_of_ne_nil n.whole_ne_nil
  have hc : c ≠ '-' := ne_of_mem_digits (n.whole_digits c (by rw [hwhole]; simp)) (by decide)
  unfold written
  rw [hwhole]
  cases n.negative with
  | false => simpa using hc
  | true => simp

/-- What follows the sign, split at the point. -/
theorem splitOn_written :
    (n.whole ++ if n.fraction = [] then [] else '.' :: n.fraction).splitOn '.' =
      if n.fraction = [] then [n.whole] else [n.whole, n.fraction] := by
  have hpoint : ∀ ds : List Char, (∀ c ∈ ds, c ∈ digits) → ∀ c ∈ ds, (c == '.') = false := by
    intro ds hds c hc
    exact beq_eq_false_iff_ne.mpr (ne_of_mem_digits (hds c hc) (by decide))
  rw [List.splitOn]
  split
  · rw [List.append_nil]
    exact List.splitOnP_eq_singleton (hpoint _ n.whole_digits)
  · rw [List.splitOnP_append_cons_of_forall_mem (hpoint _ n.whole_digits) '.' (by decide),
      List.splitOnP_eq_singleton (hpoint _ n.fraction_digits)]

/-- The digits after the point, filled up to two. -/
def hundredths : List Char := n.fraction.rightpad 2 '0'

/-- The hundredths of a text, as a number. -/
theorem ofDigitChars_hundredths :
    Nat.ofDigitChars 10 n.hundredths 0 =
      10 ^ (2 - n.fraction.length) * Nat.ofDigitChars 10 n.fraction 0 := by
  rw [hundredths, List.rightpad, Nat.ofDigitChars_append, Nat.ofDigitChars_replicate_zero]

/-- A digit is worth at most nine. -/
theorem ofDigitChars_lt {ds : List Char} (h : ∀ c ∈ ds, c ∈ digits) :
    Nat.ofDigitChars 10 ds 0 < 10 ^ ds.length := by
  induction ds with
  | nil => decide
  | cons c ds ih =>
    obtain ⟨hc, hds⟩ := List.forall_mem_cons.mp h
    have hall : digits.all (fun d => decide (d.toNat - '0'.toNat ≤ 9)) = true := by decide
    have hdigit : ∀ d ∈ digits, d.toNat - '0'.toNat ≤ 9 :=
      fun d hd => of_decide_eq_true (List.all_eq_true.mp hall d hd)
    rw [Nat.ofDigitChars_cons, Nat.ofDigitChars_eq_ofDigitChars_zero, List.length_cons, pow_succ]
    calc 10 ^ ds.length * (10 * 0 + (c.toNat - '0'.toNat)) + Nat.ofDigitChars 10 ds 0
        < 10 ^ ds.length * 9 + 10 ^ ds.length :=
          add_lt_add_of_le_of_lt (Nat.mul_le_mul_left _ (by have := hdigit c hc; omega)) (ih hds)
      _ = 10 ^ ds.length * 10 := by ring

/-- The hundredths are less than a hundred. -/
theorem hundredths_lt : Nat.ofDigitChars 10 n.hundredths 0 < 100 := by
  have hlt := ofDigitChars_lt n.fraction_digits
  rw [ofDigitChars_hundredths]
  calc 10 ^ (2 - n.fraction.length) * Nat.ofDigitChars 10 n.fraction 0
      < 10 ^ (2 - n.fraction.length) * 10 ^ n.fraction.length :=
        Nat.mul_lt_mul_of_pos_left hlt (Nat.pow_pos (by decide))
    _ = 10 ^ 2 := by rw [← pow_add, Nat.sub_add_cancel n.fraction_length]

/-- A hundred times the value of a numeral, which is an integer. -/
def minorUnits : ℤ :=
  (if n.negative then -1 else 1) * (n.wholeValue * 100 + Nat.ofDigitChars 10 n.hundredths 0)

/-- The scaled amount, as far as an `int` holds it. -/
theorem scaled :
    (if n.negative = true then
      -(Int64.ofNat n.wholeValue * 100 + .ofNat (Nat.ofDigitChars 10 n.hundredths 0))
    else Int64.ofNat n.wholeValue * 100 + .ofNat (Nat.ofDigitChars 10 n.hundredths 0)) =
      Int64.ofInt n.minorUnits := by
  unfold minorUnits
  rw [← Int64.ofInt_eq_ofNat, ← Int64.ofInt_eq_ofNat]
  cases n.negative with
  | false =>
    rw [if_neg (by simp), if_neg (by simp), one_mul, Int64.ofInt_add, Int64.ofInt_mul]
    rfl
  | true =>
    rw [if_pos rfl, if_pos rfl, neg_one_mul, Int64.ofInt_neg, Int64.ofInt_add, Int64.ofInt_mul]
    rfl

/-- A hundred times the value of a text are its minor units. -/
theorem hundred_mul_value : 100 * n.value = n.minorUnits := by
  have hpow : (10 : ℚ) ^ 2 = 10 ^ (2 - n.fraction.length) * 10 ^ n.fraction.length := by
    rw [← pow_add, Nat.sub_add_cancel n.fraction_length]
  have hfraction : 100 * (Nat.ofDigitChars 10 n.fraction 0 / 10 ^ n.fraction.length : ℚ) =
      (Nat.ofDigitChars 10 n.hundredths 0 : ℕ) := by
    rw [ofDigitChars_hundredths, show (100 : ℚ) = 10 ^ 2 by norm_num, hpow]
    push_cast
    field_simp
  unfold value minorUnits
  push_cast
  rw [← hfraction]
  ring

end Numeral

/-- The digits of a numeral, as they are taken out of the text. -/
theorem parts_written (n : Numeral) :
    let unsigned := if n.written.head? = some '-' then n.written.drop 1 else n.written
    let parts := unsigned.splitOn '.'
    parts.headD [] = n.whole ∧
    (match parts[1]? with
      | some fraction => fraction.rightpad 2 '0'
      | none => ['0', '0']) = n.hundredths := by
  have hunsigned : (if n.written.head? = some '-' then n.written.drop 1 else n.written) =
      n.whole ++ if n.fraction = [] then [] else '.' :: n.fraction := by
    simp only [n.head?_written]
    unfold Numeral.written
    cases n.negative with
    | false => rw [if_neg (by simp), if_neg (by simp), List.nil_append]
    | true => rw [if_pos rfl, if_pos rfl, List.append_assoc, List.singleton_append, List.drop_one,
        List.tail_cons]
  intro unsigned parts
  -- One part without a point, two with it: there is no second point.
  have hparts : parts = if n.fraction = [] then [n.whole] else [n.whole, n.fraction] := by
    show (if n.written.head? = some '-' then n.written.drop 1 else n.written).splitOn '.' = _
    rw [hunsigned, n.splitOn_written]
  rw [hparts, Numeral.hundredths]
  by_cases hfraction : n.fraction = []
  · rw [if_pos hfraction, hfraction]
    exact ⟨rfl, rfl⟩
  · rw [if_neg hfraction]
    exact ⟨rfl, rfl⟩

/-- The digits of an amount are read, and then scaled. -/
theorem parse_written {input : String} {n : Numeral} (h : n.written = cleanAmount input)
    (currencyCode : Option String) :
    Money.parse input currencyCode =
      if n.wholeValue < 2 ^ 63 then .ok ⟨.ofInt n.minorUnits, currencyCode.getD "PKR"⟩
      else .error (.formatException "Positive input exceeds the limit of integer") := by
  have hmatch : amountPattern.rmatch n.written = true := (rmatch_amountPattern _).mpr ⟨n, rfl⟩
  have hhundredths : intParse n.hundredths = .ok (.ofNat (Nat.ofDigitChars 10 n.hundredths 0)) := by
    have hlt := n.hundredths_lt
    rw [intParse, if_pos (by omega)]
  obtain ⟨hwhole, hfraction⟩ := parts_written n
  rw [Money.parse, ← h]
  simp only [hmatch, reduceCtorEq, if_false, hwhole, hfraction, hhundredths]
  simp only [n.head?_written]
  by_cases hfits : n.wholeValue < 2 ^ 63
  · have hparse : intParse n.whole = .ok (.ofNat n.wholeValue) := if_pos hfits
    rw [hparse, if_pos hfits]
    exact congrArg (fun value => Except.ok (Money.mk value (currencyCode.getD "PKR"))) n.scaled
  · have hparse : intParse n.whole =
        .error (.formatException "Positive input exceeds the limit of integer") := if_neg hfits
    rw [hparse, if_neg hfits]
    rfl

/-- What is no numeral is refused. -/
theorem parse_of_not_written {input : String} (h : ¬∃ n : Numeral, n.written = cleanAmount input)
    (currencyCode : Option String) :
    Money.parse input currencyCode = .error (.formatException "Enter a valid amount") := by
  have hmatch : amountPattern.rmatch (cleanAmount input) = false := by
    rw [← Bool.not_eq_true, rmatch_amountPattern]
    exact h
  rw [Money.parse, if_pos hmatch]
  rfl

/-- An integer in the range of `int`, as a rational number. -/
theorem fits_cast (z : ℤ) :
    (-2 ^ 63 ≤ (z : ℚ) ∧ (z : ℚ) < 2 ^ 63) ↔ -2 ^ 63 ≤ z ∧ z < 2 ^ 63 := by
  have hmin : (-2 ^ 63 : ℚ) = ((-2 ^ 63 : ℤ) : ℚ) := by norm_num
  have hmax : (2 ^ 63 : ℚ) = ((2 ^ 63 : ℤ) : ℚ) := by norm_num
  rw [hmin, hmax, Int.cast_le, Int.cast_lt]

/-- An amount is read exactly or refused. -/
def ParsesExactly (input : String) (currencyCode : Option String) : Prop :=
  ((¬∃ n : Numeral, n.written = cleanAmount input) →
    ∃ message, Money.parse input currencyCode = .error (.formatException message)) ∧
  ∀ n : Numeral, n.written = cleanAmount input →
    (∃ money, Money.parse input currencyCode = .ok money ∧
      (money.minorUnits.toInt : ℚ) = 100 * n.value) ∨
    ∃ message, Money.parse input currencyCode = .error (.formatException message)

/-- An amount is read exactly or refused if and only if what is written before the point does not
fit an `int`, or the amount in minor units does. -/
theorem parse_exact_iff (input : String) (currencyCode : Option String) :
    ParsesExactly input currencyCode ↔
      ∀ n : Numeral, n.written = cleanAmount input →
        2 ^ 63 ≤ n.wholeValue ∨ -2 ^ 63 ≤ 100 * n.value ∧ 100 * n.value < 2 ^ 63 := by
  have hrefused := fun h => @parse_of_not_written input h currencyCode
  unfold ParsesExactly
  rw [and_iff_right fun h => ⟨_, hrefused h⟩]
  apply forall_congr' fun n => forall_congr' fun h => ?_
  rw [parse_written h, n.hundred_mul_value, fits_cast]
  -- The whole part fits an `int`, so that the product wraps around, or `int.parse` refuses it.
  by_cases hfits : n.wholeValue < 2 ^ 63
  · have hmoney : (Int64.ofInt n.minorUnits).toInt = n.minorUnits.bmod (2 ^ 64) := Int64.toInt_ofInt
    rw [if_pos hfits]
    constructor
    · rintro (⟨_, hmoney', hexact⟩ | ⟨message, hmessage⟩)
      · obtain rfl := Except.ok.inj hmoney'
        have hexact' : n.minorUnits.bmod (2 ^ 64) = n.minorUnits := by
          rw [← hmoney]
          exact_mod_cast hexact
        have hle := (Int64.ofInt n.minorUnits).le_toInt
        have hlt := (Int64.ofInt n.minorUnits).toInt_lt
        rw [hmoney, hexact'] at hle hlt
        exact .inr ⟨hle, hlt⟩
      · cases hmessage
    · rintro (hlarge | ⟨hle, hlt⟩)
      · omega
      · refine .inl ⟨_, rfl, ?_⟩
        rw [Int64.toInt_ofInt_of_le hle hlt]
  · rw [if_neg hfits]
    constructor
    · intro _
      exact .inl (by omega)
    · intro _
      exact .inr ⟨_, rfl⟩

/-- The numeral of an amount that `int.parse` can read and no `int` can hold in minor units. -/
def largeNumeral : Numeral where
  negative := false
  whole := "184467440737095517".toList
  fraction := []
  whole_ne_nil := by decide
  whole_digits := Numeral.mem_digits_of_all (by decide)
  fraction_digits := fun _ hc => absurd hc List.not_mem_nil
  fraction_length := by decide

/-- More than a hundred quadrillion are read as less than one. -/
theorem not_parse_exact :
    ¬∀ (input : String) (currencyCode : Option String), ParsesExactly input currencyCode := by
  intro h
  have hparse : (Money.parse "184467440737095517" none).toOption.map (·.minorUnits.toInt) =
      some 84 := by decide +kernel
  have hvalue : 100 * largeNumeral.value = (18446744073709551700 : ℤ) := by
    rw [largeNumeral.hundred_mul_value]
    exact congrArg _ (by decide)
  rcases (h "184467440737095517" none).2 largeNumeral (by decide) with
    ⟨money, hmoney, hexact⟩ | ⟨message, hmessage⟩
  · rw [hmoney] at hparse
    have hwrong : money.minorUnits.toInt = 84 := Option.some.inj hparse
    rw [hvalue, hwrong, Int.cast_inj] at hexact
    omega
  · rw [hmessage] at hparse
    cases hparse

/-! ## Splitting an amount -/

/-- `%` of Dart. -/
def dartMod (a b : Int64) : Int64 := .ofInt (a.toInt % b.toInt)

/-- `splitEqually`. -/
def splitEqually (amount : Money) (parts : Int64) : Except DartError (List Money) :=
  if parts ≤ 0 then
    .error (.argumentError parts "parts" "Must split into at least one part")
  else
    let base := amount.minorUnits / parts
    let remainder := dartMod amount.minorUnits parts
    .ok ((List.range parts.toInt.toNat).map fun index =>
      ⟨base + if Int64.ofNat index < remainder then 1 else 0, amount.currencyCode⟩)

/-- The share at a position, as an integer. -/
def clientShare (amount parts : ℤ) (index : ℕ) : ℤ :=
  amount.tdiv parts + if (index : ℤ) < amount % parts then 1 else 0

/-- No share overflows. -/
theorem toInt_share (amount parts : Int64) (h : 0 < parts.toInt) {index : ℕ}
    (hindex : (index : ℤ) < parts.toInt) :
    (amount / parts + if Int64.ofNat index < dartMod amount parts then 1 else 0).toInt =
      clientShare amount.toInt parts.toInt index := by
  have hlt := parts.toInt_lt
  have hne : parts ≠ -1 := by
    rintro rfl
    exact absurd h (by decide)
  have hmod0 : 0 ≤ amount.toInt % parts.toInt := Int.emod_nonneg _ h.ne'
  have hmodlt : amount.toInt % parts.toInt < parts.toInt := Int.emod_lt_of_pos _ h
  have hmod : (dartMod amount parts).toInt = amount.toInt % parts.toInt :=
    Int64.toInt_ofInt_of_le (by omega) (by omega)
  have hcompare : Int64.ofNat index < dartMod amount parts ↔
      (index : ℤ) < amount.toInt % parts.toInt := by
    rw [Int64.lt_iff_toInt_lt, hmod, Int64.toInt_ofNat_of_lt (by omega)]
  unfold clientShare
  simp only [hcompare]
  split
  · next hlarger =>
    -- There is a remainder, so that there are two parts and a share is at most half of the amount.
    have htwo : 2 ≤ parts.toInt := by omega
    have hamount : amount.toInt.natAbs ≤ 2 ^ 63 := by
      have hle := amount.le_toInt
      have hlt := amount.toInt_lt
      omega
    have hquot : (amount.toInt.tdiv parts.toInt).natAbs ≤ 2 ^ 62 :=
      calc (amount.toInt.tdiv parts.toInt).natAbs
          = amount.toInt.natAbs / parts.toInt.natAbs := Int.natAbs_tdiv _ _
        _ ≤ 2 ^ 63 / 2 := Nat.div_le_div hamount (by omega) (by decide)
        _ = 2 ^ 62 := by decide
    rw [Int64.toInt_add, Int64.toInt_div_of_ne_right _ _ hne, Int64.toInt_one,
      Int.bmod_eq_of_le (by omega) (by omega)]
  · rw [Int64.add_zero, Int64.toInt_div_of_ne_right _ _ hne, add_zero]

/-- The shares of the client. -/
theorem shares_splitEqually (amount : Money) {parts : Int64} (h : 1 ≤ parts) :
    ∃ shares, splitEqually amount parts = .ok shares ∧
      shares.map (·.minorUnits.toInt) =
        (List.range parts.toInt.toNat).map (clientShare amount.minorUnits.toInt parts.toInt) := by
  have hpos : 1 ≤ parts.toInt := Int64.le_iff_toInt_le.mp h
  have hguard : ¬parts ≤ 0 := by
    rw [Int64.le_iff_toInt_le, Int64.toInt_zero]
    omega
  refine ⟨_, if_neg hguard, ?_⟩
  rw [List.map_map]
  apply List.map_congr_left
  intro index hindex
  have := List.mem_range.mp hindex
  exact toInt_share amount.minorUnits parts (by omega) (by omega)

/-- The shares sum to the amount unless it is negative and does not divide evenly. -/
theorem sum_clientShare (amount : ℤ) {parts : ℤ} (h : 0 < parts) :
    ((List.range parts.toNat).map (clientShare amount parts)).sum = amount ↔
      0 ≤ amount ∨ parts ∣ amount := by
  have hmod0 : 0 ≤ amount % parts := Int.emod_nonneg _ h.ne'
  have hmodlt : amount % parts < parts := Int.emod_lt_of_pos _ h
  have hparts : (parts.toNat : ℤ) = parts := Int.toNat_of_nonneg h.le
  have hsum : ((List.range parts.toNat).map (clientShare amount parts)).sum =
      parts * amount.tdiv parts + amount % parts :=
    calc ((List.range parts.toNat).map (clientShare amount parts)).sum
        = ((List.range parts.toNat).map fun i : ℕ => amount.tdiv parts +
            if (i : ℤ) < amount % parts then (1 : ℤ) else 0).sum := rfl
      _ = parts.toNat * amount.tdiv parts + amount % parts := by
          rw [List.sum_map_add, sum_lt_indicator _ _ hmod0 (by omega)]
          simp
      _ = parts * amount.tdiv parts + amount % parts := by rw [hparts]
  -- `~/` truncates while `%` takes the remainder of the division that rounds down.
  have hdivide := Int.mul_tdiv_add_tmod amount parts
  have hmod := Int.tmod_eq_emod (a := amount) (b := parts)
  rw [hsum]
  constructor
  · intro hexact
    by_contra hnot
    rw [if_neg hnot] at hmod
    omega
  · intro hcases
    rw [if_pos hcases] at hmod
    omega

/-- A preview of an equal split, of which each share is the server's. -/
def PreviewsSplit (amount : Money) (parts : Int64) : Prop :=
  ∃ shares, splitEqually amount parts = .ok shares ∧
    (shares.map (·.minorUnits.toInt)).sum = amount.minorUnits.toInt ∧
    (∀ s ∈ shares, ∀ t ∈ shares, |s.minorUnits.toInt - t.minorUnits.toInt| ≤ 1) ∧
    (0 ≤ amount.minorUnits.toInt → ∀ participantIds : List Id,
      participantIds.length = parts.toInt →
      shares.map (·.minorUnits.toInt) =
        (calculateEqualSplits amount.minorUnits.toInt participantIds).map (·.amountMinorUnits))

/-- The client splits an amount exactly, fairly and as the server does if and only if the amount is
not negative or divides evenly. -/
theorem splitEqually_exact_iff (amount : Money) {parts : Int64} (h : 1 ≤ parts) :
    PreviewsSplit amount parts ↔
      0 ≤ amount.minorUnits.toInt ∨ parts.toInt ∣ amount.minorUnits.toInt := by
  have hpos : 1 ≤ parts.toInt := Int64.le_iff_toInt_le.mp h
  obtain ⟨shares, hshares, hamounts⟩ := shares_splitEqually amount h
  -- Only the sum is at stake: the shares are what they are for any sign.
  rw [← sum_clientShare amount.minorUnits.toInt (by omega), ← hamounts]
  constructor
  · rintro ⟨shares', hshares', hsum, -, -⟩
    rw [hshares] at hshares'
    rwa [← Except.ok.inj hshares'] at hsum
  · intro hsum
    refine ⟨shares, hshares, hsum, ?_, ?_⟩
    · have hmem : ∀ s ∈ shares,
          s.minorUnits.toInt = amount.minorUnits.toInt.tdiv parts.toInt ∨
          s.minorUnits.toInt = amount.minorUnits.toInt.tdiv parts.toInt + 1 := by
        intro s hs
        have hs' : s.minorUnits.toInt ∈ shares.map (·.minorUnits.toInt) :=
          List.mem_map_of_mem hs
        rw [hamounts] at hs'
        obtain ⟨i, -, hi⟩ := List.mem_map.mp hs'
        rw [← hi]
        unfold clientShare
        split <;> omega
      intro s hs t ht
      have hs' := hmem s hs
      have ht' := hmem t ht
      rw [abs_le]
      omega
    -- For amounts that are not negative, `~/` and `%` agree with the backend's division.
    · intro hnonneg participantIds hlength
      have hne : participantIds ≠ [] := by
        rintro rfl
        simp only [List.length_nil] at hlength
        omega
      rw [hamounts, amounts_calculateEqualSplits _ hne, hlength, ← hlength, Int.toNat_natCast]
      apply List.map_congr_left
      intro i _
      unfold clientShare equalShare
      rw [Int.tmod_eq_emod_of_nonneg hnonneg]

/-- A thousand rupees can be shared by seven, and a debt of as many cannot. -/
theorem splitEqually_exact_iff_seven :
    PreviewsSplit ⟨100000, "PKR"⟩ 7 ∧ ¬PreviewsSplit ⟨-100000, "PKR"⟩ 7 := by
  constructor
  · exact (splitEqually_exact_iff _ (by decide)).mpr (.inl (by decide))
  · rw [splitEqually_exact_iff _ (by decide)]
    decide

/-- A debt of ten among three. -/
theorem not_splitEqually_exact :
    ¬∀ (amount : Money) (parts : Int64), 1 ≤ parts → PreviewsSplit amount parts := by
  intro h
  obtain ⟨shares, hshares, hsum, -, -⟩ := h ⟨-10, "PKR"⟩ 3 (by decide)
  have hamounts : (splitEqually ⟨-10, "PKR"⟩ 3).toOption.map
      (fun shares => (shares.map (·.minorUnits.toInt)).sum) = some (-7) := by decide +kernel
  rw [hshares] at hamounts
  have hwrong : (shares.map (·.minorUnits.toInt)).sum = -7 := Option.some.inj hamounts
  rw [hwrong] at hsum
  exact absurd hsum (by decide)

end SplitBill.Frontend
