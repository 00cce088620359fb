import Mathlib.Algebra.Order.Field.Basic
import Mathlib.Data.List.TakeWhile
import SplitBill.Js.Json
import SplitBill.Js.Zod

/-!
# Numbers in JSON

A whole number as it is written, read back from a JSON text, and the value of a numeral. What a
program sees of a parsed text has doubles for its numerals (`Value.toVal`).
-/

namespace SplitBill.Js

/-- `String(n)`. -/
def natText (n : ℕ) : Str := str (toString n)

/-- `String(z)`. -/
def intText (z : ℤ) : Str := str (toString z)

namespace Json

/-- The number that some digits are. -/
def digitsValue (digits : Str) : ℕ := digits.foldl (fun n u => 10 * n + (u.toNat - 48)) 0

/-- The number behind an `e`. -/
def exponentValue : Str → ℤ
  | 45 :: digits => -digitsValue digits
  | 43 :: digits => digitsValue digits
  | digits => digitsValue digits

/-- The value of a numeral without its sign. -/
def unsignedValue (text : Str) : ℚ :=
  let whole := text.takeWhile isDigit
  let behind := text.dropWhile isDigit
  let fraction := if behind.head? = some 46 then behind.tail.takeWhile isDigit else []
  let power := if behind.head? = some 46 then behind.tail.dropWhile isDigit else behind
  digitsValue (whole ++ fraction) / 10 ^ fraction.length * 10 ^ exponentValue power.tail

/-- The value of a numeral. -/
def numeralValue : Str → ℚ
  | 45 :: text => -unsignedValue text
  | text => unsignedValue text

example : numeralValue (str "-12.50e1") = -125 := by decide +kernel

end Json

mutual

/-- The value at run time, where a numeral is the double nearest to it. -/
def Value.toVal (literal : ℚ → Double) : Value → Val
  | .null => .null
  | .bool b => .bool b
  | .number text => .number (literal (Json.numeralValue text))
  | .string s => .string s
  | .array items => .array (itemsToVal literal items)
  | .object members => .object (membersToVal literal members)

/-- The items of an array. -/
def itemsToVal (literal : ℚ → Double) : List Value → List Val
  | [] => []
  | v :: items => v.toVal literal :: itemsToVal literal items

/-- The members of an object. -/
def membersToVal (literal : ℚ → Double) : List (Str × Value) → List (Str × Val)
  | [] => []
  | (k, v) :: members => (k, v.toVal literal) :: membersToVal literal members

end

/-- The items of an array, one by one. -/
theorem itemsToVal_eq (literal : ℚ → Double) (items : List Value) :
    itemsToVal literal items = items.map (·.toVal literal) := by
  induction items with
  | nil => rfl
  | cons v items ih => rw [itemsToVal, ih, List.map_cons]

/-! ## Digits -/

/-- The last digit comes off the end. -/
theorem natText_eq (n : ℕ) :
    natText n = (if n < 10 then [] else natText (n / 10)) ++ [(48 + n % 10).toUInt16] := by
  have hdigit : ∀ d < 10, utf16 (Nat.digitChar d) = [(48 + d).toUInt16] := by decide
  have htext : ∀ n : ℕ, natText n = (Nat.toDigits 10 n).flatMap utf16 := by
    intro n
    unfold natText str
    rw [Nat.toString_eq_ofList_toDigits, String.toList_ofList]
  rw [htext, Nat.toDigits_eq_if (by decide)]
  split
  · next h =>
    rw [List.flatMap_singleton, hdigit n h, Nat.mod_eq_of_lt h, List.nil_append]
  · rw [List.flatMap_append, List.flatMap_singleton, hdigit _ (Nat.mod_lt n (by decide)), htext]

/-- A negative number is written with a minus sign. -/
theorem intText_negSucc (n : ℕ) : intText (.negSucc n) = 45 :: natText (n + 1) := by
  have hminus : ∀ s : String, str ("-" ++ s) = 45 :: str s := by
    intro s
    unfold str
    rw [String.toList_append, List.flatMap_append]
    rfl
  exact hminus _

/-- A digit as a unit. -/
theorem toNat_digit {d : ℕ} (h : d < 10) : ((48 + d).toUInt16).toNat = 48 + d := by
  have hsize : 48 + d < 65536 := by omega
  exact Nat.mod_eq_of_lt hsize

/-- The ten digits are digits. -/
theorem isDigit_digit : ∀ d < 10, Json.isDigit (48 + d).toUInt16 = true := by decide

/-- A natural number is written in digits. -/
theorem isDigit_of_mem_natText {n : ℕ} : ∀ u ∈ natText n, Json.isDigit u = true := by
  induction n using Nat.strong_induction_on with
  | _ n ih =>
    intro u hu
    rw [natText_eq, List.mem_append, List.mem_singleton] at hu
    rcases hu with hu | rfl
    · split at hu
      · cases hu
      · exact ih (n / 10) (by omega) u hu
    · exact isDigit_digit _ (Nat.mod_lt n (by decide))

/-- An integer is written in digits and a minus sign. -/
theorem mem_intText {z : ℤ} {u : UInt16} (hu : u ∈ intText z) : Json.isDigit u = true ∨ u = 45 := by
  cases z with
  | ofNat n => exact .inl (isDigit_of_mem_natText u hu)
  | negSucc n =>
    rw [intText_negSucc] at hu
    rcases List.mem_cons.mp hu with rfl | hu
    · exact .inr rfl
    · exact .inl (isDigit_of_mem_natText u hu)

namespace Json

/-- The digits of a number are worth that number. -/
theorem digitsValue_natText (n : ℕ) : digitsValue (natText n) = n := by
  induction n using Nat.strong_induction_on with
  | _ n ih =>
    have hdigit := toNat_digit (Nat.mod_lt n (by decide : 10 > 0))
    rw [natText_eq]
    unfold digitsValue
    rw [List.foldl_append, List.foldl_cons, List.foldl_nil, hdigit]
    split
    · next h =>
      rw [List.foldl_nil, Nat.mod_eq_of_lt h]
      omega
    · have hrest := ih (n / 10) (by omega)
      unfold digitsValue at hrest
      rw [hrest]
      omega

/-- A number without a sign is read as it was written. -/
theorem unsignedValue_natText (n : ℕ) : unsignedValue (natText n) = n := by
  have htake : (natText n).takeWhile isDigit = natText n :=
    List.takeWhile_eq_self_iff.mpr isDigit_of_mem_natText
  have hdrop : (natText n).dropWhile isDigit = [] :=
    List.dropWhile_eq_nil_iff.mpr isDigit_of_mem_natText
  unfold unsignedValue
  simp only [htake, hdrop]
  rw [if_neg (by decide), if_neg (by decide), List.append_nil, digitsValue_natText]
  simp [exponentValue, digitsValue]

/-- A whole number is the value of its numeral. -/
theorem numeralValue_intText (z : ℤ) : numeralValue (intText z) = z := by
  cases z with
  | ofNat n =>
    have hplain : ∀ text : Str, (∀ u ∈ text.head?, u ≠ 45) →
      numeralValue text = unsignedValue text := by
      intro text h
      unfold numeralValue
      split
      · exact absurd rfl (h 45 rfl)
      · rfl
    have hhead : ∀ u ∈ (natText n).head?, u ≠ 45 := by
      rintro u hu rfl
      have hdigit := isDigit_of_mem_natText 45 (List.mem_of_mem_head? hu)
      exact absurd hdigit (by decide)
    show numeralValue (natText n) = _
    rw [hplain _ hhead, unsignedValue_natText]
    rfl
  | negSucc n =>
    rw [intText_negSucc]
    show -unsignedValue (natText (n + 1)) = _
    rw [unsignedValue_natText, Int.cast_negSucc]

/-- A numeral goes on. -/
theorem next_numeral {phase phase' : Phase} {u : UInt16} (h : phase.next? u = some phase')
    (text : Str) (stack : List Frame) :
    Reader.next (.number text phase stack) u = .number (text ++ [u]) phase' stack := by
  simp only [Reader.next, h]

/-- The digits of a number, where one may begin. -/
theorem read_natText {r : Reader} {before : Str} {stack : List Frame}
    (hr : ∀ u phase, Phase.minus.next? u = some phase →
      r.next u = .number (before ++ [u]) phase stack)
    (n : ℕ) : (natText n).foldl Reader.next r =
      .number (before ++ natText n) (if n = 0 then .zero else .integer) stack := by
  induction n using Nat.strong_induction_on with
  | _ n ih =>
    -- The number without its last digit has been read; then comes the digit.
    rw [natText_eq]
    by_cases h : n < 10
    · rw [if_pos h, List.nil_append, Nat.mod_eq_of_lt h]
      have hfirst : ∀ d < 10, Phase.minus.next? (48 + d).toUInt16 =
          some (if d = 0 then .zero else .integer) := by decide
      exact hr _ _ (hfirst n h)
    · have hmore : ∀ d < 10, Phase.integer.next? (48 + d).toUInt16 = some .integer := by decide
      have hrest := ih (n / 10) (by omega)
      rw [if_neg (by omega)] at hrest
      rw [if_neg h, List.foldl_append, hrest, List.foldl_cons, List.foldl_nil, if_neg (by omega)]
      rw [next_numeral (hmore _ (Nat.mod_lt n (by decide))), List.append_assoc]

/-- A number ends where something follows that can end it. -/
theorem next_number {phase : Phase} (hphase : phase = .zero ∨ phase = .integer) {u : UInt16}
    (hu : isEnd u = true) (text : Str) (stack : List Frame) :
    Reader.next (.number text phase stack) u = Reader.next (.done (.number text) stack) u := by
  have hcases : u = comma ∨ u = 93 ∨ u = 125 := by
    unfold isEnd at hu
    simpa [or_assoc] using hu
  rcases hphase with rfl | rfl <;> rcases hcases with rfl | rfl | rfl <;> rfl

/-- After a minus sign only a digit is read. -/
theorem isDigit_of_next {u : UInt16} {phase : Phase} (h : Phase.minus.next? u = some phase) :
    isDigit u = true := by
  simp only [Phase.next?] at h
  split at h
  · next hu =>
    rw [hu]
    rfl
  · split at h
    · next hu => exact hu
    · cases h

/-- A digit is no white space, and no other sign. -/
theorem ne_of_isDigit {u c : UInt16} (hu : isDigit u = true) (hc : isDigit c = false) : u ≠ c := by
  rintro rfl
  rw [hu] at hc
  cases hc

/-- A digit is no white space. -/
theorem isSpace_digit {u : UInt16} (hu : isDigit u = true) : isSpace u = false := by
  have hne : ∀ c, isDigit c = false → (u == c) = false := fun c hc =>
    beq_eq_false_iff_ne.mpr (ne_of_isDigit hu hc)
  simp only [isSpace, hne 32 rfl, hne 9 rfl, hne 10 rfl, hne 13 rfl, Bool.or_self]

/-- A digit begins a number. -/
theorem start_digit {u : UInt16} {phase : Phase} (h : Phase.minus.next? u = some phase)
    (stack : List Frame) : Reader.start stack u = .number [u] phase stack := by
  have hdigit := isDigit_of_next h
  have hne : ∀ c, isDigit c = false → u ≠ c := fun c => ne_of_isDigit hdigit
  unfold Reader.start
  rw [isSpace_digit hdigit, if_neg Bool.false_ne_true, if_neg (hne quote rfl), if_neg (hne 91 rfl),
    if_neg (hne 123 rfl), if_neg (hne 110 rfl), if_neg (hne 116 rfl), if_neg (hne 102 rfl),
    if_neg (hne 45 rfl), h]

/-- Where an array may end, a number begins as anywhere else. -/
theorem next_firstItem {u : UInt16} (hspace : isSpace u = false) (hend : u ≠ 93)
    (stack : List Frame) :
    Reader.next (.firstItem stack) u = Reader.start (.array [] :: stack) u := by
  show (if isSpace u = true then Reader.firstItem stack else if u = 93 then _ else _) = _
  rw [hspace, if_neg Bool.false_ne_true, if_neg hend]

/-- Wherever a value may start, the reader takes all of an integer into its number. -/
theorem read_intText {r : Reader} {stack : List Frame}
    (hr : ∀ u, isSpace u = false → u ≠ 93 → r.next u = Reader.start stack u) (z : ℤ) :
    ∃ phase, (phase = .zero ∨ phase = .integer) ∧
      (intText z).foldl Reader.next r = .number (intText z) phase stack := by
  cases z with
  | ofNat n =>
    have hdigit : ∀ u phase, Phase.minus.next? u = some phase →
        r.next u = .number ([] ++ [u]) phase stack := by
      intro u phase h
      have hu := isDigit_of_next h
      rw [hr u (isSpace_digit hu) (ne_of_isDigit hu rfl), start_digit h]
      rfl
    refine ⟨if n = 0 then .zero else .integer, ?_, read_natText hdigit n⟩
    split
    · exact .inl rfl
    · exact .inr rfl
  | negSucc n =>
    -- A minus sign, and the digits behind it as those of a natural number.
    have hminus : r.next 45 = .number [45] .minus stack := hr 45 rfl (by decide)
    have hdigit : ∀ u phase, Phase.minus.next? u = some phase →
        Reader.next (.number [45] .minus stack) u = .number ([45] ++ [u]) phase stack :=
      fun u phase h => next_numeral h [45] stack
    refine ⟨.integer, .inr rfl, ?_⟩
    rw [intText_negSucc, List.foldl_cons, hminus, read_natText hdigit, if_neg (Nat.succ_ne_zero n)]
    rfl

/-- A whole number is read wherever a value may stand. -/
theorem settles_int (z : ℤ) : Settles (.number (intText z)) := by
  refine ⟨fun stack u hu => ?_, fun stack u hu => ?_⟩
  · obtain ⟨phase, hphase, hread⟩ := @read_intText (.value stack) stack (fun _ _ _ => rfl) z
    show Reader.next ((intText z).foldl Reader.next (.value stack)) u = _
    rw [hread, next_number hphase hu]
  · obtain ⟨phase, hphase, hread⟩ :=
      @read_intText (.firstItem stack) _ (fun _ hspace hend => next_firstItem hspace hend stack) z
    show Reader.next ((intText z).foldl Reader.next (.firstItem stack)) u = _
    rw [hread, next_number hphase hu]

end Json

end SplitBill.Js
