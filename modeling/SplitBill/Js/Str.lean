import Mathlib.Data.List.Basic
import Mathlib.Data.Nat.Notation

/-!
# Strings

JavaScript's strings: sequences of UTF-16 code units, of any kind. `length` counts the units, and a
regular expression without the flag `u` looks at one of them at a time.
-/

namespace SplitBill.Js

/-- A string. -/
abbrev Str : Type := List UInt16

/-- The code units of a character: one, or two for a character beyond the first plane. -/
def utf16 (c : Char) : Str :=
  if c.toNat < 0x10000 then [c.toNat.toUInt16]
  else [(0xd800 + (c.toNat - 0x10000) / 0x400).toUInt16,
    (0xdc00 + (c.toNat - 0x10000) % 0x400).toUInt16]

/-- A string literal. -/
def str (s : String) : Str := s.toList.flatMap utf16

/-- `s.replace(/c/g, replacement)` of a single unit, with a replacement without `$`. -/
def replaceAll (c : UInt16) (replacement s : Str) : Str :=
  s.flatMap fun u => if u = c then replacement else [u]

/-- `parts.join(separator)`. -/
def join (separator : Str) (parts : List Str) : Str := separator.intercalate parts

example : join (str ", ") [str "a", str "b", str "c"] = str "a, b, c" := by decide

/-- White space and line terminators. -/
def isWhiteSpace (u : UInt16) : Bool :=
  (9 ≤ u && u ≤ 13) || u == 32 || u == 0xa0 || u == 0x1680 || (0x2000 ≤ u && u ≤ 0x200a) ||
    u == 0x2028 || u == 0x2029 || u == 0x202f || u == 0x205f || u == 0x3000 || u == 0xfeff

/-- `s.trim()`. -/
def trim (s : Str) : Str := ((s.dropWhile isWhiteSpace).reverse.dropWhile isWhiteSpace).reverse

/-- The first half of a surrogate pair. -/
def isLeading (u : UInt16) : Bool := 0xd800 ≤ u && u ≤ 0xdbff

/-- The second half of a surrogate pair. -/
def isTrailing (u : UInt16) : Bool := 0xdc00 ≤ u && u ≤ 0xdfff

/-- The bytes of a code point in UTF-8. -/
def utf8 (c : ℕ) : List ℕ :=
  if c < 0x80 then [c]
  else if c < 0x800 then [0xc0 + c / 64, 0x80 + c % 64]
  else if c < 0x10000 then [0xe0 + c / 4096, 0x80 + c / 64 % 64, 0x80 + c % 64]
  else [0xf0 + c / 262144, 0x80 + c / 4096 % 64, 0x80 + c / 64 % 64, 0x80 + c % 64]

/-- The bytes of a code point, each behind a `%` in two hexadecimal digits. -/
def percentEncoded (c : ℕ) : Str :=
  let digit (n : ℕ) : UInt16 := if n < 10 then (48 + n).toUInt16 else (55 + n).toUInt16
  (utf8 c).flatMap fun byte => [37, digit (byte / 16), digit (byte % 16)]

/-- A letter, a digit or one of `-_.!~*'()`. -/
def isUnreserved (u : UInt16) : Bool :=
  (97 ≤ u && u ≤ 122) || (65 ≤ u && u ≤ 90) || (48 ≤ u && u ≤ 57) || (str "-_.!~*'()").contains u

/-- `encodeURIComponent(s)`: none where it throws, at half a surrogate pair. -/
def encodeURIComponent : Str → Option Str
  | [] => some []
  | [u] =>
    if isUnreserved u = true then some [u]
    else if isLeading u = true ∨ isTrailing u = true then none
    else some (percentEncoded u.toNat)
  | u :: w :: s =>
    if isUnreserved u = true then (encodeURIComponent (w :: s)).map (u :: ·)
    else if isLeading u = true ∧ isTrailing w = true then
      (encodeURIComponent s).map
        (percentEncoded (0x10000 + (u.toNat - 0xd800) * 0x400 + (w.toNat - 0xdc00)) ++ ·)
    else if isLeading u = true ∨ isTrailing u = true then none
    else (encodeURIComponent (w :: s)).map (percentEncoded u.toNat ++ ·)

example : encodeURIComponent (str "a-é/€") = some (str "a-%C3%A9%2F%E2%82%AC") := by decide

/-- A joined text is its first part, and each other one behind a separator. -/
theorem join_cons (separator part : Str) (parts : List Str) :
    join separator (part :: parts) = part ++ parts.flatMap (separator ++ ·) := by
  unfold join
  induction parts generalizing part with
  | nil => simp
  | cons x parts ih =>
    rw [List.intercalate_cons_cons, ih, List.flatMap_cons]
    simp only [List.append_assoc]

/-- Between two runs of parts there is one separator. -/
theorem join_append {separator : Str} {parts : List Str} (h : parts ≠ []) (part : Str)
    (more : List Str) :
    join separator (parts ++ part :: more) =
      join separator parts ++ separator ++ join separator (part :: more) := by
  obtain ⟨x, parts, rfl⟩ := List.exists_cons_of_ne_nil h
  rw [List.cons_append, join_cons, join_cons, join_cons, List.flatMap_append, List.flatMap_cons]
  simp only [List.append_assoc]

/-- Neither end of a text is a unit to trim. -/
def Trimmed (p : UInt16 → Bool) (s : Str) : Prop :=
  (∀ u ∈ s.head?, p u = false) ∧ ∀ u ∈ s.getLast?, p u = false

instance (p : UInt16 → Bool) (s : Str) : Decidable (Trimmed p s) :=
  @instDecidableAnd _ _ (Option.decidableForallMem s.head?) (Option.decidableForallMem s.getLast?)

section

variable {p q : UInt16 → Bool} {s : Str}

/-- A text trimmed of more is trimmed of less. -/
theorem Trimmed.mono (h : Trimmed p s) (hpq : ∀ u, q u = true → p u = true) : Trimmed q s := by
  have hno : ∀ u, p u = false → q u = false := by
    intro u hu
    by_contra hq
    rw [hpq u (Bool.not_eq_false _ ▸ hq)] at hu
    cases hu
  exact ⟨fun u hu => hno u (h.1 u hu), fun u hu => hno u (h.2 u hu)⟩

/-- Nothing is dropped from a text that starts with another unit. -/
theorem dropWhile_eq_self (h : ∀ u ∈ s.head?, p u = false) : s.dropWhile p = s := by
  cases s with
  | nil => rfl
  | cons u s => exact List.dropWhile_cons_of_neg (by rw [h u rfl]; decide)

/-- What is left starts with a unit that is not dropped. -/
theorem head?_dropWhile (p : UInt16 → Bool) (s : Str) :
    ∀ u ∈ (s.dropWhile p).head?, p u = false := by
  induction s with
  | nil => rintro u ⟨⟩
  | cons w s ih =>
    cases hw : p w with
    | true => rwa [List.dropWhile_cons_of_pos hw]
    | false =>
      rw [List.dropWhile_cons_of_neg (by rw [hw]; decide)]
      rintro u ⟨⟩
      exact hw

/-- Trimming leaves a trimmed text as it is. -/
theorem Trimmed.trim_eq (h : Trimmed p s) :
    ((s.dropWhile p).reverse.dropWhile p).reverse = s := by
  rw [dropWhile_eq_self h.1, dropWhile_eq_self (by rw [List.head?_reverse]; exact h.2),
    List.reverse_reverse]

/-- Trimming the end leaves the first unit, if it leaves any. -/
theorem trimmed_trim (p : UInt16 → Bool) (s : Str) :
    Trimmed p ((s.dropWhile p).reverse.dropWhile p).reverse := by
  refine ⟨fun u hu => ?_, fun u hu => ?_⟩
  · have hsuffix : (s.dropWhile p).reverse.dropWhile p <:+ (s.dropWhile p).reverse :=
      List.dropWhile_suffix p
    have hprefix := List.reverse_prefix.mpr hsuffix
    rw [List.reverse_reverse] at hprefix
    obtain ⟨rest, hrest⟩ := hprefix
    refine head?_dropWhile p s u ?_
    rw [← hrest, List.head?_append, Option.mem_def.mp hu]
    rfl
  · rw [List.getLast?_reverse] at hu
    exact head?_dropWhile p _ u hu

end

/-- A text is trimmed once. -/
theorem trim_trim (s : Str) : trim (trim s) = trim s := (trimmed_trim isWhiteSpace s).trim_eq

section

variable {c : UInt16} {replacement s : Str}

/-- The units of a text after `replaceAll`. -/
theorem mem_replaceAll {u : UInt16} :
    u ∈ replaceAll c replacement s ↔ (c ∈ s ∧ u ∈ replacement) ∨ (u ∈ s ∧ u ≠ c) := by
  unfold replaceAll
  rw [List.mem_flatMap]
  constructor
  · rintro ⟨x, hx, hu⟩
    by_cases hc : x = c
    · rw [if_pos hc] at hu
      exact .inl ⟨hc ▸ hx, hu⟩
    · rw [if_neg hc, List.mem_singleton] at hu
      exact .inr ⟨hu ▸ hx, hu ▸ hc⟩
  · rintro (⟨hc, hu⟩ | ⟨hu, hne⟩)
    · exact ⟨c, hc, by simpa using hu⟩
    · exact ⟨u, hu, by simp [hne]⟩

/-- Replacing is done piece by piece. -/
theorem replaceAll_flatMap (f : UInt16 → Str) :
    replaceAll c replacement (s.flatMap f) = s.flatMap fun u => replaceAll c replacement (f u) :=
  List.flatMap_assoc

end

end SplitBill.Js
