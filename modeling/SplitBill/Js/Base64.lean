import SplitBill.Js.Str

/-!
# Base64 for addresses

Node's `buffer.toString("base64url")`: three bytes in four units, and no padding. What is written
is read back (`fromBase64url_base64url`), so different bytes are written differently, and it
consists of units that an address takes as they are.
-/

namespace SplitBill.Js

/-- The unit for six bits. -/
def base64Digit (n : ℕ) : UInt16 :=
  if n < 26 then (65 + n).toUInt16
  else if n < 52 then (71 + n).toUInt16
  else if n < 62 then (n - 4).toUInt16
  else if n = 62 then 45
  else 95

/-- `bytes.toString("base64url")`. -/
def base64url : List UInt8 → Str
  | [] => []
  | [a] => [base64Digit (a.toNat / 4), base64Digit (a.toNat % 4 * 16)]
  | [a, b] =>
    [base64Digit (a.toNat / 4), base64Digit (a.toNat % 4 * 16 + b.toNat / 16),
      base64Digit (b.toNat % 16 * 4)]
  | a :: b :: c :: bytes =>
    base64Digit (a.toNat / 4) :: base64Digit (a.toNat % 4 * 16 + b.toNat / 16) ::
      base64Digit (b.toNat % 16 * 4 + c.toNat / 64) :: base64Digit (c.toNat % 64) ::
      base64url bytes

/-- The units that are written, `[A-Za-z0-9_-]`. -/
def isBase64url (u : UInt16) : Bool :=
  (65 ≤ u && u ≤ 90) || (97 ≤ u && u ≤ 122) || (48 ≤ u && u ≤ 57) || u == 95 || u == 45

/-- The six bits of a unit. -/
def base64Value (u : UInt16) : ℕ :=
  if u = 45 then 62
  else if u = 95 then 63
  else if u < 65 then u.toNat + 4
  else if u < 97 then u.toNat - 65
  else u.toNat - 71

/-- Reads bytes back. -/
def fromBase64url : Str → List UInt8
  | s :: t :: u :: v :: rest =>
    (base64Value s * 4 + base64Value t / 16).toUInt8 ::
      (base64Value t % 16 * 16 + base64Value u / 4).toUInt8 ::
      (base64Value u % 4 * 64 + base64Value v).toUInt8 :: fromBase64url rest
  | [s, t, u] =>
    [(base64Value s * 4 + base64Value t / 16).toUInt8,
      (base64Value t % 16 * 16 + base64Value u / 4).toUInt8]
  | [s, t] => [(base64Value s * 4 + base64Value t / 16).toUInt8]
  | _ => []

example : base64url [255, 224, 64, 7] = str "_-BABw" ∧
    fromBase64url (str "_-BABw") = [255, 224, 64, 7] := by decide

/-- A digit has its own bits, and is one of the units that are written. -/
theorem base64Digit_spec {n : ℕ} (h : n < 64) :
    base64Value (base64Digit n) = n ∧ isBase64url (base64Digit n) = true := by
  revert n
  decide

/-- A digit is read as the number it was written for. -/
theorem base64Value_base64Digit {n : ℕ} (h : n < 64) : base64Value (base64Digit n) = n :=
  (base64Digit_spec h).1

/-- What is written is read back. -/
theorem fromBase64url_base64url (bytes : List UInt8) : fromBase64url (base64url bytes) = bytes := by
  fun_induction base64url bytes with
  | case1 => rfl
  | case2 a =>
    have ha := a.toNat_lt
    -- Each digit is read as six bits, and the bytes are put together from them.
    have hhigh : base64Value (base64Digit (a.toNat / 4)) = a.toNat / 4 :=
      base64Value_base64Digit (by omega)
    have hlow : base64Value (base64Digit (a.toNat % 4 * 16)) = a.toNat % 4 * 16 :=
      base64Value_base64Digit (by omega)
    have hbyte : a.toNat / 4 * 4 + a.toNat % 4 * 16 / 16 = a.toNat := by omega
    unfold fromBase64url
    rw [hhigh, hlow, hbyte]
    exact congrArg (fun byte => [byte]) a.ofNat_toNat
  | case3 a b =>
    have ha := a.toNat_lt
    have hb := b.toNat_lt
    have hs : base64Value (base64Digit (a.toNat / 4)) = a.toNat / 4 :=
      base64Value_base64Digit (by omega)
    have ht : base64Value (base64Digit (a.toNat % 4 * 16 + b.toNat / 16)) =
        a.toNat % 4 * 16 + b.toNat / 16 := base64Value_base64Digit (by omega)
    have hu : base64Value (base64Digit (b.toNat % 16 * 4)) = b.toNat % 16 * 4 :=
      base64Value_base64Digit (by omega)
    have hfirst : a.toNat / 4 * 4 + (a.toNat % 4 * 16 + b.toNat / 16) / 16 = a.toNat := by omega
    have hsecond : (a.toNat % 4 * 16 + b.toNat / 16) % 16 * 16 + b.toNat % 16 * 4 / 4 =
        b.toNat := by omega
    unfold fromBase64url
    rw [hs, ht, hu, hfirst, hsecond]
    exact congrArg₂ (fun x y => [x, y]) a.ofNat_toNat b.ofNat_toNat
  | case4 a b c bytes ih =>
    have ha := a.toNat_lt
    have hb := b.toNat_lt
    have hc := c.toNat_lt
    have hs : base64Value (base64Digit (a.toNat / 4)) = a.toNat / 4 :=
      base64Value_base64Digit (by omega)
    have ht : base64Value (base64Digit (a.toNat % 4 * 16 + b.toNat / 16)) =
        a.toNat % 4 * 16 + b.toNat / 16 := base64Value_base64Digit (by omega)
    have hu : base64Value (base64Digit (b.toNat % 16 * 4 + c.toNat / 64)) =
        b.toNat % 16 * 4 + c.toNat / 64 := base64Value_base64Digit (by omega)
    have hv : base64Value (base64Digit (c.toNat % 64)) = c.toNat % 64 :=
      base64Value_base64Digit (by omega)
    have hfirst : a.toNat / 4 * 4 + (a.toNat % 4 * 16 + b.toNat / 16) / 16 = a.toNat := by omega
    have hsecond : (a.toNat % 4 * 16 + b.toNat / 16) % 16 * 16 +
        (b.toNat % 16 * 4 + c.toNat / 64) / 4 = b.toNat := by omega
    have hthird : (b.toNat % 16 * 4 + c.toNat / 64) % 4 * 64 + c.toNat % 64 = c.toNat := by omega
    unfold fromBase64url
    rw [hs, ht, hu, hv, hfirst, hsecond, hthird, ih]
    change UInt8.ofNat a.toNat :: UInt8.ofNat b.toNat :: UInt8.ofNat c.toNat :: bytes = _
    rw [a.ofNat_toNat, b.ofNat_toNat, c.ofNat_toNat]

/-- Only units of the alphabet are written. -/
theorem isBase64url_of_mem (bytes : List UInt8) :
    ∀ u ∈ base64url bytes, isBase64url u = true := by
  have hdigit : ∀ n < 64, isBase64url (base64Digit n) = true := fun n h => (base64Digit_spec h).2
  fun_induction base64url bytes with
  | case1 => simp
  | case2 a =>
    have ha := a.toNat_lt
    simp only [List.forall_mem_cons, List.not_mem_nil, false_implies, implies_true, and_true]
    exact ⟨hdigit _ (by omega), hdigit _ (by omega)⟩
  | case3 a b =>
    have ha := a.toNat_lt
    have hb := b.toNat_lt
    simp only [List.forall_mem_cons, List.not_mem_nil, false_implies, implies_true, and_true]
    exact ⟨hdigit _ (by omega), hdigit _ (by omega), hdigit _ (by omega)⟩
  | case4 a b c bytes ih =>
    have ha := a.toNat_lt
    have hb := b.toNat_lt
    have hc := c.toNat_lt
    simp only [List.forall_mem_cons]
    exact ⟨hdigit _ (by omega), hdigit _ (by omega), hdigit _ (by omega), hdigit _ (by omega), ih⟩

/-- Some bytes are some text. -/
theorem base64url_ne_nil {bytes : List UInt8} (h : bytes ≠ []) : base64url bytes ≠ [] := by
  fun_cases base64url bytes with
  | case1 => exact absurd rfl h
  | _ => exact List.cons_ne_nil _ _

/-- An address takes the alphabet as it is. -/
theorem isUnreserved_of_isBase64url {u : UInt16} (h : isBase64url u = true) :
    isUnreserved u = true := by
  have hmarks : ∀ w : UInt16, w = 95 ∨ w = 45 → (str "-_.!~*'()").contains w = true := by
    rintro w (rfl | rfl)
    · decide
    · decide
  unfold isBase64url at h
  unfold isUnreserved
  simp only [Bool.or_eq_true, Bool.and_eq_true, decide_eq_true_eq, beq_iff_eq] at h ⊢
  rcases h with (((h | h) | h) | h) | h
  · exact .inl (.inl (.inr h))
  · exact .inl (.inl (.inl h))
  · exact .inl (.inr h)
  · exact .inr (hmarks u (.inl h))
  · exact .inr (hmarks u (.inr h))

/-- What is unreserved is not encoded. -/
theorem encodeURIComponent_of_isUnreserved {s : Str} (h : ∀ u ∈ s, isUnreserved u = true) :
    encodeURIComponent s = some s := by
  fun_induction encodeURIComponent s with
  | case1 => rfl
  | _ => simp_all

end SplitBill.Js
