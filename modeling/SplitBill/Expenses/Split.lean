import Mathlib.Algebra.BigOperators.Group.List.Basic
import Mathlib.Tactic.Ring
import SplitBill.Js.Number
import SplitBill.Prisma

/-!
# Splitting an amount

`src/modules/expenses/split.util.ts`. An equal split gives everyone the rounded-down share and one
unit of the remainder to each of the first participants, so that the shares sum to the amount
(`sum_calculateEqualSplits`). The division of `bigint` rounds towards zero, as `Int.tdiv` does.
-/

namespace SplitBill

open Prisma (SplitAmount)

/-- The share at a position: one unit more for each of the first participants, until the remainder
is used up. -/
def equalShare (totalMinorUnits count : ℤ) (index : ℕ) : ℤ :=
  let baseShare := totalMinorUnits.tdiv count
  let remainder := totalMinorUnits.tmod count
  baseShare + if (index : ℤ) < remainder then 1 else 0

/-- `calculateEqualSplits`. -/
def calculateEqualSplits (totalMinorUnits : ℤ) (participantIds : List Id) : List SplitAmount :=
  if participantIds.length = 0 then []
  else participantIds.mapIdx fun index userId =>
    ⟨userId, equalShare totalMinorUnits participantIds.length index⟩

/-- `sumSplitAmounts`. -/
def sumSplitAmounts (splits : List SplitAmount) : ℤ :=
  splits.foldl (fun sum split => sum + split.amountMinorUnits) 0

/-- `sumSplitAmounts` is the sum. -/
theorem sumSplitAmounts_eq (splits : List SplitAmount) :
    sumSplitAmounts splits = (splits.map (·.amountMinorUnits)).sum := by
  have hfold : ∀ (ss : List SplitAmount) (a : ℤ),
      ss.foldl (fun sum split => sum + split.amountMinorUnits) a =
        a + (ss.map (·.amountMinorUnits)).sum := by
    intro ss
    induction ss with
    | nil => intro a; simp
    | cons s ss ih =>
      intro a
      rw [List.foldl_cons, ih, List.map_cons, List.sum_cons]
      ring
  rw [sumSplitAmounts, hfold, zero_add]

/-- There is a split for each participant. -/
theorem length_calculateEqualSplits (total : ℤ) (ids : List Id) :
    (calculateEqualSplits total ids).length = ids.length := by
  unfold calculateEqualSplits
  split
  · next h => rw [h, List.length_nil]
  · rw [List.length_mapIdx]

/-- The shares go to the participants in their order. -/
theorem userIds_calculateEqualSplits (total : ℤ) (ids : List Id) :
    (calculateEqualSplits total ids).map (·.userId) = ids := by
  unfold calculateEqualSplits
  split
  · next h => rw [List.length_eq_zero_iff.mp h, List.map_nil]
  · refine List.ext_getElem (by simp) fun i h₁ h₂ => ?_
    simp

/-- The amounts are the shares of the positions. -/
theorem amounts_calculateEqualSplits (total : ℤ) {ids : List Id} (h : ids ≠ []) :
    (calculateEqualSplits total ids).map (·.amountMinorUnits) =
      (List.range ids.length).map (equalShare total ids.length) := by
  rw [calculateEqualSplits, if_neg (by simpa using h)]
  refine List.ext_getElem (by simp) fun i h₁ h₂ => ?_
  simp

/-- The first `r` of `n` positions, each counted once. -/
theorem sum_lt_indicator (n : ℕ) (r : ℤ) (h0 : 0 ≤ r) (hr : r ≤ n) :
    ((List.range n).map fun i : ℕ => if (i : ℤ) < r then (1 : ℤ) else 0).sum = r := by
  induction n generalizing r with
  | zero =>
    have : r = 0 := by push_cast at hr; omega
    simp [this]
  | succ n ih =>
    rw [List.range_succ, List.map_append, List.sum_append, List.map_singleton, List.sum_singleton]
    by_cases hn : (n : ℤ) < r
    · have hrn : r = n + 1 := by push_cast at hr; omega
      have hfull : ((List.range n).map fun i : ℕ =>
        if (i : ℤ) < r then (1 : ℤ) else 0).sum = n := by
        have hcongr : ((List.range n).map fun i : ℕ => if (i : ℤ) < r then (1 : ℤ) else 0) =
            (List.range n).map fun i : ℕ => if (i : ℤ) < n then (1 : ℤ) else 0 := by
          refine List.map_congr_left fun i hi => ?_
          have := List.mem_range.mp hi
          rw [if_pos (by omega), if_pos (by omega)]
        rw [hcongr]
        exact ih n (by omega) le_rfl
      rw [hfull, if_pos hn, hrn]
    · rw [ih r h0 (by omega), if_neg hn, add_zero]

/-- An equal split is exact. -/
theorem sum_calculateEqualSplits {total : ℤ} (h : 0 ≤ total) {ids : List Id} (hids : ids ≠ []) :
    ((calculateEqualSplits total ids).map (·.amountMinorUnits)).sum = total := by
  have hlen : 0 < ids.length := List.length_pos_iff.mpr hids
  have hmod0 : 0 ≤ total.tmod ids.length := Int.tmod_nonneg _ h
  have hmodlt : total.tmod ids.length < ids.length := Int.tmod_lt_of_pos _ (by omega)
  rw [amounts_calculateEqualSplits total hids]
  calc ((List.range ids.length).map (equalShare total ids.length)).sum
      = ((List.range ids.length).map fun i : ℕ => total.tdiv ids.length +
          if (i : ℤ) < total.tmod ids.length then (1 : ℤ) else 0).sum := rfl
    _ = ids.length * total.tdiv ids.length + total.tmod ids.length := by
        rw [List.sum_map_add, sum_lt_indicator _ _ hmod0 hmodlt.le]
        simp
    _ = total := Int.mul_tdiv_add_tmod total ids.length

/-- An amount that everyone's share divides evenly gives everyone that share. -/
theorem calculateEqualSplits_of_dvd {share : ℤ} {ids : List Id} {s : SplitAmount}
    (hs : s ∈ calculateEqualSplits (ids.length * share) ids) : s.amountMinorUnits = share := by
  unfold calculateEqualSplits at hs
  split at hs
  · cases hs
  · next hne =>
    obtain ⟨i, hi, rfl⟩ := List.mem_mapIdx.mp hs
    have hlen : (ids.length : ℤ) ≠ 0 := by exact_mod_cast hne
    show equalShare (ids.length * share) ids.length i = share
    unfold equalShare
    simp only [Int.mul_tdiv_cancel_left _ hlen, Int.mul_tmod_right]
    rw [if_neg (by omega), add_zero]

/-- No share of an equal split is negative. -/
theorem nonneg_of_mem_calculateEqualSplits {total : ℤ} (h : 0 ≤ total) {ids : List Id}
    {s : SplitAmount} (hs : s ∈ calculateEqualSplits total ids) : 0 ≤ s.amountMinorUnits := by
  unfold calculateEqualSplits at hs
  split at hs
  · cases hs
  · obtain ⟨i, hi, rfl⟩ := List.mem_mapIdx.mp hs
    have hdiv : 0 ≤ total.tdiv ids.length := Int.tdiv_nonneg h (by omega)
    unfold equalShare
    show 0 ≤ total.tdiv ids.length + _
    split <;> omega

/-! ## Fairness -/

/-- The shares of a positive total: as many of the first ones as the remainder says are a unit
larger. -/
theorem amounts_eq_replicate {total : ℤ} (h : 0 ≤ total) {ids : List Id} (hids : ids ≠ []) :
    (calculateEqualSplits total ids).map (·.amountMinorUnits) =
      List.replicate (total % ids.length).toNat (total / ids.length + 1) ++
        List.replicate (ids.length - (total % ids.length).toNat) (total / ids.length) := by
  have hlen : 0 < ids.length := List.length_pos_iff.mpr hids
  have hmod0 : 0 ≤ total % ids.length := Int.emod_nonneg _ (by omega)
  have hmodlt : total % ids.length < ids.length := Int.emod_lt_of_pos _ (by omega)
  rw [amounts_calculateEqualSplits total hids]
  apply List.ext_getElem
  · rw [List.length_map, List.length_range, List.length_append, List.length_replicate,
      List.length_replicate]
    omega
  intro i h₁ h₂
  -- The division towards zero is the one towards minus infinity, as the total is not negative.
  have hshare : equalShare total ids.length i =
      total / ids.length + if (i : ℤ) < total % ids.length then 1 else 0 := by
    unfold equalShare
    rw [Int.tdiv_eq_ediv_of_nonneg h, Int.tmod_eq_emod_of_nonneg h]
  rw [List.getElem_map, List.getElem_range, hshare]
  by_cases hi : (i : ℤ) < total % ids.length
  · rw [if_pos hi, List.getElem_append_left (by rw [List.length_replicate]; omega),
      List.getElem_replicate]
  · rw [if_neg hi, List.getElem_append_right (by rw [List.length_replicate]; omega),
      List.getElem_replicate, add_zero]

/-- The remainder of a division by the length of an array is a number that a double can hold, so
that its conversion changes nothing. -/
theorem representable_tmod {total : ℤ} {n : ℕ} (h0 : 0 < n) (hn : n ≤ 2 ^ 53) :
    Js.Representable (total.tmod n) := by
  apply Js.representable_of_abs_le
  have hlt : (total.tmod n).natAbs < n := by
    rw [Int.natAbs_tmod, Int.natAbs_natCast]
    exact Nat.mod_lt _ h0
  rw [Int.abs_eq_natAbs]
  omega

/-- An equal split of a positive total is exact and fair. -/
theorem calculateEqualSplits_fair {total : ℤ} (htotal : 0 < total) {ids : List Id}
    (hids : ids ≠ []) :
    let splits := calculateEqualSplits total ids
    let shares := splits.map (·.amountMinorUnits)
    let larger := (total % ids.length).toNat
    splits.map (·.userId) = ids ∧ (∀ s ∈ shares, 0 ≤ s) ∧ sumSplitAmounts splits = total ∧
    (∀ s ∈ shares, ∀ t ∈ shares, |s - t| ≤ 1) ∧ shares.Pairwise (· ≥ ·) ∧
    shares = List.replicate larger (total / ids.length + 1) ++
      List.replicate (ids.length - larger) (total / ids.length) ∧
    (ids.length ≤ 2 ^ 53 → Js.Representable (total.tmod ids.length)) := by
  intro splits shares larger
  -- The shares come in two sizes, the larger ones first, and everything follows from that.
  have hshares : shares = List.replicate larger (total / ids.length + 1) ++
      List.replicate (ids.length - larger) (total / ids.length) :=
    amounts_eq_replicate htotal.le hids
  have hmem : ∀ s ∈ shares, s = total / ids.length + 1 ∨ s = total / ids.length := by
    intro s hs
    rw [hshares, List.mem_append] at hs
    exact hs.imp List.eq_of_mem_replicate List.eq_of_mem_replicate
  have hnonneg : 0 ≤ total / ids.length := Int.ediv_nonneg htotal.le (by omega)
  refine ⟨userIds_calculateEqualSplits total ids, ?_, ?_, ?_, ?_, hshares, ?_⟩
  · intro s hs
    have := hmem s hs
    omega
  · rw [sumSplitAmounts_eq]
    exact sum_calculateEqualSplits htotal.le hids
  · intro s hs t ht
    have hs' := hmem s hs
    have ht' := hmem t ht
    rw [abs_le]
    omega
  · rw [hshares, List.pairwise_append]
    refine ⟨List.pairwise_replicate.mpr (.inr le_rfl),
      List.pairwise_replicate.mpr (.inr le_rfl), ?_⟩
    intro s hs t ht
    have hs' := List.eq_of_mem_replicate hs
    have ht' := List.eq_of_mem_replicate ht
    omega
  · exact representable_tmod (List.length_pos_iff.mpr hids)

/-- More participants than units. -/
theorem calculateEqualSplits_fair_two_units :
    (calculateEqualSplits 2 [1, 2, 3]).map (·.amountMinorUnits) = [1, 1, 0] ∧
    sumSplitAmounts (calculateEqualSplits 2 [1, 2, 3]) = 2 := by
  have h := @calculateEqualSplits_fair 2 (by decide) [1, 2, 3] (by decide)
  exact ⟨h.2.2.2.2.2.1, h.2.2.1⟩

end SplitBill
