import Mathlib.Algebra.Order.BigOperators.Group.Finset
import Mathlib.Algebra.Order.Group.Abs
import Mathlib.Algebra.Order.Ring.Int

/-!
# Taking over balances

Integer balances of some parties, and transfers in which a party that owes takes over all that
another is owed. Each such transfer leaves one party less with a balance, whether or not it turns
the debtor into a creditor, so that there can be only so many of them. If the balances sum to zero
the transfers can go on as long as there is a balance.
-/

namespace SplitBill

section

variable {ι : Type} {s : Finset ι} {f g : ι → ℤ} {debtor creditor : ι}

/-- Who has a balance. -/
def unsettled (s : Finset ι) (f : ι → ℤ) : Finset ι := s.filter (f · ≠ 0)

/-- The unsettled are those whose position is not zero. -/
theorem mem_unsettled {i : ι} : i ∈ unsettled s f ↔ i ∈ s ∧ f i ≠ 0 := Finset.mem_filter

/-- The balances `g` after `debtor` has taken over what `creditor` was owed. -/
structure TakesOver (f : ι → ℤ) (debtor creditor : ι) (g : ι → ℤ) : Prop where
  debt : f debtor < 0
  credit : 0 < f creditor
  taken : g debtor = f debtor + f creditor
  cleared : g creditor = 0
  others : ∀ i, i ≠ debtor → i ≠ creditor → g i = f i

/-- Nobody has a new balance, and the creditor has none. -/
theorem TakesOver.unsettled_subset [DecidableEq ι] (h : TakesOver f debtor creditor g) :
    unsettled s g ⊆ (unsettled s f).erase creditor := by
  intro i hi
  obtain ⟨hs, hne⟩ := mem_unsettled.mp hi
  have hcreditor : i ≠ creditor := by
    rintro rfl
    exact hne h.cleared
  have hf : f i ≠ 0 := by
    by_cases hd : i = debtor
    · rw [hd]
      exact h.debt.ne
    · rw [← h.others i hd hcreditor]
      exact hne
  exact Finset.mem_erase.mpr ⟨hcreditor, mem_unsettled.mpr ⟨hs, hf⟩⟩

/-- One party less has a balance. -/
theorem TakesOver.card_lt (h : TakesOver f debtor creditor g) (hs : creditor ∈ s) :
    (unsettled s g).card < (unsettled s f).card := by
  classical
  have hmem : creditor ∈ unsettled s f := mem_unsettled.mpr ⟨hs, h.credit.ne'⟩
  calc (unsettled s g).card
      ≤ ((unsettled s f).erase creditor).card := Finset.card_le_card h.unsettled_subset
    _ < (unsettled s f).card := Finset.card_erase_lt_of_mem hmem

/-- No balance is larger than the largest one before. -/
theorem TakesOver.bounded (h : TakesOver f debtor creditor g) {bound : ℤ}
    (hf : ∀ i, |f i| ≤ bound) (i : ι) : |g i| ≤ bound := by
  have hd := abs_le.mp (hf debtor)
  have hc := abs_le.mp (hf creditor)
  have hdebt := h.debt
  have hcredit := h.credit
  by_cases hid : i = debtor
  · rw [hid, h.taken]
    exact abs_le.mpr ⟨by omega, by omega⟩
  by_cases hic : i = creditor
  · rw [hic, h.cleared, abs_zero]
    omega
  · rw [h.others i hid hic]
    exact hf i

/-- If the balances sum to zero, a balance of one party means that one owes and one is owed. -/
theorem exists_debtor_creditor (hsum : ∑ i ∈ s, f i = 0) (h : ∃ i ∈ s, f i ≠ 0) :
    (∃ i ∈ s, f i < 0) ∧ ∃ i ∈ s, 0 < f i := by
  refine ⟨?_, Finset.exists_pos_of_sum_zero_of_exists_nonzero f hsum h⟩
  obtain ⟨i, hi, hpos⟩ := Finset.exists_pos_of_sum_zero_of_exists_nonzero (fun i => -f i)
    (by rw [Finset.sum_neg_distrib, hsum, neg_zero])
    (h.imp fun i hi => ⟨hi.1, neg_ne_zero.mpr hi.2⟩)
  exact ⟨i, hi, by omega⟩

end

/-- A run in which every step lowers a measure is no longer than the measure of its start. -/
theorem length_add_le_of_isChain {α : Type} {step : α → α → Prop} {keeps : α → Prop}
    {measure : α → ℕ} (hkeeps : ∀ a b, keeps a → step a b → keeps b)
    (hlt : ∀ a b, keeps a → step a b → measure b < measure a) {a : α} {as : List α} (ha : keeps a)
    (h : (a :: as).IsChain step) :
    keeps ((a :: as).getLast (List.cons_ne_nil a as)) ∧
      as.length + measure ((a :: as).getLast (List.cons_ne_nil a as)) ≤ measure a := by
  induction as generalizing a with
  | nil => exact ⟨ha, by simp⟩
  | cons b as ih =>
    rw [List.isChain_cons_cons] at h
    obtain ⟨hlast, hlength⟩ := ih (hkeeps a b ha h.1) h.2
    have hfirst := hlt a b ha h.1
    rw [List.getLast_cons (List.cons_ne_nil b as), List.length_cons]
    exact ⟨hlast, by omega⟩

end SplitBill
