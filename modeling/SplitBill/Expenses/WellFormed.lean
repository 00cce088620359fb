import SplitBill.Expenses.Service
import SplitBill.Rules
import SplitBill.Settlements.Repository

/-!
# Every stored expense is well formed

A stored expense has a positive amount and at least one split, its split users are distinct, and its
splits are not negative and sum to the amount. `WellSplit` says this of an amount and the splits
that a request comes to, and it holds on each of the paths on which `createExpense` and
`updateExpense` compute them: `reconcileSplits_wellSplit` for the participants of a request and
`nextSplits_wellSplit` for an update, which may keep the stored ones.

An update merges over what it read, which may be stale when its transaction runs. What it writes is
well formed all the same, since the amount, the splits and their users all come from one read or
from the request. So every transaction keeps the invariant whatever the others did in between.
-/

namespace SplitBill

open Interleave
open Prisma (SplitAmount CreateExpenseData UpdateExpenseData newSplits)

/-- Splits that divide an amount. -/
structure WellSplit (amount : ℤ) (splits : List SplitAmount) : Prop where
  amount_pos : 0 < amount
  splits_ne : splits ≠ []
  users_nodup : (splits.map (·.userId)).Nodup
  nonneg : ∀ s ∈ splits, 0 ≤ s.amountMinorUnits
  sum_eq : (splits.map (·.amountMinorUnits)).sum = amount

/-- An expense that the table may hold. -/
structure Expense.WellFormed (e : Expense) : Prop where
  amount_pos : 0 < e.amountMinorUnits
  splits_ne : e.splits ≠ []
  users_nodup : (e.splits.map (·.userId)).Nodup
  nonneg : ∀ s ∈ e.splits, 0 ≤ s.amountMinorUnits
  sum_eq : (e.splits.map (·.amountMinorUnits)).sum = e.amountMinorUnits

/-! ## The splits of a request -/

/-- An equal split divides its amount among distinct users. -/
theorem calculateEqualSplits_wellSplit {total : ℤ} {ids : List Id} (htotal : 0 < total)
    (hids : ids ≠ []) (hnodup : ids.Nodup) : WellSplit total (calculateEqualSplits total ids) where
  amount_pos := htotal
  splits_ne := by
    rw [← List.length_pos_iff, length_calculateEqualSplits, List.length_pos_iff]
    exact hids
  users_nodup := by
    rw [userIds_calculateEqualSplits]
    exact hnodup
  nonneg := fun s hs => nonneg_of_mem_calculateEqualSplits htotal.le hs
  sum_eq := sum_calculateEqualSplits htotal.le hids

namespace ExpenseService

/-- Exact splits name the participants in their order. -/
theorem userIds_exactSplits {participants : List Participant} {splits : List SplitAmount}
    (h : exactSplits participants = some splits) :
    splits.map (·.userId) = participants.map (·.userId) := by
  induction participants generalizing splits with
  | nil =>
    simp only [exactSplits, List.mapM_nil, Option.pure_def, Option.some.injEq] at h
    simp [← h]
  | cons p ps ih =>
    simp only [exactSplits, List.mapM_cons, Option.bind_eq_bind, Option.pure_def,
      Option.bind_eq_some_iff, Option.map_eq_some_iff, Option.some.injEq] at h
    obtain ⟨s, ⟨a, -, rfl⟩, ss, hss, rfl⟩ := h
    rw [List.map_cons, List.map_cons, ih hss]

/-- Exact splits are the amounts that the participants gave, so accepted ones are positive. -/
theorem pos_of_mem_exactSplits {participants : List Participant} {splits : List SplitAmount}
    (h : exactSplits participants = some splits) (hacc : ∀ p ∈ participants, p.Accepted)
    {s : SplitAmount} (hs : s ∈ splits) : 0 < s.amountMinorUnits := by
  induction participants generalizing splits with
  | nil =>
    simp only [exactSplits, List.mapM_nil, Option.pure_def, Option.some.injEq] at h
    rw [← h] at hs
    cases hs
  | cons p ps ih =>
    simp only [exactSplits, List.mapM_cons, Option.bind_eq_bind, Option.pure_def,
      Option.bind_eq_some_iff, Option.map_eq_some_iff, Option.some.injEq] at h
    obtain ⟨_, ⟨a, ha, rfl⟩, ss, hss, rfl⟩ := h
    rcases List.mem_cons.mp hs with rfl | hs
    · exact (hacc p List.mem_cons_self a ha).1
    · exact ih hss (fun q hq => hacc q (List.mem_cons_of_mem _ hq)) hs

/-- The splits that `reconcileSplits` returns divide the amount. -/
theorem reconcileSplits_wellSplit {splitType : SplitType} {total : ℤ}
    {participants : List Participant} {memberIds : List Id} {splits : List SplitAmount}
    (htotal : 0 < total) (hacc : ∀ p ∈ participants, p.Accepted) (hne : participants ≠ [])
    (h : reconcileSplits splitType total participants memberIds = .ok splits) :
    WellSplit total splits := by
  simp only [reconcileSplits, ite_error_eq_ok, not_not] at h
  obtain ⟨hnodup, -, h⟩ := h
  cases splitType with
  | equal =>
    obtain rfl := Except.ok.inj h
    exact calculateEqualSplits_wellSplit htotal (by simpa using hne) hnodup
  | exact =>
    cases hexact : exactSplits participants with
    | none => simp [hexact] at h
    | some exact =>
      simp only [hexact, ite_error_eq_ok, not_not, Except.ok.injEq] at h
      obtain ⟨hsum, rfl⟩ := h
      -- The users of the splits are the participants, and the amounts were checked.
      have hids := userIds_exactSplits hexact
      refine ⟨htotal, ?_, ?_, fun s hs => (pos_of_mem_exactSplits hexact hacc hs).le, ?_⟩
      · rintro rfl
        exact hne (List.map_eq_nil_iff.mp hids.symm)
      · rw [hids]
        exact hnodup
      · rw [← sumSplitAmounts_eq]
        exact hsum

/-! ## The splits of an update -/

/-- The split rows that a query returns are the stored ones in some order. -/
theorem keptSplits_perm (c : Choice) (db : Db) (before : ExpenseSplit → ExpenseSplit → Bool)
    (e : Expense) : (keptSplits (e.details c db before)).Perm
      (e.splits.map fun s => ⟨s.userId, s.amountMinorUnits⟩) := by
  have h := (c.arrange_perm (·.id) before e.splits).map
    fun s : ExpenseSplit => (⟨s.userId, s.amountMinorUnits⟩ : SplitAmount)
  simpa [keptSplits, Expense.details, List.map_map, Function.comp_def] using h

/-- What a query returns of a well-formed expense divides its amount. -/
theorem keptSplits_wellSplit {c : Choice} {db : Db} {before : ExpenseSplit → ExpenseSplit → Bool}
    {e : Expense} (h : e.WellFormed) :
    WellSplit e.amountMinorUnits (keptSplits (e.details c db before)) := by
  have hperm := keptSplits_perm c db before e
  constructor
  case amount_pos => exact h.amount_pos
  case splits_ne =>
    intro hnil
    rw [hnil, List.nil_perm, List.map_eq_nil_iff] at hperm
    exact h.splits_ne hperm
  case users_nodup =>
    rw [(hperm.map _).nodup_iff, List.map_map]
    exact h.users_nodup
  case nonneg =>
    intro s hs
    obtain ⟨x, hx, rfl⟩ := List.mem_map.mp (hperm.mem_iff.mp hs)
    exact h.nonneg x hx
  case sum_eq =>
    rw [(hperm.map _).sum_eq, List.map_map]
    exact h.sum_eq

/-- The splits of an update of a well-formed expense divide the amount that it will have. -/
theorem nextSplits_wellSplit {c : Choice} {db : Db} {before : ExpenseSplit → ExpenseSplit → Bool}
    {e : Expense} (he : e.WellFormed) {input : UpdateExpenseInput} (hacc : input.Accepted)
    {memberIds : List Id} {splits : List SplitAmount}
    (h : nextSplits (e.details c db before) input memberIds = .ok splits) :
    WellSplit (input.amountMinorUnits.getD e.amountMinorUnits) splits := by
  have hkept : WellSplit e.amountMinorUnits (keptSplits (e.details c db before)) :=
    keptSplits_wellSplit he
  have htotal : 0 < input.amountMinorUnits.getD e.amountMinorUnits := by
    cases ha : input.amountMinorUnits with
    | none => exact he.amount_pos
    | some a => exact (hacc.1 a ha).1
  unfold nextSplits at h
  cases hp : input.participants with
  | some participants =>
    obtain ⟨hps, hne⟩ := hacc.2.1 participants hp
    rw [hp] at h
    exact reconcileSplits_wellSplit htotal hps hne h
  | none =>
    rw [hp] at h
    have hids : (keptSplits (e.details c db before)).map (·.userId) =
        (e.details c db before).splits.map (·.userId) := by
      rw [keptSplits, List.map_map]
      rfl
    cases ht : input.splitType.getD (e.details c db before).splitType with
    | exact =>
      -- The kept splits, if they still sum to the amount.
      simp only [ht, ite_error_eq_ok, not_not, Except.ok.injEq] at h
      obtain ⟨hsum, rfl⟩ := h
      rw [sumSplitAmounts_eq] at hsum
      exact ⟨htotal, hkept.splits_ne, hkept.users_nodup, hkept.nonneg, hsum⟩
    | equal =>
      -- The amount divided anew among the kept participants.
      simp only [ht, Except.ok.injEq] at h
      subst h
      rw [← hids]
      refine calculateEqualSplits_wellSplit htotal ?_ hkept.users_nodup
      rw [Ne, List.map_eq_nil_iff]
      exact hkept.splits_ne

end ExpenseService

/-! ## What the transactions write -/

/-- The rows of new splits have their users and amounts. -/
theorem map_newSplits (now : Time) (firstId : Id) (splits : List SplitAmount) :
    (newSplits now firstId splits).map (fun s => (⟨s.userId, s.amountMinorUnits⟩ : SplitAmount)) =
      splits := by
  induction splits generalizing firstId with
  | nil => rfl
  | cons s ss ih =>
    show ⟨s.userId, s.amountMinorUnits⟩ :: List.map _ (newSplits now (firstId + 1) ss) = s :: ss
    rw [ih]

/-- The new rows are for the users of the splits. -/
theorem userIds_newSplits (now : Time) (firstId : Id) (splits : List SplitAmount) :
    (newSplits now firstId splits).map (·.userId) = splits.map (·.userId) := by
  calc (newSplits now firstId splits).map (·.userId)
      = ((newSplits now firstId splits).map fun s =>
          (⟨s.userId, s.amountMinorUnits⟩ : SplitAmount)).map (·.userId) := by
        rw [List.map_map]
        rfl
    _ = splits.map (·.userId) := by rw [map_newSplits]

/-- An expense is well formed when the splits it was written from divide its amount. -/
theorem Expense.wellFormed_of_newSplits {e : Expense} {now : Time} {firstId : Id}
    {splits : List SplitAmount} (hsplits : e.splits = newSplits now firstId splits)
    (h : WellSplit e.amountMinorUnits splits) : e.WellFormed := by
  have hmap := map_newSplits now firstId splits
  rw [← hsplits] at hmap
  refine ⟨h.amount_pos, ?_, ?_, fun s hs => ?_, ?_⟩
  · intro hnil
    rw [hnil, List.map_nil] at hmap
    exact h.splits_ne hmap.symm
  · have hnodup := h.users_nodup
    rw [← hmap, List.map_map] at hnodup
    exact hnodup
  · exact h.nonneg ⟨s.userId, s.amountMinorUnits⟩ (hmap ▸ List.mem_map_of_mem hs)
  · have hsum := h.sum_eq
    rw [← hmap, List.map_map] at hsum
    exact hsum

/-- The participants that `reconcileSplits` lets through are members. -/
theorem reconcileSplits_members {splitType : SplitType} {total : ℤ}
    {participants : List Participant} {memberIds : List Id} {splits : List SplitAmount}
    (h : ExpenseService.reconcileSplits splitType total participants memberIds = .ok splits) :
    ∀ u ∈ splits.map (·.userId), u ∈ memberIds := by
  simp only [ExpenseService.reconcileSplits, ite_error_eq_ok, not_not] at h
  obtain ⟨-, hmembers, h⟩ := h
  cases splitType with
  | equal =>
    obtain rfl := Except.ok.inj h
    rw [userIds_calculateEqualSplits]
    exact hmembers
  | exact =>
    cases hexact : ExpenseService.exactSplits participants with
    | none => simp [hexact] at h
    | some exact =>
      simp only [hexact, ite_error_eq_ok, not_not, Except.ok.injEq] at h
      obtain ⟨-, rfl⟩ := h
      rw [ExpenseService.userIds_exactSplits hexact]
      exact hmembers

end SplitBill
