import Mathlib.Data.List.Nodup
import Mathlib.Order.Nat

/-!
# Paging through rows that only grow

Rows are listed by their time, the latest first, and then by their ids, and somebody reads the list
page by page while rows are added, and while groups of rows are dropped as a whole. A row that stays
never moves towards the front of the list, so that no page passes it by: all that a page can do is
to repeat rows of the page before. `Covered` is what the reader has at every page, and a reader
whose pages reach the end of the list has seen every row that was there from the beginning and that
still is.
-/

namespace SplitBill

variable {α : Type}

/-- The columns by which rows are listed. -/
structure Listing (α : Type) where
  rowId : α → ℕ
  group : α → ℕ
  time : α → ℕ

namespace Listing

variable (t : Listing α)

/-- The order of a list. -/
def newer (a b : α) : Bool := t.time b < t.time a ∨ t.time a = t.time b ∧ t.rowId a < t.rowId b

/-- The rows of a group. -/
def rowsOf (g : ℕ) (rows : List α) : List α := rows.filter (t.group · = g)

/-- How many rows of its group stand before a row. -/
def place (rows : List α) (a : α) : ℕ := (t.rowsOf (t.group a) rows).countP (t.newer · a)

/-- Every id is that of one row, and they are drawn in order up to `n`. -/
structure Drawn (n : ℕ) (rows : List α) : Prop where
  nodup : (rows.map t.rowId).Nodup
  lt : ∀ a ∈ rows, t.rowId a < n

/-- What may happen to the rows: new ones have new ids, and of each group either all stay or all
go. -/
structure Grows (n : ℕ) (rows : List α) (n' : ℕ) (rows' : List α) : Prop where
  le : n ≤ n'
  fresh : ∀ a ∈ rows', a ∈ rows ∨ n ≤ t.rowId a
  kept : ∀ g, (t.rowsOf g rows).Sublist (t.rowsOf g rows') ∨ ∀ a ∈ t.rowsOf g rows', n ≤ t.rowId a
  drawn : t.Drawn n rows → t.Drawn n' rows'

variable {t} {n n' n'' g l : ℕ} {rows rows' rows'' : List α} {a b : α}

/-- The rows of a group. -/
theorem mem_rowsOf : a ∈ t.rowsOf g rows ↔ a ∈ rows ∧ t.group a = g := by
  rw [rowsOf, List.mem_filter, decide_eq_true_eq]

/-- A row is newer if its time is later, or its id is greater at the same time. -/
theorem newer_iff : t.newer a b = true ↔
    t.time b < t.time a ∨ t.time a = t.time b ∧ t.rowId a < t.rowId b := decide_eq_true_iff

/-- Of two rows only one is newer. -/
theorem newer_asymm (h : t.newer a b = true) : t.newer b a = false := by
  rw [newer_iff] at h
  apply decide_eq_false
  omega

/-! ## Growing -/

/-- A table that stays as it is grows by nothing. -/
theorem Grows.of_eq (h : n ≤ n') : t.Grows n rows n' rows :=
  ⟨h, fun _ ha => .inl ha, fun _ => .inl (List.Sublist.refl _),
    fun hd => ⟨hd.nodup, fun a ha => lt_of_lt_of_le (hd.lt a ha) h⟩⟩

/-- A table that grows twice grows. -/
theorem Grows.trans (h : t.Grows n rows n' rows') (h' : t.Grows n' rows' n'' rows'') :
    t.Grows n rows n'' rows'' := by
  refine ⟨le_trans h.le h'.le, fun a ha => ?_, fun g => ?_, fun hd => h'.drawn (h.drawn hd)⟩
  · rcases h'.fresh a ha with ha' | hle
    · exact h.fresh a ha'
    · exact .inr (le_trans h.le hle)
  · rcases h'.kept g with hsub' | hgone'
    · rcases h.kept g with hsub | hgone
      · exact .inl (hsub.trans hsub')
      · -- What was there before is gone, and what is added is new.
        refine .inr fun a ha => ?_
        obtain ⟨hmem, hg⟩ := mem_rowsOf.mp ha
        rcases h'.fresh a hmem with hold | hle
        · exact hgone a (mem_rowsOf.mpr ⟨hold, hg⟩)
        · exact le_trans h.le hle
    · exact .inr fun a ha => le_trans h.le (hgone' a ha)

/-- A row that is added. -/
theorem Grows.cons (hid : t.rowId a = n) (h : n < n') : t.Grows n rows n' (a :: rows) := by
  refine ⟨h.le, fun b hb => ?_, fun g => .inl ((List.sublist_cons_self a rows).filter _),
    fun hd => ⟨?_, fun b hb => ?_⟩⟩
  · rcases List.mem_cons.mp hb with rfl | hb
    · exact .inr hid.ge
    · exact .inl hb
  · rw [List.map_cons, List.nodup_cons]
    refine ⟨fun hmem => ?_, hd.nodup⟩
    obtain ⟨b, hb, heq⟩ := List.mem_map.mp hmem
    exact absurd (hd.lt b hb) (by omega)
  · rcases List.mem_cons.mp hb with rfl | hb
    · exact hid ▸ h
    · exact lt_trans (hd.lt b hb) h

/-- The rows of a group that are dropped. -/
theorem Grows.drop (g : ℕ) : t.Grows n rows n (rows.filter (t.group · ≠ g)) := by
  refine ⟨le_refl n, fun a ha => .inl (List.mem_of_mem_filter ha), fun g' => ?_,
    fun hd => ⟨hd.nodup.sublist (List.filter_sublist.map _),
      fun a ha => hd.lt a (List.mem_of_mem_filter ha)⟩⟩
  by_cases hg : g' = g
  · refine .inr fun a ha => ?_
    obtain ⟨hmem, hga⟩ := mem_rowsOf.mp ha
    exact absurd (hga.trans hg) (of_decide_eq_true (List.mem_filter.mp hmem).2)
  · left
    have hsame : t.rowsOf g' (rows.filter (t.group · ≠ g)) = t.rowsOf g' rows := by
      unfold rowsOf
      rw [List.filter_filter]
      refine List.filter_congr fun a _ => ?_
      by_cases hga : t.group a = g'
      · simp [hga, hg]
      · simp [hga]
    rw [hsame]

/-- A row that stays has at least as many rows before it. -/
theorem Grows.place_le (h : t.Grows n rows n' rows') (ha : a ∈ rows') (hlt : t.rowId a < n) :
    t.place rows a ≤ t.place rows' a := by
  rcases h.kept (t.group a) with hsub | hgone
  · exact hsub.countP_le
  · exact absurd (hgone a (mem_rowsOf.mpr ⟨ha, rfl⟩)) (by omega)

/-! ## Reading -/

/-- Of the rows that a reader found at the beginning, those that are still there have been shown or
stand at place `k` or later. -/
def Covered (t : Listing α) (g : ℕ) (first rows : List α) (shown : List ℕ) (k : ℕ) : Prop :=
  ∀ a ∈ first, t.group a = g → a ∈ rows → t.rowId a ∈ shown ∨ k ≤ t.place rows a

variable {first : List α} {shown : List ℕ} {k m : ℕ}

/-- Before the first page nothing is missing. -/
theorem Covered.zero : t.Covered g first rows shown 0 := fun _ _ _ _ => .inr (Nat.zero_le _)

/-- Whatever is added or dropped, the reader misses nothing. -/
theorem Covered.later (h : t.Covered g first rows shown k) (hfirst : ∀ a ∈ first, t.rowId a < n)
    (hgrows : t.Grows n rows n' rows') : t.Covered g first rows' shown k := by
  intro a ha hg ha'
  have hlt : t.rowId a < n := hfirst a ha
  have hmem : a ∈ rows := (hgrows.fresh a ha').resolve_right (by omega)
  exact (h a ha hg hmem).imp_right fun hk => hk.trans (hgrows.place_le ha' hlt)

/-- A row of a sorted list stands behind the rows before it. -/
theorem countP_newer {sorted : List α} (hsorted : sorted.Pairwise (t.newer · ·)) {i : ℕ}
    (hi : i < sorted.length) : sorted.countP (t.newer · sorted[i]) = i := by
  have hsplit : sorted = sorted.take i ++ sorted[i] :: sorted.drop (i + 1) := by
    rw [← List.drop_eq_getElem_cons hi, List.take_append_drop]
  generalize sorted[i] = a at hsplit ⊢
  rw [hsplit, List.pairwise_append, List.pairwise_cons] at hsorted
  obtain ⟨-, ⟨hafter, -⟩, hbefore⟩ := hsorted
  have hself : t.newer a a = false := by
    apply decide_eq_false
    omega
  have htake : (sorted.take i).countP (t.newer · a) = i := by
    rw [List.countP_eq_length.mpr fun b hb => hbefore b hb a List.mem_cons_self, List.length_take]
    omega
  have hdrop : (sorted.drop (i + 1)).countP (t.newer · a) = 0 := by
    refine List.countP_eq_zero.mpr fun b hb => ?_
    rw [newer_asymm (hafter b hb)]
    exact Bool.false_ne_true
  rw [hsplit, List.countP_append, htake, List.countP_cons_of_neg (by rw [hself]; decide), hdrop,
    Nat.add_zero]

/-- The next page takes up where the last one ended. -/
theorem Covered.page (h : t.Covered g first rows shown k) {sorted : List α}
    (hperm : sorted.Perm (t.rowsOf g rows)) (hsorted : sorted.Pairwise (t.newer · ·)) :
    t.Covered g first rows (shown ++ ((sorted.drop k).take m).map t.rowId) (k + m) := by
  intro a ha hg hmem
  rcases h a ha hg hmem with hshown | hk
  · exact .inl (List.mem_append_left _ hshown)
  · obtain ⟨i, hi, rfl⟩ := List.mem_iff_getElem.mp (hperm.mem_iff.mpr (mem_rowsOf.mpr ⟨hmem, hg⟩))
    -- In the sorted table a row stands at its place.
    have hplace : t.place rows sorted[i] = i := by
      unfold place
      rw [hg, ← hperm.countP_eq]
      exact countP_newer hsorted hi
    rw [hplace] at hk ⊢
    -- The row is on this page, or on a later one.
    by_cases hlt : i < k + m
    · left
      refine List.mem_append_right _ (List.mem_map_of_mem ?_)
      refine List.mem_iff_getElem.mpr ⟨i - k, ?_, ?_⟩
      · rw [List.length_take, List.length_drop]
        omega
      · rw [List.getElem_take, List.getElem_drop]
        congr 1
        omega
    · exact .inr (by omega)

/-- A reader whose pages reach the end has been shown every row that is still there. -/
theorem Covered.all (h : t.Covered g first rows shown k) (hk : (t.rowsOf g rows).length ≤ k) :
    ∀ a ∈ first, t.group a = g → a ∈ rows → t.rowId a ∈ shown := by
  intro a ha hg hmem
  refine (h a ha hg hmem).resolve_right fun hle => ?_
  -- The row does not stand before itself.
  have hlt : t.place rows a < (t.rowsOf (t.group a) rows).length := by
    refine lt_of_le_of_ne List.countP_le_length fun heq => ?_
    have hself := List.countP_eq_length.mp heq a (mem_rowsOf.mpr ⟨hmem, rfl⟩)
    rw [newer_iff] at hself
    omega
  rw [hg] at hlt
  omega

end Listing

end SplitBill
