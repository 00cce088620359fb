import Mathlib.Data.PNat.Basic
import Mathlib.Data.Prod.Lex
import SplitBill.Backend

/-!
# Pages of a sorted list

A query that sorts by a timestamp and breaks ties by the id leaves the database no choice, so that
its pages fit together. The client reads them one after another until a page is short or it has as
many rows as the server counts.
-/

namespace SplitBill

open Interleave

/-! ## The order of a query -/

section

variable {α κ : Type} [LinearOrder κ] {key : α → κ} {rowId : α → Id} {before : α → α → Bool}

/-- Rows are sorted by the key that the query compares, and equal ones come as the database
pleases. -/
theorem pairwise_arrange (hbefore : ∀ a b, before a b = true ↔ key a < key b) (c : Choice)
    (rows : List α) : (c.arrange rowId before rows).Pairwise fun a b =>
      key a ≤ key b ∧ (key a = key b → c.rank (rowId a) ≤ c.rank (rowId b)) := by
  -- The order of the sort is the lexicographic one of the key and the rank.
  let lex : α → κ ×ₗ ℕ := fun a => toLex (key a, c.rank (rowId a))
  have hrel : ∀ a b, (before a b = true ∨
      ¬before b a = true ∧ c.rank (rowId a) ≤ c.rank (rowId b)) ↔ lex a ≤ lex b := by
    intro a b
    rw [hbefore, hbefore, not_lt, Prod.Lex.toLex_le_toLex]
    constructor
    · rintro (hlt | ⟨hle, hrank⟩)
      · exact .inl hlt
      · exact hle.lt_or_eq.imp id fun heq => ⟨heq, hrank⟩
    · rintro (hlt | ⟨heq, hrank⟩)
      · exact .inl hlt
      · exact .inr ⟨heq.le, hrank⟩
  have hsorted : (c.arrange rowId before rows).Pairwise fun a b => lex a ≤ lex b := by
    unfold Choice.arrange
    simp only [hrel]
    have htotal : Std.Total fun a b => lex a ≤ lex b := ⟨fun a b => le_total (lex a) (lex b)⟩
    have htrans : IsTrans α fun a b => lex a ≤ lex b := ⟨fun _ _ _ => le_trans⟩
    exact List.pairwise_insertionSort _ rows
  refine hsorted.imp fun {a b} hle => ?_
  rcases Prod.Lex.toLex_le_toLex.mp hle with hlt | ⟨heq, hrank⟩
  · exact ⟨hlt.le, fun heq => absurd heq hlt.ne⟩
  · exact ⟨heq.le, fun _ => hrank⟩

/-- There is one order if the ids decide between equal rows. -/
theorem arrange_eq (hbefore : ∀ a b, before a b = true ↔ key a < key b)
    (hid : ∀ a b, key a = key b → rowId a = rowId b) {rows : List α}
    (hrows : (rows.map rowId).Nodup) (c c' : Choice) :
    c.arrange rowId before rows = c'.arrange rowId before rows := by
  refine List.Perm.eq_of_pairwise ?_ ((pairwise_arrange hbefore c rows).imp And.left)
    ((pairwise_arrange hbefore c' rows).imp And.left)
    ((c.arrange_perm rowId before rows).trans (c'.arrange_perm rowId before rows).symm)
  intro a b ha hb hab hba
  exact List.inj_on_of_nodup_map hrows (Choice.mem_arrange.mp ha) (Choice.mem_arrange.mp hb)
    (hid a b (le_antisymm hab hba))

/-- Each row comes before those that follow. -/
theorem pairwise_before_arrange (hbefore : ∀ a b, before a b = true ↔ key a < key b)
    (hid : ∀ a b, key a = key b → rowId a = rowId b) {rows : List α}
    (hrows : (rows.map rowId).Nodup) (c : Choice) :
    (c.arrange rowId before rows).Pairwise fun a b => before a b = true := by
  have hnodup : ((c.arrange rowId before rows).map rowId).Nodup :=
    ((c.arrange_perm rowId before rows).map rowId).nodup_iff.mpr hrows
  have hne : (c.arrange rowId before rows).Pairwise fun a b => rowId a ≠ rowId b :=
    List.pairwise_map.mp hnodup
  refine ((pairwise_arrange hbefore c rows).and hne).imp ?_
  rintro a b ⟨⟨hle, -⟩, hab⟩
  exact (hbefore a b).mpr (lt_of_le_of_ne hle fun h => hab (hid a b h))

end

/-- The first pages of a list. -/
theorem flatMap_pages {α : Type} (rows : List α) (limit pages : ℕ) :
    (List.range pages).flatMap (fun p => (rows.drop (p * limit)).take limit) =
      rows.take (pages * limit) := by
  induction pages with
  | zero => rw [List.range_zero, List.flatMap_nil, zero_mul, List.take_zero]
  | succ pages ih =>
    rw [List.range_succ, List.flatMap_append, ih, List.flatMap_singleton, Nat.succ_mul,
      List.take_add]

/-! ## Reading all pages -/

/-- A decoded list response: its items, and the `total` of its pagination metadata, if it has any,
and if that is an `int`. -/
structure ListResponse (α : Type) where
  items : List α
  pagination : Option (Option ℤ)

/-- `pageSize`. -/
def pageSize : ℕ := 50

/-- The page with which the loop starts. -/
abbrev firstPage : ℕ+ := 1

/-- The loop that reads the pages of a list, for `fuel` requests at most; without a result it would
send another. -/
def fetchAll {α : Type} (fetch : ℕ+ → Act (ListResponse α)) : ℕ → ℕ+ → List α →
    Act (Option (List α))
  | 0, _, _ => return none
  | fuel + 1, page, all => do
    let response ← fetch page
    let all := all ++ response.items
    match response.pagination with
    | none => return some all
    | some total =>
      if response.items.length < pageSize ∨ total.any (fun n => n ≤ (all.length : ℤ)) = true then
        return some all
      else fetchAll fetch fuel (page + 1) all

/-- The loop returns the list of which the server answers the pages and the length. -/
theorem fetchAll_wp {α X : Type} {D : Discipline backend Err X} {J : X → Prop} {rows : List α}
    {fetch : ℕ+ → Act (ListResponse α)} {Q : Except Err (Option (List α)) → X → Prop}
    (hfetch : ∀ (page : ℕ+) (R : Except Err (ListResponse α) → X → Prop) x, J x →
      (∀ y, J y → R (.ok ⟨(rows.drop ((page - 1) * pageSize)).take pageSize,
        some (some rows.length)⟩) y) → wp D R (fetch page) x)
    (hQ : ∀ y, J y → Q (.ok (some rows)) y) {fuel : ℕ} {page : ℕ+}
    (hpage : ((page : ℕ) - 1) * pageSize ≤ rows.length)
    (hfuel : rows.length < ((page : ℕ) - 1 + fuel) * pageSize) {x : X} (hx : J x) :
    wp D Q (fetchAll fetch fuel page (rows.take (((page : ℕ) - 1) * pageSize))) x := by
  induction fuel generalizing page x with
  | zero =>
    rw [add_zero] at hfuel
    omega
  | succ fuel ih =>
    refine wp_bind.mpr (hfetch page _ x hx fun y hy => ?_)
    have hpos : 0 < (page : ℕ) := page.pos
    have hnext : ((page + 1 : ℕ+) : ℕ) - 1 = (page : ℕ) - 1 + 1 := by
      rw [PNat.add_coe, PNat.one_coe]
      omega
    -- The list that has been read by now ends where the next page begins.
    have hall : rows.take (((page : ℕ) - 1) * pageSize) ++
        (rows.drop (((page : ℕ) - 1) * pageSize)).take pageSize =
          rows.take ((((page + 1 : ℕ+) : ℕ) - 1) * pageSize) := by
      rw [hnext, Nat.succ_mul, List.take_add]
    show wp D Q (ite _ _ _) y
    rw [hall]
    split
    · next hlast =>
      have hdone : rows.length ≤ (((page + 1 : ℕ+) : ℕ) - 1) * pageSize := by
        simp only [Option.any_some, decide_eq_true_eq, List.length_take, List.length_drop,
          Nat.cast_le] at hlast
        rw [hnext, Nat.succ_mul] at hlast ⊢
        omega
      rw [List.take_of_length_le hdone]
      exact hQ y hy
    · next hmore =>
      apply ih
      · simp only [Option.any_some, decide_eq_true_eq, List.length_take, List.length_drop,
          Nat.cast_le] at hmore
        omega
      · rw [hnext]
        calc rows.length < ((page : ℕ) - 1 + (fuel + 1)) * pageSize := hfuel
          _ = ((page : ℕ) - 1 + 1 + fuel) * pageSize := by rw [add_assoc, add_comm 1 fuel]
      · exact hy

end SplitBill
