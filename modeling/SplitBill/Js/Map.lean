import Mathlib.Algebra.BigOperators.Group.Finset.Basic
import Mathlib.Algebra.BigOperators.Group.List.Lemmas
import Mathlib.Data.List.Nodup
import Mathlib.Tactic.Ring

/-!
# `Map`

JavaScript's `Map`: entries in the order in which their keys were first set. Setting a key that is
there replaces its value in place, so that no key appears twice, which the structure carries as a
field.
-/

namespace SplitBill.Js

variable {K V : Type} [DecidableEq K]

/-- Sets a key in a list of entries. -/
def put (k : K) (v : V) : List (K × V) → List (K × V)
  | [] => [(k, v)]
  | e :: es => if e.1 = k then (k, v) :: es else e :: put k v es

/-- The value of a key in a list of entries. -/
def find (k : K) : List (K × V) → Option V
  | [] => none
  | e :: es => if e.1 = k then some e.2 else find k es

/-- The keys after an entry is put. -/
theorem mem_keys_put {k k' : K} {v : V} {es : List (K × V)} :
    k' ∈ (put k v es).map Prod.fst ↔ k' = k ∨ k' ∈ es.map Prod.fst := by
  induction es with
  | nil => simp [put]
  | cons e es ih =>
    unfold put
    split
    · next h => subst h; simp
    · simp only [List.map_cons, List.mem_cons, ih]
      tauto

/-- Keys stay distinct. -/
theorem nodup_keys_put {k : K} {v : V} {es : List (K × V)} (h : (es.map Prod.fst).Nodup) :
    ((put k v es).map Prod.fst).Nodup := by
  induction es with
  | nil => simp [put]
  | cons e es ih =>
    rw [List.map_cons, List.nodup_cons] at h
    unfold put
    split
    · next hk => subst hk; exact List.nodup_cons.mpr h
    · next hk =>
      rw [List.map_cons, List.nodup_cons, mem_keys_put, not_or]
      exact ⟨⟨hk, h.1⟩, ih h.2⟩

/-- What is found after an entry is put. -/
theorem find_put {k k' : K} {v : V} {es : List (K × V)} :
    find k' (put k v es) = if k = k' then some v else find k' es := by
  induction es with
  | nil => simp [put, find]
  | cons e es ih =>
    unfold put
    by_cases hk : e.1 = k
    · subst hk
      by_cases hk' : e.1 = k' <;> simp [find, hk']
    · rw [if_neg hk, find, ih]
      by_cases hk' : e.1 = k'
      · subst hk'
        simp [find, Ne.symm hk]
      · simp [find, hk']

/-- The sum of the values after an entry is put. -/
theorem sum_put {k : K} {v : ℤ} {es : List (K × ℤ)} :
    ((put k v es).map Prod.snd).sum = (es.map Prod.snd).sum - (find k es).getD 0 + v := by
  induction es with
  | nil => simp [put, find]
  | cons e es ih =>
    unfold put find
    by_cases hk : e.1 = k
    · simp only [if_pos hk, List.map_cons, List.sum_cons, Option.getD_some]
      ring
    · simp only [if_neg hk, List.map_cons, List.sum_cons, ih]
      ring

/-- An absent key is not found. -/
theorem find_eq_none {k : K} {es : List (K × V)} (h : k ∉ es.map Prod.fst) : find k es = none := by
  induction es with
  | nil => rfl
  | cons e es ih =>
    rw [List.map_cons, List.mem_cons, not_or] at h
    rw [find, if_neg (Ne.symm h.1), ih h.2]

/-- A value that is found is there. -/
theorem mem_of_find {k : K} {v : V} {es : List (K × V)} (h : find k es = some v) : (k, v) ∈ es := by
  induction es with
  | nil => cases h
  | cons e es ih =>
    rw [find] at h
    split at h
    · next hk =>
      rw [← hk, ← Option.some.inj h]
      exact List.mem_cons_self
    · exact List.mem_cons_of_mem _ (ih h)

/-- Where no key appears twice, an entry is found by its key. -/
theorem find_of_mem {e : K × V} {es : List (K × V)} (hnodup : (es.map Prod.fst).Nodup)
    (h : e ∈ es) : find e.1 es = some e.2 := by
  induction es with
  | nil => cases h
  | cons x es ih =>
    rw [List.map_cons, List.nodup_cons] at hnodup
    rcases List.mem_cons.mp h with rfl | h
    · rw [find, if_pos rfl]
    · have hne : x.1 ≠ e.1 := fun heq => hnodup.1 (heq ▸ List.mem_map_of_mem h)
      rw [find, if_neg hne, ih hnodup.2 h]

/-- Over the keys, each once, the values of the keys add up to the sum of the values. -/
theorem sum_find {es : List (K × ℤ)} (h : (es.map Prod.fst).Nodup) :
    ∑ k ∈ (es.map Prod.fst).toFinset, (find k es).getD 0 = (es.map Prod.snd).sum := by
  induction es with
  | nil => simp
  | cons e es ih =>
    rw [List.map_cons, List.nodup_cons] at h
    have hne : ∀ k ∈ (es.map Prod.fst).toFinset, e.1 ≠ k := by
      rintro k hk rfl
      exact h.1 (List.mem_toFinset.mp hk)
    rw [List.map_cons, List.toFinset_cons, Finset.sum_insert (by simpa using h.1)]
    rw [Finset.sum_congr rfl fun k hk => by rw [find, if_neg (hne k hk)], ih h.2]
    simp [find]

/-- A `Map`. -/
structure Map (K V : Type) where
  /-- The entries in their order. -/
  entries : List (K × V)
  /-- No key appears twice. -/
  nodup : (entries.map Prod.fst).Nodup

namespace Map

/-- `new Map()`. -/
def empty : Map K V := ⟨[], List.nodup_nil⟩

/-- `get`. -/
def get? (m : Map K V) (k : K) : Option V := find k m.entries

/-- `set`. -/
def set (m : Map K V) (k : K) (v : V) : Map K V := ⟨put k v m.entries, nodup_keys_put m.nodup⟩

/-- `keys`. -/
def keys (m : Map K V) : List K := m.entries.map Prod.fst

/-- `values`. -/
def values (m : Map K V) : List V := m.entries.map Prod.snd

/-- Nothing is in the empty map. -/
@[simp] theorem get?_empty (k : K) : (empty : Map K V).get? k = none := rfl

omit [DecidableEq K] in
/-- The empty map has no values. -/
@[simp] theorem values_empty : (empty : Map K V).values = [] := rfl

/-- `get` after `set`. -/
theorem get?_set (m : Map K V) (k k' : K) (v : V) :
    (m.set k v).get? k' = if k = k' then some v else m.get? k' := find_put

/-- The sum of the values after `set`. -/
theorem sum_values_set (m : Map K ℤ) (k : K) (v : ℤ) :
    (m.set k v).values.sum = m.values.sum - (m.get? k).getD 0 + v := sum_put

/-- An entry is in the map when its key holds its value. -/
theorem mem_entries_iff {m : Map K V} {e : K × V} : e ∈ m.entries ↔ m.get? e.1 = some e.2 :=
  ⟨fun h => find_of_mem m.nodup h, fun h => mem_of_find h⟩

/-- A map all of whose keys are one key that has a value. -/
theorem entries_eq_singleton {m : Map K V} {k : K} {v : V} (hkeys : ∀ e ∈ m.entries, e.1 = k)
    (hget : m.get? k = some v) : m.entries = [(k, v)] := by
  have hmem : (k, v) ∈ m.entries := mem_entries_iff.mpr hget
  obtain ⟨entries, hnodup⟩ := m
  cases entries with
  | nil => cases hmem
  | cons e es =>
    cases es with
    | nil => rw [List.mem_singleton.mp hmem]
    | cons x es =>
      have he : e.1 = k := hkeys e List.mem_cons_self
      have hx : x.1 = k := hkeys x (List.mem_cons_of_mem _ List.mem_cons_self)
      simp [he, hx] at hnodup

/-- `get` of an absent key. -/
theorem get?_eq_none {m : Map K V} {k : K} (h : k ∉ m.keys) : m.get? k = none := find_eq_none h

/-- A finite set of keys outside which every value is zero holds the whole sum of the values. -/
theorem sum_get?_eq (m : Map K ℤ) (s : Finset K) (h : ∀ k ∉ s, (m.get? k).getD 0 = 0) :
    ∑ k ∈ s, (m.get? k).getD 0 = m.values.sum := by
  have hkeys : ∑ k ∈ m.keys.toFinset, (m.get? k).getD 0 = m.values.sum := sum_find m.nodup
  rw [← hkeys]
  -- Both sums are the sum over the union.
  have hs : ∑ k ∈ s ∪ m.keys.toFinset, (m.get? k).getD 0 = ∑ k ∈ s, (m.get? k).getD 0 :=
    (Finset.sum_subset Finset.subset_union_left fun k _ hk => h k hk).symm
  have hm : ∑ k ∈ s ∪ m.keys.toFinset, (m.get? k).getD 0 =
      ∑ k ∈ m.keys.toFinset, (m.get? k).getD 0 := by
    refine (Finset.sum_subset Finset.subset_union_right fun k _ hk => ?_).symm
    rw [get?_eq_none (by simpa using hk), Option.getD_none]
  rw [← hs, hm]

end Map

end SplitBill.Js
