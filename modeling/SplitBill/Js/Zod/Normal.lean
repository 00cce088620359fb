import SplitBill.Js.Zod

/-!
# Parsing twice

A schema that trims a string before anything else accepts what it has made of a value, and leaves it
as it is: `Documented.parse_again`.
-/

namespace SplitBill.Js.Zod

/-- A check that replaces nothing. -/
def StringCheck.isTest : StringCheck → Bool
  | trim => false
  | test _ _ => true

/-- A string is trimmed before anything else, if at all. -/
def trimsFirst : List StringCheck → Bool
  | .trim :: checks => checks.all StringCheck.isTest
  | checks => checks.all StringCheck.isTest

mutual

/-- Strings are trimmed before anything else, and the fields of objects have keys of their own. -/
def Schema.normalizes : Schema → Bool
  | .string checks => trimsFirst checks
  | .number _ _ | .enum _ => true
  | .array item _ _ => item.normalizes
  | .object _ fields => decide (OwnKeys (fields.map (·.1))) && fieldsNormalize fields
  | .optional inner | .default inner _ | .refine inner _ _ => inner.normalizes

/-- All fields are of that kind. -/
def fieldsNormalize : List (Str × Schema) → Bool
  | [] => true
  | (_, s) :: fields => s.normalizes && fieldsNormalize fields

end

/-- That is, each of them is. -/
theorem fieldsNormalize_iff {fields : List (Str × Schema)} :
    fieldsNormalize fields = true ↔ ∀ f ∈ fields, f.2.normalizes = true := by
  induction fields with
  | nil => simp [fieldsNormalize]
  | cons f fields ih =>
    rw [fieldsNormalize, Bool.and_eq_true, ih, List.forall_mem_cons]

/-- Tests leave a string as it is. -/
theorem trimmedBy_tests {checks : List StringCheck} (h : checks.all StringCheck.isTest = true)
    (s : Str) : trimmedBy checks s = s := by
  induction checks with
  | nil => rfl
  | cons c checks ih =>
    rw [List.all_cons, Bool.and_eq_true] at h
    cases c with
    | trim => exact absurd h.1 Bool.false_ne_true
    | test ok message => exact ih h.2

/-- What is made of a string passes the same checks, and they leave it as it is. -/
theorem trimmedBy_again {checks : List StringCheck} (h : trimsFirst checks = true) {s : Str}
    (hs : Passes checks s) : Passes checks (trimmedBy checks s) ∧
      trimmedBy checks (trimmedBy checks s) = trimmedBy checks s := by
  cases checks with
  | nil => exact ⟨trivial, rfl⟩
  | cons c checks =>
    cases c with
    | trim =>
      have hmade : trimmedBy (.trim :: checks) s = trim s := trimmedBy_tests h (trim s)
      rw [hmade]
      constructor
      · show Passes checks (trim (trim s))
        rw [trim_trim]
        exact hs
      · show trimmedBy checks (trim (trim s)) = trim s
        rw [trim_trim]
        exact trimmedBy_tests h (trim s)
    | test ok message =>
      rw [trimmedBy_tests h]
      exact ⟨hs, trimmedBy_tests h s⟩

section Numbers

variable {f : Formats} {coerce : Bool} {x : Double}

/-- No number is made of a value that is none. -/
theorem numberOf_ne_nan {v : Option Val} (h : f.numberOf coerce v = some x) : x ≠ .nan := by
  rintro rfl
  unfold Formats.numberOf at h
  split at h
  · split at h
    · cases h
    · next hne => exact hne (Option.some.inj h)
  · split at h
    · cases h
    · next hne => exact hne (Option.some.inj h)
  · cases h

/-- The number that was made of a value is made of itself. -/
theorem numberOf_number (hnan : x ≠ .nan) :
    f.numberOf coerce (some (.number x)) = some x := by
  cases coerce with
  | true => rw [Formats.numberOf, f.toNumber_number, if_neg hnan]
  | false => rw [Formats.numberOf, if_neg hnan]

end Numbers

/-- Where no key stands twice, a member is found by its key. -/
theorem member?_eq_some {members : List (Str × Val)} (hnodup : (members.map (·.1)).Nodup)
    {k : Str} {x : Val} (h : (k, x) ∈ members) : member? k members = some x := by
  have hmem : (k, x) ∈ members.reverse := List.mem_reverse.mpr h
  have hnodup' : (members.reverse.map (·.1)).Nodup := by
    rw [List.map_reverse]
    exact List.nodup_reverse.mpr hnodup
  -- The last member of a name counts, and the names are distinct.
  unfold member?
  generalize members.reverse = l at hmem hnodup'
  induction l with
  | nil => cases hmem
  | cons e l ih =>
    rw [List.map_cons, List.nodup_cons] at hnodup'
    by_cases hk : e.1 = k
    · have heq : e = (k, x) := by
        rcases List.mem_cons.mp hmem with rfl | hl
        · rfl
        · exact absurd (hk ▸ List.mem_map_of_mem (f := Prod.fst) hl) hnodup'.1
      subst heq
      simp
    · rw [List.find?_cons_of_neg (by simpa using hk)]
      refine ih ?_ hnodup'.2
      rcases List.mem_cons.mp hmem with rfl | hl
      · exact absurd rfl hk
      · exact hl

/-- An object without that key. -/
theorem member?_eq_none {members : List (Str × Val)} {k : Str} (h : ∀ x, (k, x) ∉ members) :
    member? k members = none := by
  unfold member?
  rw [Option.map_eq_none_iff, List.find?_eq_none]
  rintro ⟨k', x⟩ he hk
  obtain rfl := of_decide_eq_true hk
  exact h x (List.mem_reverse.mp he)

/-- The members that are left of an object, looked up by key. -/
theorem member?_filterMap {α : Type} {l : List α} {key : α → Str} (hnodup : (l.map key).Nodup)
    (g : α → Option Val) {a : α} (ha : a ∈ l) :
    member? (key a) (l.filterMap fun a => (g a).map (key a, ·)) = g a := by
  -- Members that are left out cannot bring a key in twice.
  have hkeys : ((l.filterMap fun a => (g a).map (key a, ·)).map (·.1)).Sublist (l.map key) := by
    clear ha hnodup
    induction l with
    | nil => exact List.Sublist.slnil
    | cons e l ih =>
      cases hg : g e with
      | none =>
        rw [List.filterMap_cons_none (by rw [hg]; rfl)]
        exact ih.cons _
      | some x =>
        rw [List.filterMap_cons_some (b := (key e, x)) (by rw [hg]; rfl)]
        exact ih.cons_cons _
  cases hg : g a with
  | some x =>
    refine member?_eq_some (hnodup.sublist hkeys) (List.mem_filterMap.mpr ⟨a, ha, ?_⟩)
    rw [hg]
    rfl
  | none =>
    refine member?_eq_none fun x hx => ?_
    obtain ⟨e, he, hfe⟩ := List.mem_filterMap.mp hx
    obtain ⟨y, hy, heq⟩ := Option.map_eq_some_iff.mp hfe
    obtain rfl := List.inj_on_of_nodup_map hnodup he ha (Prod.mk.inj heq).1
    rw [hg] at hy
    cases hy

/-- The values of the fields are found in the object that they make. -/
theorem member?_membersOf {fields : List (Str × Schema)} (hnodup : (fields.map (·.1)).Nodup)
    {vals : List (Option Val)} (hlength : fields.length ≤ vals.length)
    {x : (Str × Schema) × Option Val} (hx : x ∈ fields.zip vals) :
    member? x.1.1 (membersOf fields vals) = x.2 := by
  have hkeys : ((fields.zip vals).map fun x => x.1.1).Nodup := by
    rw [← List.map_fst_zip hlength, List.map_map] at hnodup
    exact hnodup
  exact member?_filterMap hkeys (fun x => x.2) hx

/-- The object that the fields make has no other keys. -/
theorem known_membersOf (fields : List (Str × Schema)) (vals : List (Option Val)) :
    Known fields (membersOf fields vals) := by
  intro k hk
  obtain ⟨e, he, rfl⟩ := List.mem_map.mp hk
  obtain ⟨x, hx, hfe⟩ := List.mem_filterMap.mp he
  obtain ⟨y, -, rfl⟩ := Option.map_eq_some_iff.mp hfe
  exact List.mem_map_of_mem (List.of_mem_zip hx).1

/-- Fields that leave their values as they are leave the object of these values as it is. -/
theorem Documented.parse_membersOf {z : Zod} (hz : z.Documented) {fields : List (Str × Schema)}
    (hown : OwnKeys (fields.map (·.1))) {vals : List (Option Val)}
    (h : List.Forall₂ (fun f x => z.parse f.2 x = .ok x) fields vals) (strict : Bool) :
    z.parse (.object strict fields) (some (.object (membersOf fields vals))) =
      .ok (some (.object (membersOf fields vals))) := by
  refine (hz.object hown).mpr ⟨_, vals, rfl, fun _ => known_membersOf fields vals, ?_, rfl⟩
  refine List.forall₂_iff_zip.mpr ⟨h.length_eq, fun {f x} hx => ?_⟩
  have hmember := member?_membersOf hown.1 h.length_eq.le hx
  dsimp only at hmember
  rw [hmember]
  exact List.forall₂_zip h hx

/-- Whatever stands on the right of two related lists is related to something on the left. -/
theorem exists_left_of_forall₂ {α β : Type} {R : α → β → Prop} {l : List α} {l' : List β}
    (h : List.Forall₂ R l l') {b : β} (hb : b ∈ l') : ∃ a, R a b := by
  induction h with
  | nil => cases hb
  | cons hab _ ih =>
    rcases List.mem_cons.mp hb with rfl | hb
    · exact ⟨_, hab⟩
    · exact ih hb

section

variable {z : Zod} {schema : Schema}

/-- A value that is there is not lost. -/
theorem Documented.isSome_of_parse (hz : z.Documented) (hnormal : schema.normalizes = true)
    {v : Val} {out : Option Val} (h : z.parse schema (some v) = .ok out) : out.isSome := by
  induction schema using Schema.induct generalizing v with
  | string checks =>
    obtain ⟨s, -, -, rfl⟩ := hz.string.mp h
    rfl
  | number coerce checks =>
    obtain ⟨x, -, -, rfl⟩ := hz.number.mp h
    rfl
  | enum options =>
    obtain ⟨s, -, -, rfl⟩ := hz.enum.mp h
    rfl
  | array item min message ih =>
    obtain ⟨items, outs, -, -, -, rfl⟩ := hz.array.mp h
    rfl
  | object strict fields ih =>
    rw [Schema.normalizes, Bool.and_eq_true, decide_eq_true_eq] at hnormal
    obtain ⟨members, outs, -, -, -, rfl⟩ := (hz.object hnormal.1).mp h
    rfl
  | optional inner ih =>
    rcases hz.optional.mp h with ⟨⟨⟩, -⟩ | ⟨x, -, hx⟩
    exact ih hnormal hx
  | default inner value ih => exact ih hnormal (hz.default.mp h)
  | refine inner ok message ih => exact ih hnormal (hz.refine.mp h).1

/-- What such a schema makes of a value it accepts, and leaves as it is. -/
theorem Documented.parse_again (hz : z.Documented) (hnormal : schema.normalizes = true)
    {v out : Option Val} (h : z.parse schema v = .ok out) : z.parse schema out = .ok out := by
  induction schema using Schema.induct generalizing v out with
  | string checks =>
    obtain ⟨s, -, hs, rfl⟩ := hz.string.mp h
    obtain ⟨hpasses, hsame⟩ := trimmedBy_again hnormal hs
    exact hz.string.mpr ⟨_, rfl, hpasses, by rw [hsame]⟩
  | number coerce checks =>
    obtain ⟨x, hx, hchecks, rfl⟩ := hz.number.mp h
    exact hz.number.mpr ⟨x, numberOf_number (numberOf_ne_nan hx), hchecks, rfl⟩
  | enum options =>
    obtain ⟨s, hs, -, rfl⟩ := hz.enum.mp h
    exact hz.enum.mpr ⟨s, hs, rfl, rfl⟩
  | array item min message ih =>
    obtain ⟨items, outs, -, hlength, houts, rfl⟩ := hz.array.mp h
    -- Each item of the new array is made of an item of the old one.
    have hagain : ∀ y ∈ outs, z.parse item (some y) = .ok (some y) := by
      intro y hy
      obtain ⟨x, hx⟩ := exists_left_of_forall₂ houts hy
      exact ih hnormal hx
    rw [houts.length_eq] at hlength
    exact hz.array.mpr ⟨outs, outs, rfl, hlength, List.forall₂_same.mpr hagain, rfl⟩
  | object strict fields ih =>
    rw [Schema.normalizes, Bool.and_eq_true, decide_eq_true_eq, fieldsNormalize_iff] at hnormal
    obtain ⟨hown, hnormal⟩ := hnormal
    obtain ⟨members, outs, -, -, houts, rfl⟩ := (hz.object hown).mp h
    -- Field by field, what was made is left as it is.
    refine hz.parse_membersOf hown (List.forall₂_iff_zip.mpr ⟨houts.length_eq, ?_⟩) strict
    intro f x hx
    have hf : f ∈ fields := (List.of_mem_zip hx).1
    exact ih f hf (hnormal f hf) (List.forall₂_zip houts hx)
  | optional inner ih =>
    have hinner : inner.normalizes = true := hnormal
    rcases hz.optional.mp h with ⟨-, rfl⟩ | ⟨x, -, hx⟩
    · exact hz.optional.mpr (.inl ⟨rfl, rfl⟩)
    · obtain ⟨y, rfl⟩ := Option.isSome_iff_exists.mp (hz.isSome_of_parse hinner hx)
      exact hz.optional.mpr (.inr ⟨y, rfl, ih hinner hx⟩)
  | default inner value ih =>
    have hinner : inner.normalizes = true := hnormal
    have hmade := hz.default.mp h
    obtain ⟨y, rfl⟩ := Option.isSome_iff_exists.mp (hz.isSome_of_parse hinner hmade)
    exact hz.default.mpr (ih hinner hmade)
  | refine inner ok message ih =>
    obtain ⟨hinner, hok⟩ := hz.refine.mp h
    exact hz.refine.mpr ⟨ih hnormal hinner, hok⟩

end

end SplitBill.Js.Zod
