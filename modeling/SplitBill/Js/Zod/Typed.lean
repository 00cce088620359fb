import SplitBill.Js.Zod.Normal

/-!
# The type of a schema

`Presents` says that what a schema makes are the values of a type, no more and no fewer, and that it
leaves them as they are. It is put together from the parts of a schema.
-/

namespace SplitBill.Js.Zod

section

variable {z : Zod} {B : Type}

/-- What the schema makes of the values that it accepts are the values of a type, as `toVal`
presents them. -/
structure Presents (z : Zod) (schema : Schema) (toVal : B → Option Val) : Prop where
  made : ∀ v out, z.parse schema v = .ok out → ∃ b, out = toVal b
  kept : ∀ b, z.parse schema (toVal b) = .ok (toVal b)

/-- What `parse` returns is what the type presents. -/
theorem Presents.parse_iff {schema : Schema} {toVal : B → Option Val}
    (h : Presents z schema toVal) (out : Option Val) :
    (∃ v, z.parse schema v = .ok out) ↔ ∃ b, out = toVal b := by
  constructor
  · rintro ⟨v, hv⟩
    exact h.made v out hv
  · rintro ⟨b, rfl⟩
    exact ⟨toVal b, h.kept b⟩

/-- A string that passes the checks and that they leave as it is. -/
theorem Documented.presents_string (hz : z.Documented) {checks : List StringCheck}
    (h : trimsFirst checks = true) :
    Presents z (.string checks)
      (fun s : { s : Str // Passes checks s ∧ trimmedBy checks s = s } => some (.string s.1)) where
  made v out hv := by
    obtain ⟨s, -, hs, rfl⟩ := hz.string.mp hv
    exact ⟨⟨_, trimmedBy_again h hs⟩, rfl⟩
  kept s := hz.string.mpr ⟨s.1, rfl, s.2.1, by rw [s.2.2]⟩

/-- One of the options. -/
theorem Documented.presents_enum (hz : z.Documented) (options : List Str) :
    Presents z (.enum options) (fun s : { s : Str // s ∈ options } => some (.string s.1)) where
  made v out hv := by
    obtain ⟨s, hs, -, rfl⟩ := hz.enum.mp hv
    exact ⟨⟨s, hs⟩, rfl⟩
  kept s := hz.enum.mpr ⟨s.1, s.2, rfl, rfl⟩

/-- A number that passes the checks. -/
theorem Documented.presents_number (hz : z.Documented) (coerce : Bool)
    (checks : List NumberCheck) :
    Presents z (.number coerce checks)
      (fun x : { x : Double // x ≠ .nan ∧ ∀ c ∈ checks, c.ok x = true } =>
        some (.number x.1)) where
  made v out hv := by
    obtain ⟨x, hx, hchecks, rfl⟩ := hz.number.mp hv
    exact ⟨⟨x, numberOf_ne_nan hx, hchecks⟩, rfl⟩
  kept x := hz.number.mpr ⟨x.1, numberOf_number x.2.1, x.2.2, rfl⟩

/-- The same values, told by another type. -/
theorem Presents.of_equiv {C : Type} {schema : Schema} {toVal : B → Option Val}
    (h : Presents z schema toVal) {toVal' : C → Option Val} (hto : ∀ b, ∃ c, toVal b = toVal' c)
    (hback : ∀ c, ∃ b, toVal b = toVal' c) : Presents z schema toVal' where
  made v out hv := by
    obtain ⟨b, hb⟩ := h.made v out hv
    obtain ⟨c, hc⟩ := hto b
    exact ⟨c, hb.trans hc⟩
  kept c := by
    obtain ⟨b, hb⟩ := hback c
    rw [← hb]
    exact h.kept b

/-- It may be missing. -/
theorem Presents.optional (hz : z.Documented) {schema : Schema} {toVal : B → Val}
    (h : Presents z schema fun b => some (toVal b)) :
    Presents z (.optional schema) (fun b : Option B => b.map toVal) where
  made v out hv := by
    rcases hz.optional.mp hv with ⟨-, rfl⟩ | ⟨x, -, hx⟩
    · exact ⟨none, rfl⟩
    · obtain ⟨b, hb⟩ := h.made _ _ hx
      exact ⟨some b, hb⟩
  kept b := by
    cases b with
    | none => exact hz.optional.mpr (.inl ⟨rfl, rfl⟩)
    | some b => exact hz.optional.mpr (.inr ⟨_, rfl, h.kept b⟩)

/-- A missing one is replaced. -/
theorem Presents.default (hz : z.Documented) {schema : Schema} {toVal : B → Val}
    (h : Presents z schema fun b => some (toVal b)) (value : Val) :
    Presents z (.default schema value) fun b => some (toVal b) where
  made _ _ hv := h.made _ _ (hz.default.mp hv)
  kept b := hz.default.mpr (h.kept b)

/-- Those that also pass a test. -/
theorem Presents.refine (hz : z.Documented) {schema : Schema} {toVal : B → Option Val}
    (h : Presents z schema toVal) (ok : Option Val → Bool) (message : Str) :
    Presents z (.refine schema ok message)
      fun b : { b : B // ok (toVal b) = true } => toVal b.1 where
  made v out hv := by
    obtain ⟨hinner, hok⟩ := hz.refine.mp hv
    obtain ⟨b, rfl⟩ := h.made v out hinner
    exact ⟨⟨b, hok⟩, rfl⟩
  kept b := hz.refine.mpr ⟨h.kept b.1, b.2⟩

/-- Enough of them. -/
theorem Presents.array (hz : z.Documented) {item : Schema} {toVal : B → Val}
    (h : Presents z item fun b => some (toVal b)) (min : ℕ) (message : Str) :
    Presents z (.array item min message)
      (fun l : { l : List B // min ≤ l.length } => some (.array (l.1.map toVal))) where
  made v out hv := by
    obtain ⟨items, outs, -, hlength, houts, rfl⟩ := hz.array.mp hv
    rw [houts.length_eq] at hlength
    -- One value of the type for each item of the new array, by induction on the items.
    have hbs : ∃ bs : List B, outs = bs.map toVal := by
      clear hlength hv
      induction houts with
      | nil => exact ⟨[], rfl⟩
      | cons hxy _ ih =>
        obtain ⟨b, hb⟩ := h.made _ _ hxy
        obtain ⟨bs, rfl⟩ := ih
        exact ⟨b :: bs, by rw [List.map_cons, Option.some.inj hb]⟩
    obtain ⟨bs, rfl⟩ := hbs
    rw [List.length_map] at hlength
    exact ⟨⟨bs, hlength⟩, rfl⟩
  kept l := by
    refine hz.array.mpr ⟨_, _, rfl, by rw [List.length_map]; exact l.2, ?_, rfl⟩
    refine List.forall₂_same.mpr fun x hx => ?_
    obtain ⟨b, -, rfl⟩ := List.mem_map.mp hx
    exact h.kept b

/-- What the fields make are the values of a type, as `vals` presents them in order. -/
structure PresentsFields (z : Zod) (fields : List (Str × Schema)) (vals : B → List (Option Val)) :
    Prop where
  made : ∀ xs, List.Forall₂ (fun f x => ∃ v, z.parse f.2 v = .ok x) fields xs → ∃ b, xs = vals b
  kept : ∀ b, List.Forall₂ (fun f x => z.parse f.2 x = .ok x) fields (vals b)

/-- No fields. -/
theorem PresentsFields.nil : PresentsFields z [] (fun _ : Unit => []) where
  made _ hxs := ⟨(), List.forall₂_nil_left_iff.mp hxs⟩
  kept _ := .nil

/-- One more field. -/
theorem PresentsFields.cons {C : Type} {schema : Schema} {toVal : B → Option Val} (k : Str)
    (h : Presents z schema toVal) {fields : List (Str × Schema)} {vals : C → List (Option Val)}
    (hrest : PresentsFields z fields vals) :
    PresentsFields z ((k, schema) :: fields) fun b : B × C => toVal b.1 :: vals b.2 where
  made xs hxs := by
    obtain ⟨x, ys, ⟨v, hv⟩, hys, rfl⟩ := List.forall₂_cons_left_iff.mp hxs
    obtain ⟨b, rfl⟩ := h.made v x hv
    obtain ⟨c, rfl⟩ := hrest.made ys hys
    exact ⟨(b, c), rfl⟩
  kept b := .cons (h.kept b.1) (hrest.kept b.2)

/-- An object with the fields that a type has. -/
theorem PresentsFields.object (hz : z.Documented) {fields : List (Str × Schema)}
    {vals : B → List (Option Val)} (h : PresentsFields z fields vals)
    (hown : OwnKeys (fields.map (·.1))) (strict : Bool) :
    Presents z (.object strict fields) fun b => some (.object (membersOf fields (vals b))) where
  made v out hv := by
    obtain ⟨members, outs, -, -, houts, rfl⟩ := (hz.object hown).mp hv
    obtain ⟨b, rfl⟩ := h.made outs (houts.imp fun f x hx => ⟨_, hx⟩)
    exact ⟨b, rfl⟩
  kept b := hz.parse_membersOf hown (h.kept b) strict

/-! ## What is made of a given value -/

/-- An object tells the values of its fields. -/
theorem membersOf_inj {fields : List (Str × Schema)} (hnodup : (fields.map (·.1)).Nodup)
    {xs ys : List (Option Val)} (hxs : fields.length = xs.length) (hys : fields.length = ys.length)
    (h : membersOf fields xs = membersOf fields ys) : xs = ys := by
  refine List.ext_getElem (hxs.symm.trans hys) fun i hi hi' => ?_
  have hi'' : i < fields.length := by omega
  have hx := member?_membersOf hnodup hxs.le
    (List.mem_iff_getElem.mpr ⟨i, by rw [List.length_zip]; omega, List.getElem_zip⟩)
  have hy := member?_membersOf hnodup hys.le
    (List.mem_iff_getElem.mpr ⟨i, by rw [List.length_zip]; omega, List.getElem_zip⟩)
  rw [h] at hx
  exact hx.symm.trans hy

/-- An object is made of what is made of its fields. -/
theorem Documented.parse_object_iff (hz : z.Documented) {fields : List (Str × Schema)}
    (hown : OwnKeys (fields.map (·.1))) {strict : Bool} {members : List (Str × Val)}
    {vals : List (Option Val)} (hlength : fields.length = vals.length) :
    z.parse (.object strict fields) (some (.object members)) =
        .ok (some (.object (membersOf fields vals))) ↔
      (strict = true → Known fields members) ∧
      List.Forall₂ (fun f x => z.parse f.2 (member? f.1 members) = .ok x) fields vals := by
  rw [hz.object hown]
  constructor
  · rintro ⟨_, outs, ⟨⟩, hknown, houts, hout⟩
    rw [Option.some.injEq, Val.object.injEq] at hout
    obtain rfl := membersOf_inj hown.1 hlength houts.length_eq hout
    exact ⟨hknown, houts⟩
  · rintro ⟨hknown, houts⟩
    exact ⟨members, vals, rfl, hknown, houts, rfl⟩

/-- An array is made of what is made of its items. -/
theorem Documented.parse_array_iff (hz : z.Documented) {item : Schema} {min : ℕ} {message : Str}
    {items outs : List Val} :
    z.parse (.array item min message) (some (.array items)) = .ok (some (.array outs)) ↔
      min ≤ items.length ∧
        List.Forall₂ (fun x out => z.parse item (some x) = .ok (some out)) items outs := by
  rw [hz.array]
  constructor
  · rintro ⟨_, _, ⟨⟩, hlength, houts, ⟨⟩⟩
    exact ⟨hlength, houts⟩
  · rintro ⟨hlength, houts⟩
    exact ⟨items, outs, rfl, hlength, houts, rfl⟩

/-- Nothing is made of nothing. -/
theorem Documented.parse_optional_none (hz : z.Documented) {schema : Schema} {out : Option Val} :
    z.parse (.optional schema) none = .ok out ↔ out = none := by
  rw [hz.optional]
  simp

end

end SplitBill.Js.Zod
