import Mathlib.Data.List.Dedup
import Mathlib.Data.List.Forall2
import SplitBill.Js.Double
import SplitBill.Metrics.Series

/-!
# Schemas

The schemas of zod, as data, and what `schema.parse` returns for one. zod itself is a parameter:
`Zod` is any parser of schemas, and `Zod.Documented` states which values one that does what zod
documents accepts, kind by kind, and what it makes of them. With which issues a value is refused is
left open. `Zod.plain` is such a parser.
-/

namespace SplitBill.Js

/-- A value at run time. `undefined` is the absence of one. -/
inductive Val
  | null
  | bool (b : Bool)
  | number (x : Double)
  | string (s : Str)
  | array (items : List Val)
  | object (members : List (Str × Val))

namespace Zod

/-- A step of a path. -/
inductive Step
  | key (k : Str)
  | index (i : ℕ)
  deriving DecidableEq

/-- A path to a place in a value. -/
abbrev Path : Type := List Step

/-- `ZodIssue`. -/
structure Issue where
  path : Path
  message : Str
  deriving DecidableEq

/-- A check of a string: `trim` replaces it. -/
inductive StringCheck
  | trim
  | test (ok : Str → Bool) (message : Str)

/-- `min(n, message)`. -/
def StringCheck.min (n : ℕ) (message : Str) : StringCheck := test (fun s => n ≤ s.length) message

/-- `max(n, message)`. -/
def StringCheck.max (n : ℕ) (message : Str) : StringCheck := test (fun s => s.length ≤ n) message

/-- A check of a number. -/
structure NumberCheck where
  ok : Double → Bool
  message : Str

/-- `int(message)`. -/
def NumberCheck.int (message : Str) : NumberCheck := ⟨Double.isInteger, message⟩

/-- `positive(message)`. -/
def NumberCheck.positive (message : Str) : NumberCheck := ⟨fun x => (Double.finite 0).lt x, message⟩

/-- `min(q, message)`. -/
def NumberCheck.min (q : ℚ) (message : Str) : NumberCheck :=
  ⟨fun x => (Double.finite q).le x, message⟩

/-- `max(q, message)`. -/
def NumberCheck.max (q : ℚ) (message : Str) : NumberCheck :=
  ⟨fun x => x.le (Double.finite q), message⟩

/-- A schema. `object` is strict or strips the keys that it does not know; with `coerce` a number is
made of the value first. -/
inductive Schema
  | string (checks : List StringCheck)
  | number (coerce : Bool) (checks : List NumberCheck)
  | enum (options : List Str)
  | array (item : Schema) (min : ℕ) (message : Str)
  | object (strict : Bool) (fields : List (Str × Schema))
  | optional (inner : Schema)
  | default (inner : Schema) (value : Val)
  | refine (inner : Schema) (ok : Option Val → Bool) (message : Str)

/-- Induction over a schema. -/
@[elab_as_elim]
theorem Schema.induct {P : Schema → Prop} (string : ∀ checks, P (.string checks))
    (number : ∀ coerce checks, P (.number coerce checks)) (enum : ∀ options, P (.enum options))
    (array : ∀ item min message, P item → P (.array item min message))
    (object : ∀ strict fields, (∀ f ∈ fields, P f.2) → P (.object strict fields))
    (optional : ∀ inner, P inner → P (.optional inner))
    (default : ∀ inner value, P inner → P (.default inner value))
    (refine : ∀ inner ok message, P inner → P (.refine inner ok message)) (schema : Schema) :
    P schema :=
  @Schema.rec P (fun fields => ∀ f ∈ fields, P f.2) (fun f => P f.2) string number enum
    (fun item min message h => array item min message h)
    (fun strict fields h => object strict fields h) (fun inner h => optional inner h)
    (fun inner value h => default inner value h)
    (fun inner ok message h => refine inner ok message h)
    (fun _ hf => absurd hf List.not_mem_nil)
    (fun _ _ hf hfields => List.forall_mem_cons.mpr ⟨hf, hfields⟩) (fun _ _ h => h) schema

/-- The formats of strings that zod knows, and `Number(value)`, with which it coerces. -/
structure Formats where
  email : Str → Bool
  uuid : Str → Bool
  /-- `datetime({ offset: true })`. -/
  datetime : Str → Bool
  /-- The message of a text that is no such date. -/
  invalidDatetime : Str
  toNumber : Option Val → Double
  toNumber_number : ∀ x, toNumber (some (.number x)) = x

end Zod

open Zod in
/-- zod: its formats, and what `schema.parse` returns for a value, or the issues of the error that
it throws. -/
structure Zod extends Formats where
  parse : Schema → Option Val → Except (List Issue) (Option Val)

namespace Zod

/-! ## What is said of values -/

/-- A string passes the checks, one after another. -/
def Passes : List StringCheck → Str → Prop
  | [], _ => True
  | .trim :: checks, s => Passes checks (trim s)
  | .test ok _ :: checks, s => ok s = true ∧ Passes checks s

instance : ∀ (checks : List StringCheck) (s : Str), Decidable (Passes checks s)
  | [], _ => isTrue trivial
  | .trim :: checks, s => instDecidablePasses checks (trim s)
  | .test _ _ :: checks, s =>
    have := instDecidablePasses checks s
    inferInstanceAs (Decidable (_ ∧ _))

/-- What the checks make of a string. -/
def trimmedBy : List StringCheck → Str → Str
  | [], s => s
  | .trim :: checks, s => trimmedBy checks (trim s)
  | .test _ _ :: checks, s => trimmedBy checks s

/-- The number that the checks are about. -/
def Formats.numberOf (f : Formats) (coerce : Bool) (v : Option Val) : Option Double :=
  match coerce, v with
  | true, v => if f.toNumber v = .nan then none else some (f.toNumber v)
  | false, some (.number x) => if x = .nan then none else some x
  | false, _ => none

/-- The value of a member. The last one with the key counts. -/
def member? (k : Str) (members : List (Str × Val)) : Option Val :=
  (members.reverse.find? (·.1 = k)).map (·.2)

/-- The members of an object with these values of its fields, in their order. A field without a
value is left out. -/
def membersOf (fields : List (Str × Schema)) (vals : List (Option Val)) : List (Str × Val) :=
  (fields.zip vals).filterMap fun x => x.2.map (x.1.1, ·)

/-- An object has no keys but those of the fields. -/
def Known (fields : List (Str × Schema)) (members : List (Str × Val)) : Prop :=
  ∀ k ∈ members.map (·.1), k ∈ fields.map (·.1)

instance (fields : List (Str × Schema)) (members : List (Str × Val)) :
    Decidable (Known fields members) :=
  inferInstanceAs (Decidable (∀ k ∈ members.map (·.1), k ∈ fields.map (·.1)))

/-- The keys are different ones, and every object inherits none of them. -/
def OwnKeys (keys : List Str) : Prop := keys.Nodup ∧ ∀ k ∈ keys, Metrics.inherited k = none

instance (keys : List Str) : Decidable (OwnKeys keys) := inferInstanceAs (Decidable (_ ∧ _))

/-! ## What zod documents -/

/-- What `parse` returns, by the kind of the schema. -/
structure Documented (z : Zod) : Prop where
  /-- A string that passes the checks is accepted, as they make it. -/
  string : ∀ {checks v out}, z.parse (.string checks) v = .ok out ↔
    ∃ s, v = some (.string s) ∧ Passes checks s ∧ out = some (.string (trimmedBy checks s))
  /-- A number that passes the checks. -/
  number : ∀ {coerce checks v out}, z.parse (.number coerce checks) v = .ok out ↔
    ∃ x, z.numberOf coerce v = some x ∧ (∀ c ∈ checks, c.ok x = true) ∧ out = some (.number x)
  /-- One of the options. -/
  enum : ∀ {options v out}, z.parse (.enum options) v = .ok out ↔
    ∃ s ∈ options, v = some (.string s) ∧ out = some (.string s)
  /-- An array that is long enough, whose items are accepted. -/
  array : ∀ {item min message v out}, z.parse (.array item min message) v = .ok out ↔
    ∃ items outs, v = some (.array items) ∧ min ≤ items.length ∧
      List.Forall₂ (fun x y => z.parse item (some x) = .ok (some y)) items outs ∧
      out = some (.array outs)
  /-- An object whose fields are accepted, and which has no other keys if the schema is strict. -/
  object : ∀ {strict fields v out}, OwnKeys (fields.map (·.1)) →
    (z.parse (.object strict fields) v = .ok out ↔
      ∃ members outs, v = some (.object members) ∧ (strict = true → Known fields members) ∧
        List.Forall₂ (fun f x => z.parse f.2 (member? f.1 members) = .ok x) fields outs ∧
        out = some (.object (membersOf fields outs)))
  /-- Nothing at all, or what the inner schema accepts. -/
  optional : ∀ {inner v out}, z.parse (.optional inner) v = .ok out ↔
    (v = none ∧ out = none) ∨ ∃ x, v = some x ∧ z.parse inner (some x) = .ok out
  /-- What the inner schema accepts, where the default stands for nothing. -/
  default : ∀ {inner value v out}, z.parse (.default inner value) v = .ok out ↔
    z.parse inner (some (v.getD value)) = .ok out
  /-- What the inner schema accepts, if it passes the test. -/
  refine : ∀ {inner ok message v out}, z.parse (.refine inner ok message) v = .ok out ↔
    z.parse inner v = .ok out ∧ ok out = true

/-! ## A parser that does so -/

section Plain

/-- All of the values, if none is missing. -/
def allSome? {α : Type} : List (Option α) → Option (List α)
  | [] => some []
  | none :: _ => none
  | some a :: l => (allSome? l).map (a :: ·)

/-- They are what is there. -/
theorem allSome?_eq_some_iff {α : Type} {l : List (Option α)} {as : List α} :
    allSome? l = some as ↔ List.Forall₂ (fun o a => o = some a) l as := by
  induction l generalizing as with
  | nil =>
    rw [List.forall₂_nil_left_iff, allSome?, Option.some.injEq]
    exact eq_comm
  | cons o l ih =>
    rw [List.forall₂_cons_left_iff]
    cases o with
    | none =>
      constructor
      · rintro ⟨⟩
      · rintro ⟨a, as', ⟨⟩, -⟩
    | some a =>
      rw [allSome?, Option.map_eq_some_iff]
      constructor
      · rintro ⟨as', has, rfl⟩
        exact ⟨a, as', rfl, ih.mp has, rfl⟩
      · rintro ⟨a', as', heq, has, rfl⟩
        obtain rfl := Option.some.inj heq
        exact ⟨as', ih.mpr has, rfl⟩

variable (f : Formats)

mutual

/-- What is made of a value, if it is accepted. -/
def accepted? : Schema → Option Val → Option (Option Val)
  | .string checks, v =>
    match v with
    | some (.string s) =>
      if Passes checks s then some (some (.string (trimmedBy checks s))) else none
    | _ => none
  | .number coerce checks, v =>
    match f.numberOf coerce v with
    | some x => if ∀ c ∈ checks, c.ok x = true then some (some (.number x)) else none
    | none => none
  | .enum options, v =>
    match v with
    | some (.string s) => if s ∈ options then some (some (.string s)) else none
    | _ => none
  | .array item min _, v =>
    match v with
    | some (.array items) =>
      if min ≤ items.length then
        (allSome? (items.map fun x => (accepted? item (some x)).join)).map fun outs =>
          some (.array outs)
      else none
    | _ => none
  | .object strict fields, v =>
    match v with
    | some (.object members) =>
      if strict = true → Known fields members then
        (allSome? (acceptedFields? fields members)).map fun outs =>
          some (.object (membersOf fields outs))
      else none
    | _ => none
  | .optional inner, v =>
    match v with
    | none => some none
    | some x => accepted? inner (some x)
  | .default inner value, v => accepted? inner (some (v.getD value))
  | .refine inner ok _, v =>
    match accepted? inner v with
    | some out => if ok out = true then some out else none
    | none => none

/-- What is made of the members of an object, field by field. -/
def acceptedFields? : List (Str × Schema) → List (Str × Val) → List (Option (Option Val))
  | [], _ => []
  | (k, s) :: fields, members =>
    accepted? s (member? k members) :: acceptedFields? fields members

end

/-- The fields, one after another. -/
theorem acceptedFields?_eq (fields : List (Str × Schema)) (members : List (Str × Val)) :
    acceptedFields? f fields members =
      fields.map fun x => accepted? f x.2 (member? x.1 members) := by
  induction fields with
  | nil => rfl
  | cons x fields ih => rw [acceptedFields?, ih, List.map_cons]

/-- A parser that names nothing but the value itself where it refuses one. -/
def plain : Zod where
  toFormats := f
  parse schema v := (accepted? f schema v).elim (.error [⟨[], str "Invalid input"⟩]) .ok

/-- It returns what is made of a value. -/
theorem plain_parse {schema : Schema} {v out : Option Val} :
    (plain f).parse schema v = .ok out ↔ accepted? f schema v = some out := by
  have hparse : (plain f).parse schema v =
      (accepted? f schema v).elim (.error [⟨[], str "Invalid input"⟩]) .ok := rfl
  rw [hparse]
  cases accepted? f schema v with
  | none => simp
  | some out' => simp

/-- It does what zod documents. -/
theorem plain_documented : (plain f).Documented where
  string {checks v out} := by
    -- Schema by schema, `accepted?` makes of a value what the documentation says.
    rw [plain_parse]
    constructor
    · intro h
      unfold accepted? at h
      split at h
      · next s =>
        split at h
        · next hs => exact ⟨s, rfl, hs, (Option.some.inj h).symm⟩
        · cases h
      · cases h
    · rintro ⟨s, rfl, hs, rfl⟩
      rw [accepted?, if_pos hs]
  number {coerce checks v out} := by
    rw [plain_parse]
    constructor
    · intro h
      unfold accepted? at h
      split at h
      · next x hx =>
        split at h
        · next hs => exact ⟨x, hx, hs, (Option.some.inj h).symm⟩
        · cases h
      · cases h
    · rintro ⟨x, hx, hs, rfl⟩
      have hx' : f.numberOf coerce v = some x := hx
      rw [accepted?, hx']
      exact if_pos hs
  enum {options v out} := by
    rw [plain_parse]
    constructor
    · intro h
      unfold accepted? at h
      split at h
      · next s =>
        split at h
        · next hs => exact ⟨s, hs, rfl, (Option.some.inj h).symm⟩
        · cases h
      · cases h
    · rintro ⟨s, hs, rfl, rfl⟩
      rw [accepted?, if_pos hs]
  array {item min message v out} := by
    simp only [plain_parse]
    constructor
    · intro h
      unfold accepted? at h
      split at h
      · next items =>
        split at h
        · next hlength =>
          obtain ⟨outs, houts, rfl⟩ := Option.map_eq_some_iff.mp h
          rw [allSome?_eq_some_iff, List.forall₂_map_left_iff] at houts
          refine ⟨items, outs, rfl, hlength, houts.imp fun x y hxy => ?_, rfl⟩
          exact Option.join_eq_some_iff.mp hxy
        · cases h
      · cases h
    · rintro ⟨items, outs, rfl, hlength, houts, rfl⟩
      rw [accepted?, if_pos hlength, Option.map_eq_some_iff]
      refine ⟨outs, ?_, rfl⟩
      rw [allSome?_eq_some_iff, List.forall₂_map_left_iff]
      exact houts.imp fun x y hxy => Option.join_eq_some_iff.mpr hxy
  object {strict fields v out} _ := by
    simp only [plain_parse]
    constructor
    · intro h
      unfold accepted? at h
      split at h
      · next members =>
        split at h
        · next hknown =>
          obtain ⟨outs, houts, rfl⟩ := Option.map_eq_some_iff.mp h
          rw [acceptedFields?_eq, allSome?_eq_some_iff, List.forall₂_map_left_iff] at houts
          exact ⟨members, outs, rfl, hknown, houts, rfl⟩
        · cases h
      · cases h
    · rintro ⟨members, outs, rfl, hknown, houts, rfl⟩
      rw [accepted?, if_pos hknown, Option.map_eq_some_iff]
      refine ⟨outs, ?_, rfl⟩
      rw [acceptedFields?_eq, allSome?_eq_some_iff, List.forall₂_map_left_iff]
      exact houts
  optional {inner v out} := by
    simp only [plain_parse]
    cases v with
    | none =>
      rw [accepted?]
      simp [eq_comm]
    | some x =>
      rw [accepted?]
      simp
  default {inner value v out} := by
    simp only [plain_parse]
    rw [accepted?]
  refine {inner ok message v out} := by
    simp only [plain_parse]
    rw [accepted?]
    cases accepted? f inner v with
    | none => simp
    | some out' =>
      simp only [Option.ite_none_right_eq_some, Option.some.injEq]
      constructor
      · rintro ⟨hok, rfl⟩
        exact ⟨rfl, hok⟩
      · rintro ⟨rfl, hok⟩
        exact ⟨hok, rfl⟩

end Plain

end Zod

end SplitBill.Js
