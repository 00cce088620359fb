import SplitBill.Api.Schemas
import SplitBill.Frontend.GroupLists
import SplitBill.Js.Zod.Typed

/-!
# What the handlers are given

The bodies and queries of the schemas as types (`z.infer`): a value of one has nothing wrong with
it. Each schema makes the values of its type and no others, and the inputs that the controllers
build from them are the ones that the services are written for.
-/

namespace SplitBill.Api

open Js
open Zod (Formats Schema Presents PresentsFields)

section

variable {f : Formats} {z : Zod}

/-! ## Fields -/

/-- An identifier that goes through. -/
abbrev IdText (f : Formats) : Type := { s : Str // Trimmed isWhiteSpace s ∧ f.uuid s = true }

/-- An amount that goes through. -/
abbrev Amount : Type := { a : ℤ // SafeAmount a }

/-- A text between two ends that are no white space, of a bounded length. -/
abbrev Text (max : ℕ) : Type :=
  { s : Str // Trimmed isWhiteSpace s ∧ 1 ≤ s.length ∧ s.length ≤ max }

/-- A date with a time that goes through. -/
abbrev DatetimeText (f : Formats) : Type := { s : Str // f.datetime s = true }

/-- A string as a value. -/
def stringVal {P : Str → Prop} (s : { s : Str // P s }) : Val := .string s.1

/-- An amount as a value. -/
def amountVal (a : Amount) : Val := .number (.finite a.1)

/-- A split type as a value. -/
def splitTypeVal : SplitType → Val
  | .equal => .string (str "EQUAL")
  | .exact => .string (str "EXACT")

/-- A text that is trimmed and then tested. -/
theorem presents_trimmed (hz : z.Documented) {P : Str → Prop} {tests : List Zod.StringCheck}
    (htests : tests.all Zod.StringCheck.isTest = true) (hP : ∀ s, P s ↔ Zod.Passes tests s) :
    Presents z (.string (.trim :: tests))
      fun s : { s : Str // Trimmed isWhiteSpace s ∧ P s } => some (stringVal s) := by
  have hkept : ∀ s, Zod.trimmedBy (.trim :: tests) s = trim s := fun s =>
    Zod.trimmedBy_tests htests (trim s)
  have hfirst : Zod.trimsFirst (.trim :: tests) = true := htests
  refine (hz.presents_string hfirst).of_equiv ?_ ?_
  · rintro ⟨s, hs, hsame⟩
    rw [hkept] at hsame
    have htrimmed : Trimmed isWhiteSpace s := hsame ▸ trimmed_trim isWhiteSpace s
    have hs' : Zod.Passes tests (trim s) := hs
    exact ⟨⟨s, htrimmed, (hP s).mpr (by rwa [hsame] at hs')⟩, rfl⟩
  · rintro ⟨s, htrimmed, hs⟩
    have hsame : trim s = s := htrimmed.trim_eq
    refine ⟨⟨s, ?_, (hkept s).trans hsame⟩, rfl⟩
    show Zod.Passes tests (trim s)
    rw [hsame]
    exact (hP s).mp hs

/-- An identifier. -/
theorem presents_id (hz : z.Documented) :
    Presents z (idSchema z.toFormats) fun s : IdText z.toFormats => some (stringVal s) :=
  presents_trimmed hz rfl fun s => by simp [Zod.Passes]

/-- A text within its bounds. -/
theorem presents_text (hz : z.Documented) (required : Str) (max : ℕ) (tooLong : Str) :
    Presents z (textSchema required max tooLong) fun s : Text max => some (stringVal s) :=
  presents_trimmed hz rfl fun s => by
    simp only [Zod.Passes, Zod.StringCheck.min, Zod.StringCheck.max, decide_eq_true_eq, and_true]

/-- A date. -/
theorem presents_datetime (hz : z.Documented) :
    Presents z (datetimeSchema z.toFormats)
      fun s : DatetimeText z.toFormats => some (stringVal s) := by
  refine (hz.presents_string rfl).of_equiv ?_ ?_
  · rintro ⟨s, hs, -⟩
    exact ⟨⟨s, by simpa [Zod.Passes] using hs⟩, rfl⟩
  · rintro ⟨s, hs⟩
    exact ⟨⟨s, by simpa [Zod.Passes] using hs, rfl⟩, rfl⟩

/-- Positive safe integers pass the checks of an amount, and nothing else does. -/
theorem safeAmount_iff {x : Double} :
    (x ≠ .nan ∧ ∀ c ∈ [Zod.NumberCheck.int (str "Amount must be a whole number of minor units"),
      .positive (str "Amount must be greater than zero"),
      .min (-maxSafeInteger) (str "Amount must be a safe integer"),
      .max maxSafeInteger (str "Amount must be a safe integer")], c.ok x = true) ↔
      ∃ a : Amount, x = .finite a.1 := by
  have hneg : Double.finite (-maxSafeInteger) = .finite (-maxSafeInteger : ℤ) := by
    rw [Int.cast_neg]
  simp only [List.forall_mem_cons, List.not_mem_nil, false_implies, implies_true, and_true,
    Zod.NumberCheck.int, Zod.NumberCheck.positive, Zod.NumberCheck.min, Zod.NumberCheck.max,
    Double.isInteger_iff]
  constructor
  · rintro ⟨-, ⟨a, rfl⟩, hpos, -, hmax⟩
    exact ⟨⟨a, (Double.lt_intCast 0 a).mp hpos, (Double.le_intCast a _).mp hmax⟩, rfl⟩
  · rintro ⟨⟨a, hpos, hmax⟩, rfl⟩
    refine ⟨nofun, ⟨a, rfl⟩, (Double.lt_intCast 0 a).mpr hpos, ?_, (Double.le_intCast a _).mpr hmax⟩
    rw [hneg]
    exact (Double.le_intCast _ a).mpr (by unfold maxSafeInteger; omega)

/-- What `safeAmount` accepts are the amounts. -/
theorem presents_amount (hz : z.Documented) :
    Presents z safeAmount fun a : Amount => some (amountVal a) := by
  refine (hz.presents_number false _).of_equiv ?_ ?_
  · rintro ⟨x, hx⟩
    obtain ⟨a, rfl⟩ := safeAmount_iff.mp hx
    exact ⟨a, rfl⟩
  · intro a
    exact ⟨⟨.finite a.1, safeAmount_iff.mpr ⟨a, rfl⟩⟩, rfl⟩

/-- What the schema of a split type accepts are the two types. -/
theorem presents_splitType (hz : z.Documented) :
    Presents z splitTypeSchema fun t : SplitType => some (splitTypeVal t) := by
  refine (hz.presents_enum _).of_equiv ?_ ?_
  · rintro ⟨s, hs⟩
    rcases List.mem_pair.mp hs with rfl | rfl
    · exact ⟨.equal, rfl⟩
    · exact ⟨.exact, rfl⟩
  · intro t
    cases t with
    | equal => exact ⟨⟨str "EQUAL", List.mem_cons_self⟩, rfl⟩
    | exact => exact ⟨⟨str "EXACT", List.mem_cons_of_mem _ List.mem_cons_self⟩, rfl⟩

/-! ## Bodies -/

/-- A participant of an expense. -/
structure ParticipantBody (f : Formats) where
  userId : IdText f
  amountMinorUnits : Option Amount

/-- Its fields, in the order of the schema. -/
def ParticipantBody.vals (p : ParticipantBody f) : List (Option Val) :=
  [some (stringVal p.userId), p.amountMinorUnits.map amountVal]

/-- A participant as a value. -/
def ParticipantBody.toVal (p : ParticipantBody f) : Val :=
  .object (Zod.membersOf (expenseParticipantFields f) p.vals)

/-- What the schema of a participant accepts. -/
theorem presents_participant (hz : z.Documented) :
    Presents z (expenseParticipantSchema z.toFormats)
      fun p : ParticipantBody z.toFormats => some p.toVal := by
  have hown : Zod.OwnKeys ((expenseParticipantFields z.toFormats).map (·.1)) :=
    show Zod.OwnKeys [str "userId", str "amountMinorUnits"] by decide +kernel
  have hfields := PresentsFields.cons (str "userId") (presents_id hz)
    (.cons (str "amountMinorUnits") ((presents_amount hz).optional hz) .nil)
  refine (hfields.object hz hown false).of_equiv ?_ ?_
  · rintro ⟨userId, amount, -⟩
    exact ⟨⟨userId, amount⟩, rfl⟩
  · intro p
    exact ⟨(p.userId, p.amountMinorUnits, ()), rfl⟩

/-- At least one participant. -/
abbrev Participants (f : Formats) : Type := { l : List (ParticipantBody f) // 1 ≤ l.length }

/-- Participants as a value. -/
def participantsVal (l : Participants f) : Val := .array (l.1.map ParticipantBody.toVal)

/-- What the schema of the participants accepts. -/
theorem presents_participants (hz : z.Documented) :
    Presents z (participantsSchema z.toFormats)
      fun l : Participants z.toFormats => some (participantsVal l) :=
  (presents_participant hz).array hz 1 (str "At least one participant is required")

/-- `CreateExpenseBody`. -/
structure CreateExpenseBody (f : Formats) where
  description : Text 280
  amountMinorUnits : Amount
  payerId : IdText f
  splitType : SplitType
  participants : Participants f
  expenseDate : Option (DatetimeText f)

namespace CreateExpenseBody

/-- Its fields, in the order of the schema. -/
def vals (b : CreateExpenseBody f) : List (Option Val) :=
  [some (stringVal b.description), some (amountVal b.amountMinorUnits), some (stringVal b.payerId),
    some (splitTypeVal b.splitType), some (participantsVal b.participants),
    b.expenseDate.map stringVal]

/-- A body as a value. -/
def toVal (b : CreateExpenseBody f) : Val :=
  .object (Zod.membersOf (createExpenseFields f) b.vals)

end CreateExpenseBody

/-- What `createExpenseBodySchema` accepts. -/
theorem presents_createExpense (hz : z.Documented) :
    Presents z (createExpenseBodySchema z.toFormats)
    fun b : CreateExpenseBody z.toFormats => some b.toVal := by
  have hown : Zod.OwnKeys ((createExpenseFields z.toFormats).map (·.1)) :=
    show Zod.OwnKeys [str "description", str "amountMinorUnits", str "payerId", str "splitType",
      str "participants", str "expenseDate"] by decide +kernel
  have hfields := PresentsFields.cons (str "description")
      (presents_text hz (str "Description is required") 280 (str "Description is too long"))
    (.cons (str "amountMinorUnits") (presents_amount hz)
    (.cons (str "payerId") (presents_id hz)
    (.cons (str "splitType") (presents_splitType hz)
    (.cons (str "participants") (presents_participants hz)
    (.cons (str "expenseDate") ((presents_datetime hz).optional hz) .nil)))))
  refine (hfields.object hz hown true).of_equiv ?_ ?_
  · rintro ⟨description, amount, payerId, splitType, participants, expenseDate, -⟩
    exact ⟨⟨description, amount, payerId, splitType, participants, expenseDate⟩, rfl⟩
  · intro b
    exact ⟨(b.description, b.amountMinorUnits, b.payerId, b.splitType, b.participants,
      b.expenseDate, ()), rfl⟩

/-- `UpdateExpenseBody`, as far as its fields go. -/
structure UpdateExpenseFields (f : Formats) where
  description : Option (Text 280) := none
  amountMinorUnits : Option Amount := none
  payerId : Option (IdText f) := none
  splitType : Option SplitType := none
  participants : Option (Participants f) := none
  expenseDate : Option (DatetimeText f) := none

/-- `UpdateExpenseBody`: one of the fields is there. -/
abbrev UpdateExpenseBody (f : Formats) : Type := { b : UpdateExpenseFields f // b ≠ {} }

namespace UpdateExpenseFields

/-- The fields, in the order of the schema. -/
def vals (b : UpdateExpenseFields f) : List (Option Val) :=
  [b.description.map stringVal, b.amountMinorUnits.map amountVal, b.payerId.map stringVal,
    b.splitType.map splitTypeVal, b.participants.map participantsVal, b.expenseDate.map stringVal]

/-- A body as a value. -/
def toVal (b : UpdateExpenseFields f) : Val :=
  .object (Zod.membersOf (updateExpenseFields f) b.vals)

/-- The object has no keys if no field is there. -/
theorem hasKeys_toVal (b : UpdateExpenseFields f) : hasKeys (some b.toVal) = true ↔ b ≠ {} := by
  have hkeys : hasKeys (some b.toVal) =
      decide (Zod.membersOf (updateExpenseFields f) b.vals ≠ []) :=
    rfl
  rw [hkeys, decide_eq_true_eq, not_iff_not]
  constructor
  · intro h
    obtain ⟨description, amount, payerId, splitType, participants, expenseDate⟩ := b
    unfold Zod.membersOf at h
    rw [List.filterMap_eq_nil_iff] at h
    simp only [vals, updateExpenseFields, List.zip_cons_cons, List.zip_nil_right, List.mem_cons,
      List.not_mem_nil, or_false, forall_eq_or_imp, forall_eq, Option.map_eq_none_iff] at h
    obtain ⟨rfl, rfl, rfl, rfl, rfl, rfl⟩ := h
    rfl
  · rintro rfl
    rfl

end UpdateExpenseFields

/-- What `updateExpenseBodySchema` accepts. -/
theorem presents_updateExpense (hz : z.Documented) :
    Presents z (updateExpenseBodySchema z.toFormats)
    fun b : UpdateExpenseBody z.toFormats => some b.1.toVal := by
  have hown : Zod.OwnKeys ((updateExpenseFields z.toFormats).map (·.1)) :=
    show Zod.OwnKeys [str "description", str "amountMinorUnits", str "payerId", str "splitType",
      str "participants", str "expenseDate"] by decide +kernel
  have hfields := PresentsFields.cons (str "description")
      ((presents_text hz (str "Description is required") 280
        (str "Description is too long")).optional hz)
    (.cons (str "amountMinorUnits") ((presents_amount hz).optional hz)
    (.cons (str "payerId") ((presents_id hz).optional hz)
    (.cons (str "splitType") ((presents_splitType hz).optional hz)
    (.cons (str "participants") ((presents_participants hz).optional hz)
    (.cons (str "expenseDate") ((presents_datetime hz).optional hz) .nil)))))
  have hobject : Presents z (.object true (updateExpenseFields z.toFormats))
      fun b : UpdateExpenseFields z.toFormats => some b.toVal := by
    refine (hfields.object hz hown true).of_equiv ?_ ?_
    · rintro ⟨description, amount, payerId, splitType, participants, expenseDate, -⟩
      exact ⟨⟨description, amount, payerId, splitType, participants, expenseDate⟩, rfl⟩
    · intro b
      exact ⟨(b.description, b.amountMinorUnits, b.payerId, b.splitType, b.participants,
        b.expenseDate, ()), rfl⟩
  -- The refinement takes away the one body that has no field.
  refine (hobject.refine hz hasKeys (str "At least one field is required")).of_equiv ?_ ?_
  · rintro ⟨b, hb⟩
    exact ⟨⟨b, b.hasKeys_toVal.mp hb⟩, rfl⟩
  · rintro ⟨b, hb⟩
    exact ⟨⟨b, b.hasKeys_toVal.mpr hb⟩, rfl⟩

/-- `CreateSettlementBody`. -/
structure CreateSettlementBody (f : Formats) where
  payerId : IdText f
  payeeId : IdText f
  amountMinorUnits : Amount

/-- A body as a value. -/
def CreateSettlementBody.toVal (b : CreateSettlementBody f) : Val :=
  .object (Zod.membersOf (createSettlementFields f)
    [some (stringVal b.payerId), some (stringVal b.payeeId), some (amountVal b.amountMinorUnits)])

/-- What `createSettlementBodySchema` accepts. -/
theorem presents_createSettlement (hz : z.Documented) :
    Presents z (createSettlementBodySchema z.toFormats)
    fun b : CreateSettlementBody z.toFormats => some b.toVal := by
  have hown : Zod.OwnKeys ((createSettlementFields z.toFormats).map (·.1)) :=
    show Zod.OwnKeys [str "payerId", str "payeeId", str "amountMinorUnits"] by decide +kernel
  have hfields := PresentsFields.cons (str "payerId") (presents_id hz)
    (.cons (str "payeeId") (presents_id hz)
      (.cons (str "amountMinorUnits") (presents_amount hz) .nil))
  refine (hfields.object hz hown true).of_equiv ?_ ?_
  · rintro ⟨payerId, payeeId, amount, -⟩
    exact ⟨⟨payerId, payeeId, amount⟩, rfl⟩
  · intro b
    exact ⟨(b.payerId, b.payeeId, b.amountMinorUnits, ()), rfl⟩

/-! ## Queries -/

/-- The size of a page. -/
abbrev Limit : Type := { n : ℕ // 1 ≤ n ∧ n ≤ 50 }

/-- The number of a page as a value. -/
def pageVal (n : ℕ+) : Val := .number (.finite ((n : ℕ) : ℤ))

/-- The size of a page as a value. -/
def limitVal (n : Limit) : Val := .number (.finite (n.1 : ℤ))

/-- What the schema of a page number accepts. -/
theorem presents_page (hz : z.Documented) :
    Presents z (.number true pageChecks) fun n : ℕ+ => some (pageVal n) := by
  refine (hz.presents_number true _).of_equiv ?_ ?_
  · rintro ⟨x, -, hchecks⟩
    simp only [pageChecks, List.forall_mem_cons, Zod.NumberCheck.int, Zod.NumberCheck.positive,
      Double.isInteger_iff] at hchecks
    -- Of the doubles that a text may be coerced to, the checks leave the positive whole numbers.
    obtain ⟨⟨a, rfl⟩, hpos, -⟩ := hchecks
    have hlt : 0 < a := (Double.lt_intCast 0 a).mp hpos
    obtain ⟨n, rfl⟩ := Int.eq_ofNat_of_zero_le hlt.le
    exact ⟨⟨n, by exact_mod_cast hlt⟩, rfl⟩
  · intro n
    have hpos : (0 : ℤ) < ((n : ℕ) : ℤ) := by exact_mod_cast n.pos
    refine ⟨⟨.finite ((n : ℕ) : ℤ), nofun, ?_⟩, rfl⟩
    simp only [pageChecks, List.forall_mem_cons, Zod.NumberCheck.int, Zod.NumberCheck.positive,
      Double.isInteger_iff, List.not_mem_nil, false_implies, implies_true, and_true]
    exact ⟨⟨_, rfl⟩, (Double.lt_intCast 0 _).mpr hpos⟩

/-- What the schema of a limit accepts. -/
theorem presents_limit (hz : z.Documented) :
    Presents z (.number true limitChecks) fun n : Limit => some (limitVal n) := by
  have hfifty : Double.finite 50 = .finite (50 : ℤ) := rfl
  refine (hz.presents_number true _).of_equiv ?_ ?_
  · rintro ⟨x, -, hchecks⟩
    simp only [limitChecks, List.forall_mem_cons, Zod.NumberCheck.int, Zod.NumberCheck.positive,
      Zod.NumberCheck.max, Double.isInteger_iff] at hchecks
    obtain ⟨⟨a, rfl⟩, hpos, hmax, -⟩ := hchecks
    have hlt : 0 < a := (Double.lt_intCast 0 a).mp hpos
    have hle : a ≤ 50 := (Double.le_intCast a 50).mp hmax
    obtain ⟨n, rfl⟩ := Int.eq_ofNat_of_zero_le hlt.le
    exact ⟨⟨n, by omega, by omega⟩, rfl⟩
  · rintro ⟨n, hpos, hmax⟩
    refine ⟨⟨.finite (n : ℤ), nofun, ?_⟩, rfl⟩
    simp only [limitChecks, List.forall_mem_cons, Zod.NumberCheck.int, Zod.NumberCheck.positive,
      Zod.NumberCheck.max, Double.isInteger_iff, List.not_mem_nil, false_implies, implies_true,
      and_true]
    exact ⟨⟨_, rfl⟩, (Double.lt_intCast 0 _).mpr (by omega),
      (Double.le_intCast _ 50).mpr (by omega)⟩

/-- `PaginationQuery` as a value. -/
def paginationVal (query : PaginationQuery) : Val :=
  .object (Zod.membersOf paginationQueryFields [query.page.map pageVal, query.limit.map limitVal])

/-- What `paginationQuerySchema` accepts. -/
theorem presents_pagination (hz : z.Documented) : Presents z paginationQuerySchema
    fun query : PaginationQuery => some (paginationVal query) := by
  have hown : Zod.OwnKeys (paginationQueryFields.map (·.1)) :=
    show Zod.OwnKeys [str "page", str "limit"] by decide +kernel
  have hfields := PresentsFields.cons (str "page") ((presents_page hz).optional hz)
    (.cons (str "limit") ((presents_limit hz).optional hz) .nil)
  refine (hfields.object hz hown false).of_equiv ?_ ?_
  · rintro ⟨page, limit, -⟩
    exact ⟨⟨page, limit⟩, rfl⟩
  · intro query
    exact ⟨(query.page, query.limit, ()), rfl⟩

/-- `ActivityQuery`. -/
structure ActivityQuery where
  page : ℕ+
  limit : Limit

/-- `ActivityQuery` as a value. -/
def ActivityQuery.toVal (query : ActivityQuery) : Val :=
  .object (Zod.membersOf activityQueryFields
    [some (pageVal query.page), some (limitVal query.limit)])

/-- What the query schema of the activity accepts. -/
theorem presents_activity (hz : z.Documented) :
    Presents z activityQuerySchema fun query : ActivityQuery => some query.toVal := by
  have hown : Zod.OwnKeys (activityQueryFields.map (·.1)) :=
    show Zod.OwnKeys [str "page", str "limit"] by decide +kernel
  have hfields := PresentsFields.cons (str "page")
      ((presents_page hz).default hz (.number (.finite 1)))
    (.cons (str "limit") ((presents_limit hz).default hz (.number (.finite 20))) .nil)
  refine (hfields.object hz hown true).of_equiv ?_ ?_
  · rintro ⟨page, limit, -⟩
    exact ⟨⟨page, limit⟩, rfl⟩
  · intro query
    exact ⟨(query.page, query.limit, ()), rfl⟩

/-! ## Inputs of the services -/

/-- How the strings of a request are read. -/
structure Reading where
  id : Str → Id
  text : Str → String
  /-- `new Date(text)`. -/
  time : Str → Time

variable (r : Reading) (groupId : Id)

/-- A participant of the input. -/
def ParticipantBody.toInput (p : ParticipantBody f) : Participant where
  userId := r.id p.userId
  amountMinorUnits := p.amountMinorUnits.map (·.1)

/-- The input that `createExpense` of the controller builds. -/
def CreateExpenseBody.toInput (b : CreateExpenseBody f) : CreateExpenseInput where
  groupId := groupId
  description := r.text b.description
  amountMinorUnits := b.amountMinorUnits
  payerId := r.id b.payerId
  splitType := b.splitType
  participants := b.participants.1.map (·.toInput r)
  expenseDate := b.expenseDate.map (r.time ·.1)

/-- The input that `updateExpense` of the controller builds. -/
def UpdateExpenseFields.toInput (b : UpdateExpenseFields f) : UpdateExpenseInput where
  description := b.description.map (r.text ·.1)
  amountMinorUnits := b.amountMinorUnits.map (·.1)
  payerId := b.payerId.map (r.id ·.1)
  splitType := b.splitType
  participants := b.participants.map fun l => l.1.map (·.toInput r)
  expenseDate := b.expenseDate.map (r.time ·.1)

/-- The input that `createSettlement` of the controller builds. -/
def CreateSettlementBody.toInput (b : CreateSettlementBody f) : CreateSettlementInput where
  groupId := groupId
  payerId := r.id b.payerId
  payeeId := r.id b.payeeId
  amountMinorUnits := b.amountMinorUnits

/-- The participants of a body are what the service counts on. -/
theorem accepted_participants (l : Participants f) :
    (∀ p ∈ l.1.map (·.toInput r), p.Accepted) ∧ l.1.map (·.toInput r) ≠ [] := by
  obtain ⟨l, hl⟩ := l
  refine ⟨fun p hp a ha => ?_, ?_⟩
  · obtain ⟨p, -, rfl⟩ := List.mem_map.mp hp
    obtain ⟨a, -, rfl⟩ := Option.map_eq_some_iff.mp ha
    exact a.2
  · rintro hnil
    rw [List.map_eq_nil_iff] at hnil
    subst hnil
    cases hl

/-- The body of a new expense is what the service counts on. -/
theorem accepted_createExpense (b : CreateExpenseBody f) : (b.toInput r groupId).Accepted :=
  ⟨b.amountMinorUnits.2, accepted_participants r b.participants⟩

/-- The body of an update is what the service counts on. -/
theorem accepted_updateExpense (b : UpdateExpenseBody f) : (b.1.toInput r).Accepted := by
  obtain ⟨b, hb⟩ := b
  refine ⟨fun a ha => ?_, fun ps hps => ?_, fun hempty => hb ?_⟩
  · obtain ⟨a, -, rfl⟩ := Option.map_eq_some_iff.mp ha
    exact a.2
  · obtain ⟨l, -, rfl⟩ := Option.map_eq_some_iff.mp hps
    exact accepted_participants r l
  · obtain ⟨description, amount, payerId, splitType, participants, expenseDate⟩ := b
    simp only [UpdateExpenseFields.toInput, UpdateExpenseInput.mk.injEq,
      Option.map_eq_none_iff] at hempty
    obtain ⟨rfl, rfl, rfl, rfl, rfl, rfl⟩ := hempty
    rfl

/-- The body of a settlement is what the service counts on. -/
theorem accepted_createSettlement (b : CreateSettlementBody f) :
    (b.toInput r groupId).Accepted := b.amountMinorUnits.2

end

/-- A reading that tells strings by their lengths. -/
def lengthReading : Reading where
  id s := s.length
  text s := toString s.length
  time s := s.length

end SplitBill.Api
