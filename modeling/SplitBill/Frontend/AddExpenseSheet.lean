import SplitBill.Api.Bodies
import SplitBill.Frontend.Money
import SplitBill.Js.Numeral

/-!
# Adding an expense

`_save` of `src/frontend/lib/features/groups/presentation/widgets/add_expense_sheet.dart`, the text
of its request (`CreateExpenseRequest.toJson`) and what the backend's schema makes of it. The
backend is given exactly what was entered, or nothing: the sheet checks less than the schema, but it
alters nothing that the schema lets through.
-/

namespace SplitBill.Frontend

open Js
open Zod (Formats Schema)
open Api (dartTrim CreateExpenseBody createExpenseBodySchema)

/-! ## The sheet -/

/-- `ExpenseParticipant`. -/
structure ExpenseParticipant where
  userId : Str
  amountMinorUnits : Option Int64 := none

/-- `CreateExpenseRequest`. The date is the text that `toIso8601String` makes of it. -/
structure CreateExpenseRequest where
  description : Str
  amountMinorUnits : Int64
  payerId : Str
  splitType : Str
  participants : List ExpenseParticipant
  expenseDate : Option Str := none

/-- What is entered. -/
structure AddExpenseSheet where
  description : Str
  amount : String
  payerId : Str
  /-- The identifiers of the members. -/
  members : List Str

/-- `trim`, of characters. -/
def trimText (s : String) : String :=
  let isSpace (c : Char) : Bool := isWhitespace c || c.toNat == 0x85
  .ofList ((s.toList.dropWhile isSpace).reverse.dropWhile isSpace).reverse

/-- `_save`, up to the request: what is sent, or the error that is shown. -/
def AddExpenseSheet.save (sheet : AddExpenseSheet) : Except String CreateExpenseRequest :=
  if dartTrim sheet.description = [] then .error "Enter a description"
  else match Money.parse (trimText sheet.amount) none with
    | .error _ => .error "Enter a valid amount, e.g. 1,250"
    | .ok amount =>
      if amount.minorUnits ≤ 0 then .error "Enter an amount greater than zero"
      else if sheet.payerId = [] then .error "Choose who paid"
      else .ok {
        description := dartTrim sheet.description
        amountMinorUnits := amount.minorUnits
        payerId := sheet.payerId
        splitType := str "EQUAL"
        participants := sheet.members.map fun id => { userId := id } }

/-- An `int` of Dart as a value. -/
def intValue (n : Int64) : Value := .number (intText n.toInt)

/-- `toJson` of a participant. -/
def ExpenseParticipant.toJson (p : ExpenseParticipant) : Value :=
  .object ((str "userId", .string p.userId) ::
    (p.amountMinorUnits.map fun n => (str "amountMinorUnits", intValue n)).toList)

/-- `toJson` of the request. -/
def CreateExpenseRequest.toJson (request : CreateExpenseRequest) : Value :=
  .object ([(str "description", .string request.description),
    (str "amountMinorUnits", intValue request.amountMinorUnits),
    (str "payerId", .string request.payerId), (str "splitType", .string request.splitType),
    (str "participants", .array (request.participants.map ExpenseParticipant.toJson))] ++
    (request.expenseDate.map fun date => (str "expenseDate", .string date)).toList)

/-! ## The way to the backend -/

/-- How the backend rounds a numeral. A whole number that fits into 64 bits is rounded as a `bigint`
is. -/
structure Rounding where
  literal : ℚ → Double
  literal_int : ∀ z : ℤ, z.natAbs < 2 ^ 64 → literal z = .finite (number z : ℤ)

/-- `req.body` for a text that was sent. -/
def received (rounding : Rounding) (text : Str) : Option Val :=
  (Json.parse text).map (·.toVal rounding.literal)

section

variable {f : Formats} {z : Zod} {rounding : Rounding}

/-- A client can read a participant. -/
theorem reads_participant (p : ExpenseParticipant) : Json.Reads p.toJson := by
  refine Json.reads_object_of_settles fun e he => ?_
  rcases List.mem_cons.mp he with rfl | he
  · exact (Json.reads_string _).settles
  · rw [Option.mem_toList, Option.map_eq_some_iff] at he
    obtain ⟨n, -, rfl⟩ := he
    exact Json.settles_int n.toInt

/-- The backend parses the text into what was sent. -/
theorem received_request (request : CreateExpenseRequest) :
    received rounding (Json.stringify request.toJson) =
      some (request.toJson.toVal rounding.literal) := by
  have hparticipants : Json.Reads
      (.array (request.participants.map ExpenseParticipant.toJson)) := by
    refine Json.reads_array fun v hv => ?_
    obtain ⟨p, -, rfl⟩ := List.mem_map.mp hv
    exact reads_participant p
  have hreads : Json.Reads request.toJson := by
    -- Each field of the request is read as it was written.
    refine Json.reads_object_of_settles fun e he => ?_
    rcases List.mem_append.mp he with he | he
    · simp only [List.mem_cons, List.not_mem_nil, or_false] at he
      rcases he with rfl | rfl | rfl | rfl | rfl
      · exact (Json.reads_string _).settles
      · exact Json.settles_int request.amountMinorUnits.toInt
      · exact (Json.reads_string _).settles
      · exact (Json.reads_string _).settles
      · exact hparticipants.settles
    · rw [Option.mem_toList, Option.map_eq_some_iff] at he
      obtain ⟨date, -, rfl⟩ := he
      exact (Json.reads_string date).settles
  unfold received
  rw [Json.parse_stringify hreads]
  rfl

/-- The request of a sheet with these entries. -/
def equalRequest (description : Str) (amount : Int64) (payerId : Str) (members : List Str) :
    CreateExpenseRequest where
  description := description
  amountMinorUnits := amount
  payerId := payerId
  splitType := str "EQUAL"
  participants := members.map fun id => { userId := id }

/-- What the sheet sends. -/
theorem save_eq_ok_iff {sheet : AddExpenseSheet} {request : CreateExpenseRequest} :
    sheet.save = .ok request ↔ dartTrim sheet.description ≠ [] ∧
      ∃ amount, Money.parse (trimText sheet.amount) none = .ok amount ∧ 0 < amount.minorUnits ∧
        sheet.payerId ≠ [] ∧ request = equalRequest (dartTrim sheet.description)
          amount.minorUnits sheet.payerId sheet.members := by
  unfold AddExpenseSheet.save
  by_cases hdescription : dartTrim sheet.description = []
  · simp [hdescription]
  rw [if_neg hdescription]
  cases hamount : Money.parse (trimText sheet.amount) none with
  | error e => simp
  | ok amount =>
    simp only [ne_eq, hdescription, not_false_eq_true, true_and, Except.ok.injEq, exists_eq_left',
      ← Int64.not_le]
    by_cases hpositive : amount.minorUnits ≤ 0
    · simp [hpositive]
    by_cases hpayer : sheet.payerId = []
    · simp [hpositive, hpayer]
    · simp only [hpositive, hpayer, if_false, not_false_eq_true, true_and, Except.ok.injEq]
      exact eq_comm

/-- The amount as the backend sees it. -/
theorem literal_intText {n : Int64} (hn : 0 < n.toInt) :
    rounding.literal (Json.numeralValue (intText n.toInt)) = .finite (number n.toInt : ℤ) := by
  rw [Json.numeralValue_intText]
  refine rounding.literal_int n.toInt ?_
  have hlt := n.toInt_lt
  omega

/-- Rounding alters no amount that is safe, and makes none safe. -/
theorem number_eq_safe {n a : ℤ} (hn : 0 < n) (ha : SafeAmount a) : a = number n ↔ a = n := by
  -- An amount beyond the safe integers stays beyond them when it is rounded.
  have hexact : n ≤ maxSafeInteger → number n = n := by
    intro h
    refine representable_of_abs_le ?_
    rw [abs_of_pos hn]
    unfold maxSafeInteger at h
    omega
  constructor
  · intro h
    have hsafe : number n ≤ maxSafeInteger := h ▸ ha.2
    exact h.trans (hexact ((number_le_maxSafeInteger hn).mp hsafe))
  · rintro rfl
    exact (hexact ha.2).symm

/-! ## What the schema makes of it -/

/-- A trimmed text is made of the texts that are trimmed to it. -/
theorem parse_trimmed_iff (hz : z.Documented) {P : Str → Prop} {tests : List Zod.StringCheck}
    (htests : tests.all Zod.StringCheck.isTest = true) (hP : ∀ s, P s ↔ Zod.Passes tests s)
    {s : Str} {x : { s : Str // Trimmed isWhiteSpace s ∧ P s }} :
    z.parse (.string (.trim :: tests)) (some (.string s)) = .ok (some (Api.stringVal x)) ↔
      x.1 = trim s := by
  have hmade : Zod.trimmedBy (.trim :: tests) s = trim s := Zod.trimmedBy_tests htests (trim s)
  rw [hz.string]
  constructor
  · rintro ⟨s', hs', -, hout⟩
    obtain rfl := Val.string.inj (Option.some.inj hs')
    rw [hmade] at hout
    exact Val.string.inj (Option.some.inj hout)
  · intro hx
    refine ⟨s, rfl, ?_, by rw [hmade, ← hx]; rfl⟩
    show Zod.Passes tests (trim s)
    rw [← hx]
    exact (hP x.1).mp x.2.2

/-- An identifier is trimmed. -/
theorem parse_id_iff (hz : z.Documented) {s : Str} {x : Api.IdText z.toFormats} :
    z.parse (Api.idSchema z.toFormats) (some (.string s)) = .ok (some (Api.stringVal x)) ↔
      x.1 = trim s :=
  parse_trimmed_iff hz rfl fun s => by simp [Zod.Passes]

/-- An amount is made of itself. -/
theorem parse_amount_iff (hz : z.Documented) {n : ℤ} {a : Api.Amount} :
    z.parse Api.safeAmount (some (.number (.finite n))) = .ok (some (Api.amountVal a)) ↔
      a.1 = n := by
  have hnumber : z.numberOf false (some (.number (.finite n))) = some (.finite n) := rfl
  have hval : Api.amountVal a = .number (.finite n) ↔ a.1 = n := by
    unfold Api.amountVal
    rw [Val.number.injEq, Double.finite.injEq, Int.cast_inj]
  constructor
  · intro h
    obtain ⟨x, hx, -, hout⟩ := hz.number.mp h
    rw [hnumber] at hx
    obtain rfl := Option.some.inj hx
    exact hval.mp (Option.some.inj hout)
  · rintro rfl
    exact (Api.presents_amount hz).kept a

/-- `EQUAL` is made of itself. -/
theorem parse_splitType_iff (hz : z.Documented) {t : SplitType} :
    z.parse Api.splitTypeSchema (some (.string (str "EQUAL"))) =
        .ok (some (Api.splitTypeVal t)) ↔
      t = .equal := by
  constructor
  · intro h
    obtain ⟨s, -, hs, hout⟩ := hz.enum.mp h
    obtain rfl := Val.string.inj (Option.some.inj hs)
    cases t with
    | equal => rfl
    | exact =>
      have hne : str "EXACT" ≠ str "EQUAL" := by decide
      exact absurd (Val.string.inj (Option.some.inj hout)) hne
  · rintro rfl
    exact (Api.presents_splitType hz).kept .equal

/-- A member as the backend sees it. -/
def memberVal (id : Str) : Val := .object [(str "userId", .string id)]

/-- A member has an identifier and no amount. -/
theorem parse_participant_iff (hz : z.Documented) {id : Str}
    {p : Api.ParticipantBody z.toFormats} :
    z.parse (Api.expenseParticipantSchema z.toFormats) (some (memberVal id)) =
        .ok (some p.toVal) ↔
      p.userId.1 = trim id ∧ p.amountMinorUnits = none := by
  have hown : Zod.OwnKeys ((Api.expenseParticipantFields z.toFormats).map (·.1)) :=
    show Zod.OwnKeys [str "userId", str "amountMinorUnits"] by decide +kernel
  have hid : Zod.member? (str "userId") [(str "userId", Val.string id)] = some (.string id) := rfl
  have hno : Zod.member? (str "amountMinorUnits") [(str "userId", Val.string id)] = none := rfl
  unfold Api.expenseParticipantSchema memberVal Api.ParticipantBody.toVal
  rw [hz.parse_object_iff hown rfl]
  simp only [Api.expenseParticipantFields, Api.ParticipantBody.vals, List.forall₂_cons, hid, hno,
    Bool.false_eq_true, false_implies, true_and, List.Forall₂.nil, and_true, parse_id_iff hz,
    hz.parse_optional_none, Option.map_eq_none_iff]

/-- So it is with all members, in their order. -/
theorem parse_participants_iff (hz : z.Documented) {ids : List Str}
    {l : Api.Participants z.toFormats} :
    z.parse (Api.participantsSchema z.toFormats) (some (.array (ids.map memberVal))) =
        .ok (some (Api.participantsVal l)) ↔
      List.Forall₂ (fun id p => p.userId.1 = trim id ∧ p.amountMinorUnits = none) ids l.1 := by
  unfold Api.participantsSchema Api.participantsVal
  rw [hz.parse_array_iff, List.length_map, List.forall₂_map_left_iff,
    List.forall₂_map_right_iff]
  simp only [parse_participant_iff hz]
  refine and_iff_right_of_imp fun h => ?_
  rw [h.length_eq]
  exact l.2

/-- What the backend receives of a request with equal shares. -/
theorem toVal_equalRequest (description payerId : Str) {amount : Int64} (hamount : 0 < amount.toInt)
    (members : List Str) : (equalRequest description amount payerId members).toJson.toVal
        rounding.literal =
      .object [(str "description", .string description),
        (str "amountMinorUnits", .number (.finite (number amount.toInt : ℤ))),
        (str "payerId", .string payerId), (str "splitType", .string (str "EQUAL")),
        (str "participants", .array (members.map memberVal))] := by
  have hmembers : itemsToVal rounding.literal ((equalRequest description amount payerId
      members).participants.map ExpenseParticipant.toJson) = members.map memberVal := by
    show itemsToVal rounding.literal ((members.map fun id => _).map ExpenseParticipant.toJson) = _
    rw [itemsToVal_eq, List.map_map, List.map_map]
    rfl
  rw [← literal_intText hamount, ← hmembers]
  rfl

/-- What the schema makes of a request with these entries. -/
theorem parse_equalRequest_iff (hz : z.Documented) {description payerId : Str} {amount : Int64}
    (hamount : 0 < amount.toInt) {members : List Str} {b : CreateExpenseBody z.toFormats} :
    z.parse (createExpenseBodySchema z.toFormats) (received rounding
        (Json.stringify (equalRequest description amount payerId members).toJson)) =
        .ok (some b.toVal) ↔
      b.description.1 = trim description ∧ b.amountMinorUnits.1 = amount.toInt ∧
      b.payerId.1 = trim payerId ∧ b.splitType = .equal ∧
      List.Forall₂ (fun id p => p.userId.1 = trim id ∧ p.amountMinorUnits = none) members
        b.participants.1 ∧ b.expenseDate = none := by
  have hown : Zod.OwnKeys ((Api.createExpenseFields z.toFormats).map (·.1)) :=
    show Zod.OwnKeys [str "description", str "amountMinorUnits", str "payerId", str "splitType",
      str "participants", str "expenseDate"] by decide +kernel
  have hdescription : ∀ {s : Str}, z.parse Api.descriptionSchema (some (.string s)) =
      .ok (some (Api.stringVal b.description)) ↔ b.description.1 = trim s := by
    intro s
    refine parse_trimmed_iff hz rfl fun s => ?_
    simp only [Zod.Passes, Zod.StringCheck.min, Zod.StringCheck.max, decide_eq_true_eq, and_true]
  -- The request is an object, so that the schema looks at its fields one by one.
  rw [received_request, toVal_equalRequest description payerId hamount members]
  unfold createExpenseBodySchema CreateExpenseBody.toVal
  rw [hz.parse_object_iff hown rfl]
  have hknown : ∀ k ∈ [str "description", str "amountMinorUnits", str "payerId", str "splitType",
      str "participants"], k ∈ (Api.createExpenseFields z.toFormats).map (·.1) :=
    fun k hk => List.mem_append_left [str "expenseDate"] hk
  refine (and_iff_right fun _ => hknown).trans ?_
  simp only [Api.createExpenseFields, CreateExpenseBody.vals, List.forall₂_cons, List.Forall₂.nil,
    and_true]
  have hamount' : b.amountMinorUnits.1 = number amount.toInt ↔ b.amountMinorUnits.1 = amount.toInt :=
    number_eq_safe hamount b.amountMinorUnits.2
  refine and_congr hdescription (and_congr ((parse_amount_iff hz).trans hamount')
    (and_congr (parse_id_iff hz)
    (and_congr (parse_splitType_iff hz) (and_congr (parse_participants_iff hz) ?_))))
  exact hz.parse_optional_none.trans Option.map_eq_none_iff

/-- The body is what was entered. -/
structure Entered (sheet : AddExpenseSheet) (b : CreateExpenseBody f) : Prop where
  description : b.description.1 = dartTrim sheet.description
  amount : ∃ amount, Money.parse (trimText sheet.amount) none = .ok amount ∧
    b.amountMinorUnits.1 = amount.minorUnits.toInt
  payer : sheet.payerId ≠ [] ∧ b.payerId.1 = trim sheet.payerId
  splitType : b.splitType = .equal
  participants : List.Forall₂ (fun id p => p.userId.1 = trim id ∧ p.amountMinorUnits = none)
    sheet.members b.participants.1
  expenseDate : b.expenseDate = none

/-- Every request of the sheet that the schema lets through carries what was entered, and whatever
is entered goes through if it makes a body at all. -/
theorem save_entered (hz : z.Documented) (rounding : Rounding) (sheet : AddExpenseSheet)
    (b : CreateExpenseBody z.toFormats) :
    (∃ request, sheet.save = .ok request ∧
      z.parse (createExpenseBodySchema z.toFormats)
        (received rounding (Json.stringify request.toJson)) = .ok (some b.toVal)) ↔
      Entered sheet b := by
  have htrim : trim (dartTrim sheet.description) = dartTrim sheet.description := by
    have hends : Trimmed Api.isDartWhiteSpace (dartTrim sheet.description) := trimmed_trim _ _
    exact (hends.mono fun u hu => by rw [Api.isDartWhiteSpace, hu, Bool.true_or]).trim_eq
  have hpositive : ∀ n : Int64, 0 < n ↔ 0 < n.toInt := fun n => Int64.lt_iff_toInt_lt
  constructor
  · rintro ⟨request, hsave, hparse⟩
    obtain ⟨-, amount, hamount, hpos, hpayer, rfl⟩ := save_eq_ok_iff.mp hsave
    obtain ⟨hdescription, hvalue, hpayer', hsplit, hparticipants, hdate⟩ :=
      (parse_equalRequest_iff hz ((hpositive _).mp hpos)).mp hparse
    -- The schema trims again, which changes nothing.
    rw [htrim] at hdescription
    exact ⟨hdescription, ⟨amount, hamount, hvalue⟩, ⟨hpayer, hpayer'⟩, hsplit, hparticipants, hdate⟩
  · rintro ⟨hdescription, ⟨amount, hamount, hvalue⟩, ⟨hpayer, hpayer'⟩, hsplit, hparticipants, hdate⟩
    -- The sheet's own checks pass: the schema asks for a description and a positive amount.
    have hne : dartTrim sheet.description ≠ [] := by
      have hlength := b.description.2.2.1
      rw [hdescription] at hlength
      exact List.ne_nil_of_length_pos hlength
    have hpos : 0 < amount.minorUnits.toInt := hvalue ▸ b.amountMinorUnits.2.1
    refine ⟨_, save_eq_ok_iff.mpr ⟨hne, amount, hamount, (hpositive _).mpr hpos, hpayer, rfl⟩, ?_⟩
    refine (parse_equalRequest_iff hz hpos).mpr
      ⟨?_, hvalue, hpayer', hsplit, hparticipants, hdate⟩
    rw [htrim]
    exact hdescription

end

/-- Whole numbers are rounded, and no others are there. -/
def wholeRounding : Rounding where
  literal q := .finite (if q.den = 1 then ((number q.num : ℤ) : ℚ) else q)
  literal_int z _ := by rw [Rat.den_intCast, if_pos rfl, Rat.num_intCast]

/-- A dinner of two, which the second one paid. -/
def dinnerSheet : AddExpenseSheet where
  description := str "Dinner "
  amount := "1,250.50"
  payerId := str "6f1c2d3e-0000-4000-8000-000000000002"
  members := [str "6f1c2d3e-0000-4000-8000-000000000001",
    str "6f1c2d3e-0000-4000-8000-000000000002"]

/-- Its body. -/
def dinnerBody : CreateExpenseBody Api.plainFormats where
  description := ⟨str "Dinner", by decide +kernel⟩
  amountMinorUnits := ⟨125050, by decide⟩
  payerId := ⟨str "6f1c2d3e-0000-4000-8000-000000000002", by decide +kernel⟩
  splitType := .equal
  participants := ⟨[⟨⟨str "6f1c2d3e-0000-4000-8000-000000000001", by decide +kernel⟩, none⟩,
    ⟨⟨str "6f1c2d3e-0000-4000-8000-000000000002", by decide +kernel⟩, none⟩], by decide⟩
  expenseDate := none

/-- The dinner goes through. -/
theorem save_entered_dinner : ∃ request, dinnerSheet.save = .ok request ∧
    (Zod.plain Api.plainFormats).parse (createExpenseBodySchema Api.plainFormats)
      (received wholeRounding (Json.stringify request.toJson)) = .ok (some dinnerBody.toVal) := by
  refine (@save_entered (Zod.plain Api.plainFormats) (Zod.plain_documented _) wholeRounding
    dinnerSheet dinnerBody).mpr ⟨by decide +kernel, ?_, by decide +kernel, rfl, ?_, rfl⟩
  · exact ⟨⟨125050, "PKR"⟩, by decide +kernel, rfl⟩
  · exact .cons ⟨by decide +kernel, rfl⟩ (.cons ⟨by decide +kernel, rfl⟩ .nil)

end SplitBill.Frontend
