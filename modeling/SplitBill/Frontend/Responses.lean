import SplitBill.ExactAmounts
import SplitBill.Frontend.GroupLists
import SplitBill.Js.Numeral

/-!
# Expenses, settlements and balances in the client

What the controllers of the backend answer, as the text of a response, and what the client makes of
that text: `src/frontend/lib/core/network/api_envelope.dart`, `fromJson` of the models
`expense.dart`, `settlement.dart` and `balance.dart`, and the decoding in
`expenses_remote_data_source.dart` and `settlements_remote_data_source.dart`. The client has the
rows that are stored, if the amounts are in the range of safe integers and the rows are not too many
to be counted.
-/

namespace SplitBill

open Js
open Interleave

/-- How the backend writes identifiers, instants and whole numbers, and how the client parses an
instant. A whole number is written with its digits as long as it is safe. -/
structure Wire where
  idText : Id → Str
  toISOString : Time → Str
  numberText : ℤ → Str
  parseDateTime : Str → Option Time
  numberText_eq : ∀ z, InRange z → numberText z = intText z
  parseDateTime_toISOString : ∀ t, parseDateTime (toISOString t) = some t

/-! ## The backend's side -/

namespace Wire

variable (wire : Wire)

/-- An identifier as a value. -/
def idValue (id : Id) : Value := .string (wire.idText id)

/-- A `number` as a value. -/
def numberValue (z : ℤ) : Value := .number (wire.numberText z)

/-- A `Date` as a value. -/
def dateValue (t : Time) : Value := .string (wire.toISOString t)

/-- A text as a value. -/
def textValue (s : String) : Value := .string (str s)

/-- The name of a split type. -/
def splitTypeText : SplitType → String
  | .equal => "EQUAL"
  | .exact => "EXACT"

/-- A user as a value. -/
def userValue (u : SafeUser) : Value :=
  .object [(str "id", wire.idValue u.id), (str "name", textValue u.name),
    (str "email", textValue u.email)]

/-- A split as a value. -/
def splitValue (s : SplitDto) : Value :=
  .object [(str "id", wire.idValue s.id), (str "userId", wire.idValue s.userId),
    (str "amountMinorUnits", wire.numberValue s.amountMinorUnits),
    (str "user", wire.userValue s.user)]

/-- An `ExpenseDetailDto` as a value. -/
def expenseDetailValue (e : ExpenseDetailDto) : Value :=
  .object [(str "id", wire.idValue e.id), (str "groupId", wire.idValue e.groupId),
    (str "paidById", wire.idValue e.paidById), (str "description", textValue e.description),
    (str "amountMinorUnits", wire.numberValue e.amountMinorUnits),
    (str "currencyCode", textValue e.currencyCode),
    (str "splitType", textValue (splitTypeText e.splitType)),
    (str "expenseDate", wire.dateValue e.expenseDate), (str "payer", wire.userValue e.payer),
    (str "splits", .array (e.splits.map wire.splitValue)),
    (str "createdAt", wire.dateValue e.createdAt), (str "updatedAt", wire.dateValue e.updatedAt)]

/-- An `ExpenseSummaryDto` as a value. -/
def expenseSummaryValue (e : ExpenseSummaryDto) : Value :=
  .object [(str "id", wire.idValue e.id), (str "groupId", wire.idValue e.groupId),
    (str "paidById", wire.idValue e.paidById), (str "description", textValue e.description),
    (str "amountMinorUnits", wire.numberValue e.amountMinorUnits),
    (str "currencyCode", textValue e.currencyCode),
    (str "splitType", textValue (splitTypeText e.splitType)),
    (str "expenseDate", wire.dateValue e.expenseDate), (str "payer", wire.userValue e.payer),
    (str "splitCount", wire.numberValue e.splitCount),
    (str "createdAt", wire.dateValue e.createdAt), (str "updatedAt", wire.dateValue e.updatedAt)]

/-- A `SettlementDto` as a value. -/
def settlementValue (s : SettlementDto) : Value :=
  .object [(str "id", wire.idValue s.id), (str "groupId", wire.idValue s.groupId),
    (str "payerId", wire.idValue s.payerId), (str "payeeId", wire.idValue s.payeeId),
    (str "amountMinorUnits", wire.numberValue s.amountMinorUnits),
    (str "currencyCode", textValue s.currencyCode),
    (str "settledAt", wire.dateValue s.settledAt), (str "createdAt", wire.dateValue s.createdAt),
    (str "updatedAt", wire.dateValue s.updatedAt), (str "payer", wire.userValue s.payer),
    (str "payee", wire.userValue s.payee)]

/-- A `BalanceDto` as a value. -/
def balanceValue (b : BalanceDto) : Value :=
  .object [(str "userId", wire.idValue b.userId), (str "name", textValue b.name),
    (str "email", textValue b.email),
    (str "amountMinorUnits", wire.numberValue b.amountMinorUnits)]

/-- A `Pagination` as a value. -/
def paginationValue (p : Pagination) : Value :=
  .object [(str "page", wire.numberValue p.page), (str "limit", wire.numberValue p.limit),
    (str "total", wire.numberValue p.total)]

/-- The payload of a response with this datum. -/
def payload (key : String) (datum : Value) (pagination : Option Pagination) : Value :=
  .object ([(str "success", .bool true), (str "data", .object [(str key, datum)])] ++
    (pagination.map fun p => (str "pagination", wire.paginationValue p)).toList)

/-- `res.json` of the payload. -/
def json (key : String) (datum : Value) (pagination : Option Pagination) : Str :=
  Json.stringify (wire.payload key datum pagination)

end Wire

namespace ExpenseController

/-- The response of `getExpenseById`, `createExpense` and `updateExpense`. -/
def expenseResponse (wire : Wire) (expense : ExpenseDetailDto) : Str :=
  wire.json "expense" (wire.expenseDetailValue expense) none

/-- The response of `getGroupExpenses`. -/
def expensesResponse (wire : Wire) (result : ExpenseListPage) : Str :=
  wire.json "expenses" (.array (result.expenses.map wire.expenseSummaryValue)) result.pagination

end ExpenseController

namespace SettlementController

/-- The response of `getGroupBalances`. -/
def balancesResponse (wire : Wire) (balances : List BalanceDto) : Str :=
  wire.json "balances" (.array (balances.map wire.balanceValue)) none

/-- The response of `getSettlementById` and `createSettlement`. -/
def settlementResponse (wire : Wire) (settlement : SettlementDto) : Str :=
  wire.json "settlement" (wire.settlementValue settlement) none

/-- The response of `getGroupSettlements`. -/
def settlementsResponse (wire : Wire) (result : SettlementListPage) : Str :=
  wire.json "settlements" (.array (result.settlements.map wire.settlementValue)) result.pagination

end SettlementController

namespace Client

/-! ## Casts of the client -/

/-- What a reader throws. -/
inductive Thrown
  | typeError
  | formatException
  | apiEnvelopeException (message : Str)
  deriving DecidableEq

/-- What a reader makes of a value. A key that is not there is `null`. -/
abbrev Decoded (α : Type) : Type := Except Thrown α

/-- `as String`. -/
def asString : Option Value → Decoded Str
  | some (.string s) => .ok s
  | _ => .error .typeError

/-- `as String? ?? …`. -/
def asStringOr (default : Str) : Option Value → Decoded Str
  | none | some .null => .ok default
  | v => asString v

/-- A numeral that is decoded to an `int`: it has no fraction and no exponent, is not `-0`, and fits
into 64 bits. -/
def isIntNumeral (text : Str) : Bool :=
  text.all (fun u => u != 46 && u != 101 && u != 69) && text != [45, 48] &&
    decide (-2 ^ 63 ≤ Json.numeralValue text ∧ Json.numeralValue text < 2 ^ 63)

/-- `as int`. -/
def asInt : Option Value → Decoded ℤ
  | some (.number text) =>
    if isIntNumeral text = true then .ok (Json.numeralValue text).num else .error .typeError
  | _ => .error .typeError

/-- `as int? ?? …`. -/
def asIntOr (default : ℤ) : Option Value → Decoded ℤ
  | none | some .null => .ok default
  | v => asInt v

/-- `as Map<String, dynamic>`. -/
def asMap : Option Value → Decoded Value
  | some (.object members) => .ok (.object members)
  | _ => .error .typeError

/-- `as List<dynamic>`. -/
def asList : Option Value → Decoded (List Value)
  | some (.array items) => .ok items
  | _ => .error .typeError

/-- `as List<dynamic>?`. -/
def asListOrNull : Option Value → Decoded (Option (List Value))
  | none | some .null => .ok none
  | v => some <$> asList v

/-- `DateTime.parse(… as String)`. -/
def asDateTime (wire : Wire) (v : Option Value) : Decoded Time := do
  match wire.parseDateTime (← asString v) with
  | some t => .ok t
  | none => .error .formatException

/-! ## The models -/

/-- `ExpenseUser`. -/
structure ExpenseUser where
  id : Str
  name : Str
  email : Str
  deriving DecidableEq

/-- `ExpenseSplit`. -/
structure ExpenseSplit where
  id : Str
  userId : Str
  amountMinorUnits : ℤ
  user : ExpenseUser
  deriving DecidableEq

/-- `Expense`. `ExpenseSummary` has the same fields, and no splits. -/
structure Expense where
  id : Str
  groupId : Str
  paidById : Str
  description : Str
  amountMinorUnits : ℤ
  currencyCode : Str
  splitType : Str
  expenseDate : Time
  payer : ExpenseUser
  splits : List ExpenseSplit := []
  splitCount : ℤ
  createdAt : Time
  updatedAt : Time
  deriving DecidableEq

/-- `Settlement`. -/
structure Settlement where
  id : Str
  groupId : Str
  payerId : Str
  payeeId : Str
  amountMinorUnits : ℤ
  currencyCode : Str
  settledAt : Time
  createdAt : Time
  updatedAt : Time
  payer : ExpenseUser
  payee : ExpenseUser
  deriving DecidableEq

/-- `Balance`. -/
structure Balance where
  userId : Str
  name : Str
  email : Str
  amountMinorUnits : ℤ
  deriving DecidableEq

variable (wire : Wire)

/-- `fromJson` of a user. -/
def ExpenseUser.fromJson (json : Value) : Decoded ExpenseUser := do
  return {
    id := ← asString (json.get? (str "id"))
    name := ← asString (json.get? (str "name"))
    email := ← asString (json.get? (str "email")) }

/-- `fromJson` of a split. -/
def ExpenseSplit.fromJson (json : Value) : Decoded ExpenseSplit := do
  return {
    id := ← asString (json.get? (str "id"))
    userId := ← asString (json.get? (str "userId"))
    amountMinorUnits := ← asInt (json.get? (str "amountMinorUnits"))
    user := ← ExpenseUser.fromJson (← asMap (json.get? (str "user"))) }

/-- `.map((e) => fromJson(e as Map<String, dynamic>)).toList()`. -/
def readItems {α : Type} (fromJson : Value → Decoded α) (list : List Value) : Decoded (List α) :=
  list.mapM fun e => do fromJson (← asMap (some e))

/-- `fromJson` of an expense. -/
def Expense.fromJson (json : Value) : Decoded Expense := do
  let rawSplits ← asListOrNull (json.get? (str "splits"))
  let splitsList ← readItems ExpenseSplit.fromJson (rawSplits.getD [])
  return {
    id := ← asString (json.get? (str "id"))
    groupId := ← asString (json.get? (str "groupId"))
    paidById := ← asString (json.get? (str "paidById"))
    description := ← asString (json.get? (str "description"))
    amountMinorUnits := ← asInt (json.get? (str "amountMinorUnits"))
    currencyCode := ← asStringOr (str "PKR") (json.get? (str "currencyCode"))
    splitType := ← asString (json.get? (str "splitType"))
    expenseDate := ← asDateTime wire (json.get? (str "expenseDate"))
    payer := ← ExpenseUser.fromJson (← asMap (json.get? (str "payer")))
    splits := splitsList
    splitCount := ← asIntOr splitsList.length (json.get? (str "splitCount"))
    createdAt := ← asDateTime wire (json.get? (str "createdAt"))
    updatedAt := ← asDateTime wire (json.get? (str "updatedAt")) }

/-- `fromJson` of an `ExpenseSummary`. -/
def ExpenseSummary.fromJson (json : Value) : Decoded Expense := do
  return {
    id := ← asString (json.get? (str "id"))
    groupId := ← asString (json.get? (str "groupId"))
    paidById := ← asString (json.get? (str "paidById"))
    description := ← asString (json.get? (str "description"))
    amountMinorUnits := ← asInt (json.get? (str "amountMinorUnits"))
    currencyCode := ← asStringOr (str "PKR") (json.get? (str "currencyCode"))
    splitType := ← asString (json.get? (str "splitType"))
    expenseDate := ← asDateTime wire (json.get? (str "expenseDate"))
    payer := ← ExpenseUser.fromJson (← asMap (json.get? (str "payer")))
    splitCount := ← asIntOr 0 (json.get? (str "splitCount"))
    createdAt := ← asDateTime wire (json.get? (str "createdAt"))
    updatedAt := ← asDateTime wire (json.get? (str "updatedAt")) }

/-- `fromJson` of a settlement. -/
def Settlement.fromJson (json : Value) : Decoded Settlement := do
  return {
    id := ← asString (json.get? (str "id"))
    groupId := ← asString (json.get? (str "groupId"))
    payerId := ← asString (json.get? (str "payerId"))
    payeeId := ← asString (json.get? (str "payeeId"))
    amountMinorUnits := ← asInt (json.get? (str "amountMinorUnits"))
    currencyCode := ← asStringOr (str "PKR") (json.get? (str "currencyCode"))
    settledAt := ← asDateTime wire (json.get? (str "settledAt"))
    createdAt := ← asDateTime wire (json.get? (str "createdAt"))
    updatedAt := ← asDateTime wire (json.get? (str "updatedAt"))
    payer := ← ExpenseUser.fromJson (← asMap (json.get? (str "payer")))
    payee := ← ExpenseUser.fromJson (← asMap (json.get? (str "payee"))) }

/-- `fromJson` of a balance. -/
def Balance.fromJson (json : Value) : Decoded Balance := do
  return {
    userId := ← asString (json.get? (str "userId"))
    name := ← asString (json.get? (str "name"))
    email := ← asString (json.get? (str "email"))
    amountMinorUnits := ← asInt (json.get? (str "amountMinorUnits")) }

/-! ## The data sources -/

/-- The client decodes the text of a response. -/
def decode (body : Str) : Decoded Value :=
  match Json.parse body with
  | some decoded => .ok decoded
  | none => .error .formatException

/-- `unwrapApiData`. -/
def unwrapApiData : Value → Decoded Value
  | .object members =>
    match (Value.object members).get? (str "success") with
    | some (.bool true) =>
      match (Value.object members).get? (str "data") with
      | some data => .ok data
      | none => .error (.apiEnvelopeException (str "Response is missing the data payload."))
    | _ => .error (.apiEnvelopeException (str "Response marked as unsuccessful."))
  | _ => .error (.apiEnvelopeException (str "Expected a JSON object response."))

/-- `unwrapPagination`. -/
def unwrapPagination (decoded : Value) : Option Value :=
  match decoded.get? (str "pagination") with
  | some (.object members) => some (.object members)
  | _ => none

/-- `unwrapApiData(decoded) as Map<String, dynamic>`. -/
def dataOf (decoded : Value) : Decoded Value := do asMap (some (← unwrapApiData decoded))

/-- What `getExpense` and `createExpense` make of a response. -/
def getExpense (body : Str) : Decoded Expense := do
  let data ← dataOf (← decode body)
  Expense.fromJson wire (← asMap (data.get? (str "expense")))

/-- What `getSettlement` and `createSettlement` make of a response. -/
def getSettlement (body : Str) : Decoded Settlement := do
  let data ← dataOf (← decode body)
  Settlement.fromJson wire (← asMap (data.get? (str "settlement")))

/-- What `getGroupBalances` makes of a response. -/
def getGroupBalances (body : Str) : Decoded (List Balance) := do
  let data ← dataOf (← decode body)
  readItems Balance.fromJson (← asList (data.get? (str "balances")))

/-- What a turn of a loop makes of a response: the items under the key, and the total where it is
told. A total that is no `int` is not told. -/
def readPage {α : Type} (key : String) (fromJson : Value → Decoded α) (body : Str) :
    Decoded (ListResponse α) := do
  let decoded ← decode body
  let data ← dataOf decoded
  let rows ← readItems fromJson (← asList (data.get? (str key)))
  return ⟨rows, (unwrapPagination decoded).map fun p => (asInt (p.get? (str "total"))).toOption⟩

/-- A turn of the loop of `getGroupExpenses`. -/
def readExpenses : Str → Decoded (ListResponse Expense) :=
  readPage "expenses" (ExpenseSummary.fromJson wire)

/-- A turn of the loop of `getGroupSettlements`. -/
def readSettlements : Str → Decoded (ListResponse Settlement) :=
  readPage "settlements" (Settlement.fromJson wire)

end Client

/-! ## What is shown -/

namespace Wire

variable (wire : Wire)

/-- A user in the client. -/
def user (u : SafeUser) : Client.ExpenseUser := ⟨wire.idText u.id, str u.name, str u.email⟩

/-- A split in the client. -/
def split (s : SplitWithUser) : Client.ExpenseSplit :=
  ⟨wire.idText s.id, wire.idText s.userId, s.amountMinorUnits, wire.user s.user⟩

/-- An expense with its splits in the client. -/
def expense (e : ExpenseWithDetails) : Client.Expense where
  id := wire.idText e.id
  groupId := wire.idText e.groupId
  paidById := wire.idText e.paidById
  description := str e.description
  amountMinorUnits := e.amountMinorUnits
  currencyCode := str e.currencyCode
  splitType := str (splitTypeText e.splitType)
  expenseDate := e.expenseDate
  payer := wire.user e.payer
  splits := e.splits.map wire.split
  splitCount := e.splits.length
  createdAt := e.createdAt
  updatedAt := e.updatedAt

/-- An expense of a list in the client. -/
def expenseSummary (e : ExpenseWithSummary) : Client.Expense where
  id := wire.idText e.id
  groupId := wire.idText e.groupId
  paidById := wire.idText e.paidById
  description := str e.description
  amountMinorUnits := e.amountMinorUnits
  currencyCode := str e.currencyCode
  splitType := str (splitTypeText e.splitType)
  expenseDate := e.expenseDate
  payer := wire.user e.payer
  splitCount := e.splitCount
  createdAt := e.createdAt
  updatedAt := e.updatedAt

/-- A settlement in the client. -/
def settlement (s : SettlementRecord) : Client.Settlement where
  id := wire.idText s.id
  groupId := wire.idText s.groupId
  payerId := wire.idText s.payerId
  payeeId := wire.idText s.payeeId
  amountMinorUnits := s.amountMinorUnits
  currencyCode := str s.currencyCode
  settledAt := s.settledAt
  createdAt := s.createdAt
  updatedAt := s.updatedAt
  payer := wire.user s.payer
  payee := wire.user s.payee

/-- A balance in the client. -/
def balance (b : BalanceDto) : Client.Balance :=
  ⟨wire.idText b.userId, str b.name, str b.email, b.amountMinorUnits⟩

end Wire

namespace Client

variable {wire : Wire}

/-- The digits of a whole number that fits are an `int`. -/
theorem isIntNumeral_intText {z : ℤ} (hz : InRange z) : isIntNumeral (intText z) = true := by
  have hplain : (intText z).all (fun u => u != 46 && u != 101 && u != 69) = true := by
    rw [List.all_eq_true]
    intro u hu
    rcases mem_intText hu with hdigit | rfl
    · have hne : ∀ c, Json.isDigit c = false → (u != c) = true := fun c hc =>
        bne_iff_ne.mpr (Json.ne_of_isDigit hdigit hc)
      rw [hne 46 rfl, hne 101 rfl, hne 69 rfl]
      rfl
    · rfl
  have hzero : intText z ≠ [45, 48] := by
    intro h
    have hvalue : Json.numeralValue [45, 48] = 0 := by decide +kernel
    have hz0 : (z : ℚ) = 0 := by rw [← Json.numeralValue_intText, h, hvalue]
    rw [Int.cast_eq_zero.mp hz0] at h
    have hne : intText 0 ≠ [45, 48] := by decide +kernel
    exact hne h
  have hfits : -2 ^ 63 ≤ Json.numeralValue (intText z) ∧
      Json.numeralValue (intText z) < 2 ^ 63 := by
    rw [Json.numeralValue_intText]
    have habs := abs_le.mp hz
    unfold maxSafeInteger at habs
    constructor
    -- Safe integers are far inside the 64 bits.
    · have hlow : (-2 ^ 63 : ℤ) ≤ z := by omega
      exact_mod_cast hlow
    · have hhigh : z < (2 ^ 63 : ℤ) := by omega
      exact_mod_cast hhigh
  unfold isIntNumeral
  rw [hplain, bne_iff_ne.mpr hzero, decide_eq_true hfits]
  rfl

/-- A number that is in range arrives as it is. -/
theorem asInt_number {z : ℤ} (hz : InRange z) : asInt (some (wire.numberValue z)) = .ok z := by
  show (if isIntNumeral (wire.numberText z) = true then _ else _) = _
  rw [wire.numberText_eq z hz, if_pos (isIntNumeral_intText hz), Json.numeralValue_intText,
    Rat.num_intCast]

/-- `Number` of an amount that is in range arrives as the amount. -/
theorem asInt_amount {z : ℤ} (hz : InRange z) :
    asInt (some (wire.numberValue (Js.number z))) = .ok z := by
  rw [hz.number_eq]
  exact asInt_number hz

/-- A date is read back. -/
theorem asDateTime_date (t : Time) : asDateTime wire (some (wire.dateValue t)) = .ok t := by
  have htext : asString (some (wire.dateValue t)) = .ok (wire.toISOString t) := rfl
  unfold asDateTime
  simp only [htext, bind, Except.bind, wire.parseDateTime_toISOString]

/-- The items of a list are read one by one. -/
theorem readItems_map {α β : Type} {fromJson : Value → Decoded β} {members : α → List (Str × Value)}
    {shown : α → β} {l : List α} (h : ∀ a ∈ l, fromJson (.object (members a)) = .ok (shown a)) :
    readItems fromJson (l.map fun a => .object (members a)) = .ok (l.map shown) := by
  unfold readItems
  induction l with
  | nil => rfl
  | cons a l ih =>
    have hfirst := h a List.mem_cons_self
    have hrest := ih fun b hb => h b (List.mem_cons_of_mem a hb)
    rw [List.map_cons, List.mapM_cons, hrest]
    show (fromJson (.object (members a)) >>= _) = _
    rw [hfirst]
    rfl

/-- A split is read back. -/
theorem fromJson_split {s : SplitWithUser} (hs : InRange s.amountMinorUnits) :
    ExpenseSplit.fromJson (wire.splitValue
      ⟨s.id, s.userId, Js.number s.amountMinorUnits, s.user⟩) = .ok (wire.split s) := by
  have hamount : asInt ((wire.splitValue
      ⟨s.id, s.userId, Js.number s.amountMinorUnits, s.user⟩).get? (str "amountMinorUnits")) =
        .ok s.amountMinorUnits := asInt_amount hs
  unfold ExpenseSplit.fromJson
  rw [hamount]
  rfl

/-- An expense is read back. -/
theorem fromJson_expense {e : ExpenseWithDetails} (he : InRange e.amountMinorUnits)
    (hsplits : ∀ s ∈ e.splits, InRange s.amountMinorUnits) :
    Expense.fromJson wire (wire.expenseDetailValue (ExpenseService.toDetailDto e)) =
      .ok (wire.expense e) := by
  have hlist : readItems ExpenseSplit.fromJson
      ((ExpenseService.toDetailDto e).splits.map wire.splitValue) =
        .ok (e.splits.map wire.split) := by
    unfold ExpenseService.toDetailDto
    rw [List.map_map]
    exact readItems_map fun s hs => fromJson_split (hsplits s hs)
  have hamount : asInt ((wire.expenseDetailValue (ExpenseService.toDetailDto e)).get?
      (str "amountMinorUnits")) = .ok e.amountMinorUnits := asInt_amount he
  -- `splits` is there, so that the number of splits comes from the list: `splitCount` is not.
  have hraw : asListOrNull ((wire.expenseDetailValue (ExpenseService.toDetailDto e)).get?
      (str "splits")) =
        .ok (some ((ExpenseService.toDetailDto e).splits.map wire.splitValue)) := rfl
  have hdate : asDateTime wire ((wire.expenseDetailValue (ExpenseService.toDetailDto e)).get?
      (str "expenseDate")) = .ok e.expenseDate := asDateTime_date _
  have hcreated : asDateTime wire ((wire.expenseDetailValue (ExpenseService.toDetailDto e)).get?
      (str "createdAt")) = .ok e.createdAt := asDateTime_date _
  have hupdated : asDateTime wire ((wire.expenseDetailValue (ExpenseService.toDetailDto e)).get?
      (str "updatedAt")) = .ok e.updatedAt := asDateTime_date _
  have hcount : (e.splits.length : ℤ) = (e.splits.map wire.split).length := by
    rw [List.length_map]
  unfold Expense.fromJson Wire.expense
  rw [hraw, hamount, hdate, hcreated, hupdated, hcount]
  simp only [bind, Except.bind, Option.getD_some, hlist]
  rfl

/-- An expense of a list is read back. -/
theorem fromJson_expenseSummary {e : ExpenseWithSummary} (he : InRange e.amountMinorUnits)
    (hcount : InRange e.splitCount) :
    ExpenseSummary.fromJson wire (wire.expenseSummaryValue (ExpenseService.toSummaryDto e)) =
      .ok (wire.expenseSummary e) := by
  have hamount : asInt ((wire.expenseSummaryValue (ExpenseService.toSummaryDto e)).get?
      (str "amountMinorUnits")) = .ok e.amountMinorUnits := asInt_amount he
  have hsplits : asIntOr 0 ((wire.expenseSummaryValue (ExpenseService.toSummaryDto e)).get?
      (str "splitCount")) = .ok (e.splitCount : ℤ) := asInt_number hcount
  have hdate : asDateTime wire ((wire.expenseSummaryValue (ExpenseService.toSummaryDto e)).get?
      (str "expenseDate")) = .ok e.expenseDate := asDateTime_date _
  have hcreated : asDateTime wire ((wire.expenseSummaryValue (ExpenseService.toSummaryDto e)).get?
      (str "createdAt")) = .ok e.createdAt := asDateTime_date _
  have hupdated : asDateTime wire ((wire.expenseSummaryValue (ExpenseService.toSummaryDto e)).get?
      (str "updatedAt")) = .ok e.updatedAt := asDateTime_date _
  unfold ExpenseSummary.fromJson
  rw [hamount, hsplits, hdate, hcreated, hupdated]
  rfl

/-- A settlement is read back. -/
theorem fromJson_settlement {s : SettlementRecord} (hs : InRange s.amountMinorUnits) :
    Settlement.fromJson wire (wire.settlementValue (SettlementService.toDto s)) =
      .ok (wire.settlement s) := by
  have hamount : asInt ((wire.settlementValue (SettlementService.toDto s)).get?
      (str "amountMinorUnits")) = .ok s.amountMinorUnits := asInt_amount hs
  have hsettled : asDateTime wire ((wire.settlementValue (SettlementService.toDto s)).get?
      (str "settledAt")) = .ok s.settledAt := asDateTime_date _
  have hcreated : asDateTime wire ((wire.settlementValue (SettlementService.toDto s)).get?
      (str "createdAt")) = .ok s.createdAt := asDateTime_date _
  have hupdated : asDateTime wire ((wire.settlementValue (SettlementService.toDto s)).get?
      (str "updatedAt")) = .ok s.updatedAt := asDateTime_date _
  unfold Settlement.fromJson
  rw [hamount, hsettled, hcreated, hupdated]
  rfl

/-- A balance is read back. -/
theorem fromJson_balance {b : BalanceDto} (hb : InRange b.amountMinorUnits) :
    Balance.fromJson (wire.balanceValue b) = .ok (wire.balance b) := by
  have hamount : asInt ((wire.balanceValue b).get? (str "amountMinorUnits")) =
    .ok b.amountMinorUnits := asInt_number hb
  unfold Balance.fromJson
  rw [hamount]
  rfl

end Client

/-! ## The text in between -/

namespace Wire

open Json (Settles settles_int reads_string reads_bool reads_array_of_settles
  reads_object_of_settles)

variable {wire : Wire}

/-- A text keeps its value on the way. -/
theorem settles_text (s : Str) : Settles (.string s) := (reads_string s).settles

/-- A number in range keeps its value on the way. -/
theorem settles_number {z : ℤ} (hz : InRange z) : Settles (wire.numberValue z) := by
  unfold numberValue
  rw [wire.numberText_eq z hz]
  exact settles_int z

/-- An object is read if its members are. -/
theorem settles_object {members : List (Str × Value)} (h : ∀ e ∈ members, Settles e.2) :
    Settles (.object members) := (reads_object_of_settles h).settles

/-- A list of such values keeps them. -/
theorem settles_list {α : Type} {value : α → Value} {l : List α} (h : ∀ a ∈ l, Settles (value a)) :
    Settles (.array (l.map value)) := by
  refine (reads_array_of_settles fun v hv => ?_).settles
  obtain ⟨a, ha, rfl⟩ := List.mem_map.mp hv
  exact h a ha

/-- A user keeps the values. -/
theorem settles_user (u : SafeUser) : Settles (wire.userValue u) := by
  apply settles_object
  simp [idValue, textValue, settles_text]

/-- A split keeps its values. -/
theorem settles_split {s : SplitDto} (hs : InRange s.amountMinorUnits) :
    Settles (wire.splitValue s) := by
  apply settles_object
  simp [idValue, settles_text, settles_number hs, settles_user]

/-- An expense keeps its values. -/
theorem settles_expenseDetail {e : ExpenseDetailDto} (he : InRange e.amountMinorUnits)
    (hsplits : ∀ s ∈ e.splits, InRange s.amountMinorUnits) :
    Settles (wire.expenseDetailValue e) := by
  have hlist : Settles (.array (e.splits.map wire.splitValue)) :=
    settles_list fun s hs => settles_split (hsplits s hs)
  apply settles_object
  simp [idValue, textValue, dateValue, settles_text, settles_number he, settles_user, hlist]

/-- An expense of a list keeps its values. -/
theorem settles_expenseSummary {e : ExpenseSummaryDto} (he : InRange e.amountMinorUnits)
    (hcount : InRange e.splitCount) : Settles (wire.expenseSummaryValue e) := by
  apply settles_object
  simp [idValue, textValue, dateValue, settles_text, settles_number he, settles_number hcount,
    settles_user]

/-- A settlement keeps its values. -/
theorem settles_settlement {s : SettlementDto} (hs : InRange s.amountMinorUnits) :
    Settles (wire.settlementValue s) := by
  apply settles_object
  simp [idValue, textValue, dateValue, settles_text, settles_number hs, settles_user]

/-- A balance keeps its values. -/
theorem settles_balance {b : BalanceDto} (hb : InRange b.amountMinorUnits) :
    Settles (wire.balanceValue b) := by
  apply settles_object
  simp [idValue, textValue, settles_text, settles_number hb]

/-- The figures of a pagination are in range. -/
structure Counts (p : Pagination) : Prop where
  page : InRange p.page
  limit : InRange p.limit
  total : InRange p.total

/-- The pagination keeps its values. -/
theorem settles_pagination {p : Pagination} (hp : Counts p) : Settles (wire.paginationValue p) := by
  apply settles_object
  simp [settles_number hp.page, settles_number hp.limit, settles_number hp.total]

/-- The client decodes what was sent. -/
theorem decode_json {key : String} {datum : Value} {pagination : Option Pagination}
    (hdatum : Settles datum) (hpagination : ∀ p ∈ pagination, Counts p) :
    Client.decode (wire.json key datum pagination) =
      .ok (wire.payload key datum pagination) := by
  -- The body is an object of settled members, whether or not it has a pagination.
  have hdata : Settles (.object [(str key, datum)]) := by
    apply settles_object
    simp [hdatum]
  have hreads : ∀ e ∈ [(str "success", Value.bool true),
      (str "data", .object [(str key, datum)])] ++
        (pagination.map fun p => (str "pagination", wire.paginationValue p)).toList,
      Settles e.2 := by
    intro e he
    rcases List.mem_append.mp he with he | he
    · simp only [List.mem_cons, List.not_mem_nil, or_false] at he
      rcases he with rfl | rfl
      · exact (reads_bool true).settles
      · exact hdata
    · rw [Option.mem_toList, Option.map_eq_some_iff] at he
      obtain ⟨p, hp, rfl⟩ := he
      exact settles_pagination (hpagination p hp)
  have hpayload : Json.Reads (wire.payload key datum pagination) := reads_object_of_settles hreads
  unfold Client.decode json
  rw [Json.parse_stringify hpayload]

end Wire

namespace Client

open Wire (Counts)

variable {wire : Wire}

/-- The data of an answer. -/
theorem dataOf_payload (key : String) (datum : Value) (pagination : Option Pagination) :
    dataOf (wire.payload key datum pagination) = .ok (.object [(str key, datum)]) := by
  cases pagination <;> rfl

/-- The one field of an object. -/
theorem get?_single (key : String) (datum : Value) :
    (Value.object [(str key, datum)]).get? (str key) = some datum := by
  simp [Value.get?]

/-- The pagination of an answer. -/
theorem unwrapPagination_payload (key : String) (datum : Value) (pagination : Option Pagination) :
    unwrapPagination (wire.payload key datum pagination) =
      pagination.map wire.paginationValue := by
  cases pagination <;> rfl

/-- `Number` stays in range. -/
theorem inRange_number {z : ℤ} (hz : InRange z) : InRange (Js.number z) := by
  rwa [hz.number_eq]

/-- The client has an expense with its splits as it is stored. -/
theorem getExpense_response {e : ExpenseWithDetails} (he : InRange e.amountMinorUnits)
    (hsplits : ∀ s ∈ e.splits, InRange s.amountMinorUnits) :
    getExpense wire (ExpenseController.expenseResponse wire (ExpenseService.toDetailDto e)) =
      .ok (wire.expense e) := by
  have hnumbers : ∀ s ∈ (ExpenseService.toDetailDto e).splits, InRange s.amountMinorUnits := by
    intro s hs
    obtain ⟨split, hsplit, rfl⟩ := List.mem_map.mp hs
    exact inRange_number (hsplits split hsplit)
  have hdatum : Json.Settles (wire.expenseDetailValue (ExpenseService.toDetailDto e)) :=
    Wire.settles_expenseDetail (inRange_number he) hnumbers
  unfold getExpense ExpenseController.expenseResponse
  rw [Wire.decode_json hdatum fun p hp => absurd hp (Option.not_mem_none p)]
  simp only [bind, Except.bind, dataOf_payload, get?_single]
  exact fromJson_expense he hsplits

/-- A settlement likewise. -/
theorem getSettlement_response {s : SettlementRecord} (hs : InRange s.amountMinorUnits) :
    getSettlement wire (SettlementController.settlementResponse wire (SettlementService.toDto s)) =
      .ok (wire.settlement s) := by
  have hdatum : Json.Settles (wire.settlementValue (SettlementService.toDto s)) :=
    Wire.settles_settlement (inRange_number hs)
  unfold getSettlement SettlementController.settlementResponse
  rw [Wire.decode_json hdatum fun p hp => absurd hp (Option.not_mem_none p)]
  simp only [bind, Except.bind, dataOf_payload, get?_single]
  exact fromJson_settlement hs

/-- The balances of a group. -/
theorem getGroupBalances_response {balances : List BalanceDto}
    (hbalances : ∀ b ∈ balances, InRange b.amountMinorUnits) :
    getGroupBalances (SettlementController.balancesResponse wire balances) =
      .ok (balances.map wire.balance) := by
  have hdatum : Json.Settles (.array (balances.map wire.balanceValue)) :=
    Wire.settles_list fun b hb => Wire.settles_balance (hbalances b hb)
  unfold getGroupBalances SettlementController.balancesResponse
  rw [Wire.decode_json hdatum fun p hp => absurd hp (Option.not_mem_none p)]
  simp only [bind, Except.bind, dataOf_payload, get?_single]
  exact readItems_map fun b hb => fromJson_balance (hbalances b hb)

/-- A page of a list, with its total. -/
theorem readPage_json {α β : Type} {key : String} {fromJson : Value → Decoded β}
    {members : α → List (Str × Value)} {shown : α → β} {rows : List α}
    {pagination : Option Pagination}
    (hread : ∀ a ∈ rows, fromJson (.object (members a)) = .ok (shown a))
    (hsettles : ∀ a ∈ rows, Json.Settles (.object (members a)))
    (hpagination : ∀ p ∈ pagination, Counts p) :
    readPage key fromJson
        (wire.json key (.array (rows.map fun a => .object (members a))) pagination) =
      .ok ⟨rows.map shown, pagination.map fun p => some (p.total : ℤ)⟩ := by
  -- The total is the only number of the pagination that the page reads.
  have htotal : ((pagination.map wire.paginationValue).map fun p =>
      (asInt (p.get? (str "total"))).toOption) = pagination.map fun p => some (p.total : ℤ) := by
    rw [Option.map_map]
    refine Option.map_congr fun p hp => ?_
    have hint : asInt ((wire.paginationValue p).get? (str "total")) = .ok (p.total : ℤ) :=
      asInt_number (hpagination p hp).total
    show (asInt ((wire.paginationValue p).get? (str "total"))).toOption = _
    rw [hint]
    rfl
  have hlist : readItems fromJson (rows.map fun a => .object (members a)) =
      .ok (rows.map shown) := readItems_map hread
  unfold readPage
  rw [Wire.decode_json (Wire.settles_list hsettles) hpagination]
  simp only [bind, Except.bind, dataOf_payload, get?_single, asList, hlist,
    unwrapPagination_payload, htotal]
  rfl

/-- A page of the expenses of a group. -/
theorem readExpenses_response {rows : List ExpenseWithSummary} {pagination : Option Pagination}
    (hrows : ∀ e ∈ rows, InRange e.amountMinorUnits ∧ InRange e.splitCount)
    (hpagination : ∀ p ∈ pagination, Counts p) :
    readExpenses wire (ExpenseController.expensesResponse wire
        ⟨rows.map ExpenseService.toSummaryDto, pagination⟩) =
      .ok ⟨rows.map wire.expenseSummary, pagination.map fun p => some (p.total : ℤ)⟩ := by
  unfold readExpenses ExpenseController.expensesResponse
  rw [List.map_map]
  exact readPage_json (fun e he => fromJson_expenseSummary (hrows e he).1 (hrows e he).2)
    (fun e he => Wire.settles_expenseSummary (inRange_number (hrows e he).1) (hrows e he).2)
    hpagination

/-- A page of the settlements of a group. -/
theorem readSettlements_response {rows : List SettlementRecord} {pagination : Option Pagination}
    (hrows : ∀ s ∈ rows, InRange s.amountMinorUnits)
    (hpagination : ∀ p ∈ pagination, Counts p) :
    readSettlements wire (SettlementController.settlementsResponse wire
        ⟨rows.map SettlementService.toDto, pagination⟩) =
      .ok ⟨rows.map wire.settlement, pagination.map fun p => some (p.total : ℤ)⟩ := by
  unfold readSettlements SettlementController.settlementsResponse
  rw [List.map_map]
  exact readPage_json (fun s hs => fromJson_settlement (hrows s hs))
    (fun s hs => Wire.settles_settlement (inRange_number (hrows s hs))) hpagination

/-! ## The calls -/

/-- A call that runs alone from `w`, with every operation answered, is granted, and what the client
reads in its response is as `want` says. -/
def Shown {α β : Type} (lib : Lib) (w : World) (call : Act α) (read : α → Decoded β)
    (want : β → Prop) : Prop :=
  (∃ r w', Exec (machine lib).answered Eq call w r w') ∧
  ∀ r w', Exec (machine lib).answered Eq call w r w' →
    ∃ a b, r = .ok a ∧ read a = .ok b ∧ want b

/-- There is such a run, so that it is enough to follow the program. -/
theorem Shown.of_wp {α β : Type} {lib : Lib} {w : World} {call : Act α} {read : α → Decoded β}
    {want : β → Prop} (h : wp ((machine lib).answered.alone Eq)
      (fun r _ => ∃ a b, r = .ok a ∧ read a = .ok b ∧ want b) call w) :
    Shown lib w call read want :=
  ⟨⟨_, _, (machine lib).exec_answered {} call w⟩, fun _ _ hexec => hexec.sound h⟩

/-- What the client shows in this state is what is stored: of an expense with its splits, of a page
of expenses with their number, of a settlement, of a page of settlements with their number, and of
the balances of a group, whichever of its members asks for it. -/
structure ShownExactly (wire : Wire) (lib : Lib) (w : World) : Prop where
  expense : ∀ id e, w.db.expense? id = some e → ∀ requesterId ∈ w.db.memberIds e.groupId,
    Shown lib w (ExpenseService.getExpenseById requesterId id)
      (fun dto => getExpense wire (ExpenseController.expenseResponse wire dto))
      fun shown => ∃ c, shown = wire.expense (e.details c w.db byCreatedAt)
  expenses : ∀ groupId, (w.db.group? groupId).isSome → ∀ requesterId ∈ w.db.memberIds groupId,
    ∀ page : ℕ+, InRange (page : ℕ) →
      Shown lib w
        (ExpenseController.getGroupExpenses requesterId groupId (Frontend.pageQuery page))
        (fun result => readExpenses wire (ExpenseController.expensesResponse wire result))
        fun shown => ∃ c, shown =
          ⟨(expenseFindMany c w.db groupId (some (page, pageSize))).map wire.expenseSummary,
            some (some (w.db.expensesOf groupId).length)⟩
  settlement : ∀ id s, w.db.settlement? id = some s → ∀ requesterId ∈ w.db.memberIds s.groupId,
    Shown lib w (SettlementService.getSettlementById requesterId id)
      (fun dto => getSettlement wire (SettlementController.settlementResponse wire dto))
      fun shown => shown = wire.settlement (s.record w.db)
  settlements : ∀ groupId, (w.db.group? groupId).isSome →
    ∀ requesterId ∈ w.db.memberIds groupId, ∀ page : ℕ+, InRange (page : ℕ) →
      Shown lib w
        (SettlementController.getGroupSettlements requesterId groupId (Frontend.pageQuery page))
        (fun result => readSettlements wire (SettlementController.settlementsResponse wire result))
        fun shown => ∃ c, shown =
          ⟨(settlementFindMany c w.db groupId (some (page, pageSize))).map wire.settlement,
            some (some (w.db.settlementsOf groupId).length)⟩
  balances : ∀ groupId, (w.db.group? groupId).isSome → ∀ requesterId ∈ w.db.memberIds groupId,
    Shown lib w (SettlementService.getGroupBalances requesterId groupId)
      (fun dtos => getGroupBalances (SettlementController.balancesResponse wire dtos))
      fun shown => ∃ members : List Id, members.Perm (w.db.memberIds groupId) ∧
        shown = members.map fun u => ⟨wire.idText u, str (w.db.safeUser u).name,
          str (w.db.safeUser u).email, position w.db groupId u⟩

/-- So few rows that a double can count them: the splits of an expense and the settlements of a
group. -/
structure Countable (d : Db) : Prop where
  splits : ∀ e ∈ d.expenses, InRange e.splits.length
  settlements : ∀ groupId, InRange (d.settlementsOf groupId).length

section Calls

variable {wire : Wire} {lib : Lib} {w : World}

/-- Every expense is of one minor unit at least, so that there are no more of them than units. -/
theorem inRange_expenses (h : AmountTables w.db) (groupId : Id) :
    InRange (w.db.expensesOf groupId).length := by
  have hone : ∀ a ∈ (w.db.expensesOf groupId).map (·.amountMinorUnits), 1 ≤ a := by
    intro a ha
    obtain ⟨e, he, rfl⟩ := List.mem_map.mp ha
    exact (h.expenses e (List.mem_of_mem_filter he)).2.1
  have hcount := List.card_nsmul_le_sum _ 1 hone
  rw [List.length_map, nsmul_eq_mul, mul_one] at hcount
  have hspent := hcount.trans (h.spent groupId)
  unfold InRange
  rw [abs_of_nonneg (Int.natCast_nonneg _)]
  exact hspent

/-- A row on a page of expenses is an expense of the table. -/
theorem mem_expenseFindMany {c : Choice} {d : Db} {groupId : Id} {page limit : ℕ}
    {row : ExpenseWithSummary} (h : row ∈ expenseFindMany c d groupId (some (page, limit))) :
    ∃ e ∈ d.expenses, row = e.summary d := by
  obtain ⟨e, he, rfl⟩ := List.mem_map.mp h
  have hmem := List.mem_of_mem_drop (List.mem_of_mem_take he)
  exact ⟨e, List.mem_of_mem_filter (Choice.mem_arrange.mp hmem), rfl⟩

/-- A row on a page of settlements is a settlement of the table. -/
theorem mem_settlementFindMany {c : Choice} {d : Db} {groupId : Id} {page limit : ℕ}
    {row : SettlementRecord} (h : row ∈ settlementFindMany c d groupId (some (page, limit))) :
    ∃ s ∈ d.settlements, row = s.record d := by
  obtain ⟨s, hs, rfl⟩ := List.mem_map.mp h
  have hmem := List.mem_of_mem_drop (List.mem_of_mem_take hs)
  exact ⟨s, List.mem_of_mem_filter (Choice.mem_arrange.mp hmem), rfl⟩

/-- The figures of a page that the client asks for. -/
theorem counts_page {page : ℕ+} (hpage : InRange (page : ℕ)) {total : ℕ} (htotal : InRange total) :
    ∀ p ∈ some (⟨page, pageSize, total⟩ : Pagination), Counts p := by
  have hlimit : InRange pageSize := by
    unfold InRange
    decide
  rintro p ⟨⟩
  exact ⟨hpage, hlimit, htotal⟩

/-- A member is shown an expense. -/
theorem shown_expense (h : AmountTables w.db) {id : Id} {e : SplitBill.Expense}
    (he : w.db.expense? id = some e) {requesterId : Id}
    (hmember : requesterId ∈ w.db.memberIds e.groupId) :
    Shown lib w (ExpenseService.getExpenseById requesterId id)
      (fun dto => getExpense wire (ExpenseController.expenseResponse wire dto))
      fun shown => ∃ c, shown = wire.expense (e.details c w.db byCreatedAt) := by
  have hs := (sequential_answered lib).stable w.db
  obtain ⟨hwell, hsafe⟩ := h.expenses e (List.mem_of_find?_eq_some he)
  refine Shown.of_wp ?_
  unfold ExpenseService.getExpenseById
  refine wp_bind.mpr (hs.read (.expense (.findExpenseById _)) rfl rfl (fun c x₁ hx₁ => ?_)
    fun _ _ hno => absurd trivial hno)
  rw [hx₁, he]
  refine wp_expect_bind.mpr ⟨fun details hdetails => ?_, fun hnone => by cases hnone⟩
  obtain rfl := Option.some.inj hdetails
  refine wp_bind.mpr (assertMemberOfGroup_wp hs hx₁ (fun x₂ hx₂ _ => ?_)
    (fun x₂ hx₂ hno => absurd (hx₂ ▸ hmember) hno) fun _ _ hno => absurd trivial hno)
  -- The splits of the answer are those of the row, in some order.
  refine ⟨_, _, rfl, getExpense_response hsafe.inRange fun split hsplit => ?_, c, rfl⟩
  obtain ⟨s, hmem, rfl⟩ := List.mem_map.mp hsplit
  exact hwell.share_inRange hsafe (Choice.mem_arrange.mp hmem)

/-- A member is shown a page of the expenses. -/
theorem shown_expenses (h : AmountTables w.db) (hcount : Countable w.db) {groupId : Id}
    (hgroup : (w.db.group? groupId).isSome = true) {requesterId : Id}
    (hmember : requesterId ∈ w.db.memberIds groupId) {page : ℕ+} (hpage : InRange (page : ℕ)) :
    Shown lib w (ExpenseController.getGroupExpenses requesterId groupId (Frontend.pageQuery page))
      (fun result => readExpenses wire (ExpenseController.expensesResponse wire result))
      fun shown => ∃ c, shown =
        ⟨(expenseFindMany c w.db groupId (some (page, pageSize))).map wire.expenseSummary,
          some (some (w.db.expensesOf groupId).length)⟩ := by
  refine Shown.of_wp (getGroupExpenses_page_wp (sequential_answered lib) hgroup hmember rfl page
    pageSize fun c y _ => ⟨_, _, rfl, readExpenses_response (fun row hrow => ?_)
      (counts_page hpage (inRange_expenses h groupId)), c, rfl⟩)
  obtain ⟨e, he, rfl⟩ := mem_expenseFindMany hrow
  exact ⟨(h.expenses e he).2.inRange, hcount.splits e he⟩

/-- A member is shown a settlement. -/
theorem shown_settlement (h : AmountTables w.db) {id : Id} {s : SplitBill.Settlement}
    (hsettlement : w.db.settlement? id = some s) {requesterId : Id}
    (hmember : requesterId ∈ w.db.memberIds s.groupId) :
    Shown lib w (SettlementService.getSettlementById requesterId id)
      (fun dto => getSettlement wire (SettlementController.settlementResponse wire dto))
      fun shown => shown = wire.settlement (s.record w.db) := by
  have hD := sequential_answered lib
  have hsafe := h.settlements s (List.mem_of_find?_eq_some hsettlement)
  refine Shown.of_wp ?_
  unfold SettlementService.getSettlementById
  refine wp_bind.mpr ((hD.stable w.db).read (.settlement (.findSettlementById _)) rfl rfl
    (fun c x₁ hx₁ => ?_) fun _ _ hno => absurd trivial hno)
  rw [hx₁, hsettlement]
  refine wp_expect_bind.mpr ⟨fun record hrecord => ?_, fun hnone => by cases hnone⟩
  obtain rfl := Option.some.inj hrecord
  unfold SettlementService.assertMemberOfGroup
  refine wp_bind.mpr (wp_bind.mpr ((hD.stable w.db).read (.settlement (.findGroupMembers _)) rfl
    hx₁ (fun c x₂ hx₂ => ?_) fun _ _ hno => absurd trivial hno))
  rw [hx₂]
  refine wp_ensure.mpr ⟨fun _ => ?_, fun hno => absurd (mem_findGroupMembers.mpr hmember) hno⟩
  exact ⟨_, _, rfl, getSettlement_response hsafe.inRange, rfl⟩

/-- A member is shown a page of the settlements. -/
theorem shown_settlements (h : AmountTables w.db) (hcount : Countable w.db) {groupId : Id}
    (hgroup : (w.db.group? groupId).isSome = true) {requesterId : Id}
    (hmember : requesterId ∈ w.db.memberIds groupId) {page : ℕ+} (hpage : InRange (page : ℕ)) :
    Shown lib w
      (SettlementController.getGroupSettlements requesterId groupId (Frontend.pageQuery page))
      (fun result => readSettlements wire (SettlementController.settlementsResponse wire result))
      fun shown => ∃ c, shown =
        ⟨(settlementFindMany c w.db groupId (some (page, pageSize))).map wire.settlement,
          some (some (w.db.settlementsOf groupId).length)⟩ := by
  refine Shown.of_wp (getGroupSettlements_page_wp (sequential_answered lib) hgroup hmember rfl page
    pageSize fun c y _ => ⟨_, _, rfl, readSettlements_response (fun row hrow => ?_)
      (counts_page hpage (hcount.settlements groupId)), c, rfl⟩)
  obtain ⟨s, hs, rfl⟩ := mem_settlementFindMany hrow
  exact (h.settlements s hs).inRange

/-- A member is shown the position of every member. -/
theorem shown_balances (h : AmountTables w.db) {groupId : Id}
    (hgroup : (w.db.group? groupId).isSome = true) {requesterId : Id}
    (hmember : requesterId ∈ w.db.memberIds groupId) :
    Shown lib w (SettlementService.getGroupBalances requesterId groupId)
      (fun dtos => getGroupBalances (SettlementController.balancesResponse wire dtos))
      fun shown => ∃ members : List Id, members.Perm (w.db.memberIds groupId) ∧
        shown = members.map fun u => ⟨wire.idText u, str (w.db.safeUser u).name,
          str (w.db.safeUser u).email, position w.db groupId u⟩ := by
  have hs := (sequential_answered lib).stable w.db
  refine Shown.of_wp ?_
  unfold SettlementService.getGroupBalances
  refine wp_bind.mpr (hs.read (.settlement (.findGroupById _)) rfl rfl (fun _ x₁ hx₁ => ?_)
    fun _ _ hno => absurd trivial hno)
  rw [hx₁]
  refine wp_expect_bind.mpr ⟨fun g _ => ?_, fun hnone => by rw [hnone] at hgroup; cases hgroup⟩
  refine wp_bind.mpr (hs.read (.settlement (.findGroupMembers _)) rfl hx₁ (fun c x₂ hx₂ => ?_)
    fun _ _ hno => absurd trivial hno)
  rw [hx₂]
  refine wp_ensure_bind.mpr
    ⟨fun _ => ?_, fun hno => absurd (mem_findGroupMembers.mpr hmember) hno⟩
  refine wp_bind.mpr (hs.read (.settlement (.findExpensesForBalances _)) rfl hx₂
    (fun c₁ x₃ hx₃ => ?_) fun _ _ hno => absurd trivial hno)
  rw [hx₃]
  refine wp_bind.mpr (hs.read (.settlement (.findSettlementsForBalances _)) rfl hx₃
    (fun c₂ x₄ hx₄ => ?_) fun _ _ hno => absurd trivial hno)
  rw [hx₄]
  -- A balance is a sum that `Number` leaves alone, as the position it stands for is in range.
  have hposition : ∀ u, Js.number (((calculateBalances
      ((c₁.arrange (·.id) unordered (w.db.expensesOf groupId)).map (·.forBalance))
      ((c₂.arrange (·.id) unordered (w.db.settlementsOf groupId)).map
        (·.forBalance))).get? u).getD 0) = position w.db groupId u := fun u => by
    rw [get?_balances, (h.positions groupId u).number_eq]
  refine ⟨_, _, rfl, getGroupBalances_response fun b hb => ?_, (c.arrange (·.id)
    (fun a b => a.createdAt < b.createdAt) (w.db.membersOf groupId)).map (·.userId),
    (c.arrange_perm _ _ _).map _, ?_⟩
  · obtain ⟨member, -, rfl⟩ := List.mem_map.mp hb
    have hrange := h.positions groupId member.userId
    rw [← hposition] at hrange
    exact hrange
  · rw [SettlementService.balanceDtos, List.map_map, List.map_map, List.map_map]
    refine List.map_congr_left fun m _ => ?_
    have hamount := hposition m.userId
    simp only [Function.comp_apply, Wire.balance]
    rw [hamount]

end Calls

/-- Identifiers and instants written as numbers. -/
def plainWire : Wire where
  idText := natText
  toISOString := natText
  numberText := intText
  parseDateTime text := some (Json.digitsValue text)
  numberText_eq _ _ := rfl
  parseDateTime_toISOString t := congrArg some (Json.digitsValue_natText t)

end Client

end SplitBill
