import SplitBill.Js.Json
import SplitBill.Js.Zod

/-!
# What a user is told

A request that the server does not fulfil, from `src/middleware/validate.ts`,
`src/utils/asyncHandler.ts` and `src/middleware/errorHandler.ts`, over the text of the response, to
the failure that the client makes of it in
`src/frontend/lib/core/network/api_exception_mapper.dart`. Whatever goes wrong, the client tells the
issues of a schema, or passes on the words of an `AppError`, or says words of its own. The parser of
the schemas is a parameter.
-/

namespace SplitBill.Api

open Js

/-! ## The server -/

/-- The statuses with which the services throw an `AppError`. -/
inductive AppErrorStatus
  | badRequest
  | unauthorized
  | forbidden
  | notFound
  | conflict
  | serviceUnavailable
  deriving DecidableEq

/-- `HTTP_STATUSES`. -/
def AppErrorStatus.code : AppErrorStatus → ℕ
  | badRequest => 400
  | unauthorized => 401
  | forbidden => 403
  | notFound => 404
  | conflict => 409
  | serviceUnavailable => 503

/-- What reaches the error handler: the error of a schema, an `AppError`, or any other error. Those
of the body parser have a type and a status. -/
inductive Thrown
  | zodError (issues : List Zod.Issue)
  | appError (statusCode : AppErrorStatus) (message : Str)
  | error (type : Option Str) (status : Option ℕ) (message : Str)

/-- A response: its status and its text. -/
structure Response where
  status : ℕ
  body : Str
  deriving DecidableEq

/-- `res.status(status).json(body)`. -/
def json (status : ℕ) (body : Value) : Response := ⟨status, Json.stringify body⟩

/-- `String` of a step of a path. -/
def stepText : Zod.Step → Str
  | .key k => k
  | .index i => str (toString i)

/-- `issue.path.join(".")`. -/
def field (path : Zod.Path) : Str := join (str ".") (path.map stepText)

/-- The entry of an issue. -/
def issueValue (issue : Zod.Issue) : Value :=
  .object [(str "field", .string (field issue.path)), (str "message", .string issue.message)]

/-- `formatZodError`. -/
def formatZodError (issues : List Zod.Issue) : Value :=
  .object [(str "success", .bool false), (str "message", .string (str "Validation failed")),
    (str "errors", .array (issues.map issueValue))]

/-- `ErrorResponse` without errors of fields. -/
def errorResponse (message : Str) : Value :=
  .object [(str "success", .bool false), (str "message", .string message)]

/-- `errorHandler`. -/
def errorHandler : Thrown → Response
  | .zodError issues => json 400 (formatZodError issues)
  | .appError statusCode message => json statusCode.code (errorResponse message)
  | .error type status _ =>
    if type = some (str "entity.parse.failed") ∨ status = some 400 then
      json 400 (errorResponse (str "Invalid JSON request body."))
    else if type = some (str "entity.too.large") ∨ status = some 413 then
      json 413 (errorResponse (str "Request body too large."))
    else
      json 500 (errorResponse (str "Something went wrong on our side. Please try again later."))

/-- The parts of a request that are validated, in this order. -/
inductive Part
  | body
  | query
  | params
  deriving DecidableEq

/-- The place of a part in this order. -/
def Part.index : Part → ℕ
  | body => 0
  | query => 1
  | params => 2

/-- The values of a request's parts. -/
structure Request where
  body : Option Val
  query : Option Val
  params : Option Val

/-- The value of a part. -/
def Request.part (req : Request) : Part → Option Val
  | .body => req.body
  | .query => req.query
  | .params => req.params

/-- `ValidationSchemas`. -/
structure ValidationSchemas where
  body : Option Zod.Schema := none
  query : Option Zod.Schema := none
  params : Option Zod.Schema := none

/-- The schema of a part. -/
def ValidationSchemas.part (schemas : ValidationSchemas) : Part → Option Zod.Schema
  | .body => schemas.body
  | .query => schemas.query
  | .params => schemas.params

/-- A part after its schema, if it has one. -/
def validatePart (z : Zod) : Option Zod.Schema → Option Val →
    Except (List Zod.Issue) (Option Val)
  | some schema, v => z.parse schema v
  | none, v => .ok v

/-- `validate`: the request that the handler sees, or the issues with which `next` is called. -/
def validate (z : Zod) (schemas : ValidationSchemas) (req : Request) :
    Except (List Zod.Issue) Request := do
  let body ← validatePart z schemas.body req.body
  let query ← validatePart z schemas.query req.query
  let params ← validatePart z schemas.params req.params
  return ⟨body, query, params⟩

/-- `asyncHandler`, in front of the error handler. -/
def asyncHandler (handler : Request → Except Thrown Response) (req : Request) : Response :=
  match handler req with
  | .ok response => response
  | .error thrown => errorHandler thrown

/-- A route. -/
def serve (z : Zod) (schemas : ValidationSchemas)
    (handler : Request → Except Thrown Response) (req : Request) : Response :=
  match validate z schemas req with
  | .ok req => asyncHandler handler req
  | .error issues => errorHandler (.zodError issues)

/-! ## The client -/

/-- `ApiFieldError`. -/
structure ApiFieldError where
  field : Str
  message : Str
  deriving DecidableEq

/-- The classes of `AppFailure`. -/
inductive FailureKind
  | network
  | unauthorized
  | forbidden
  | fieldValidation (fieldErrors : List ApiFieldError)
  | notFound
  | server
  | serviceUnavailable
  deriving DecidableEq

/-- `AppFailure`. -/
structure AppFailure where
  kind : FailureKind
  message : Str
  deriving DecidableEq

/-- What `trim` of Dart removes: white space, also a next-line character. -/
def isDartWhiteSpace (u : UInt16) : Bool := isWhiteSpace u || u == 0x85

/-- `trim` of Dart. -/
def dartTrim (s : Str) : Str :=
  ((s.dropWhile isDartWhiteSpace).reverse.dropWhile isDartWhiteSpace).reverse

/-- `_extractDataMap`. -/
def extractDataMap : Value → Option Value
  | .object members => some (.object members)
  | .string s =>
    -- A text is decoded once more if it looks like an object.
    if (dartTrim s).head? = some 123 then
      match Json.parse s with
      | some (.object members) => some (.object members)
      | _ => none
    else none
  | _ => none

/-- A member of the data. -/
def dataMember (data : Value) (key : Str) : Option Value := (extractDataMap data).bind (·.get? key)

/-- `_messageFrom`. -/
def messageFrom (data : Value) (fallback : Str) : Str :=
  match dataMember data (str "message") with
  | some (.string s) => if dartTrim s ≠ [] then dartTrim s else fallback
  | _ => fallback

/-- The entry of `errors`, if it is one. -/
def fieldError? (entry : Value) : Option ApiFieldError :=
  match entry.get? (str "field"), entry.get? (str "message") with
  | some (.string field), some (.string message) => some ⟨field, message⟩
  | _, _ => none

/-- `_validationFrom`. -/
def validationFrom (data : Value) : AppFailure where
  kind := .fieldValidation <|
    match dataMember data (str "errors") with
    | some (.array entries) => entries.filterMap fieldError?
    | _ => []
  message := messageFrom data (str "Please check the information you entered.")

/-- `mapApiException` of a response that is no success. -/
def mapApiException (statusCode : ℕ) (data : Value) : AppFailure :=
  if statusCode = 400 ∨ statusCode = 409 ∨ statusCode = 422 then validationFrom data
  else if statusCode = 401 then
    ⟨.unauthorized, str "Your session has expired. Please sign in again."⟩
  else if statusCode = 403 then
    ⟨.forbidden, messageFrom data (str "Please check the information you entered.")⟩
  else if statusCode = 404 then ⟨.notFound, str "The requested item could not be found."⟩
  else if statusCode = 429 then ⟨.server, str "Too many requests. Please try again later."⟩
  else if statusCode = 503 then
    ⟨.serviceUnavailable, messageFrom data (str "Please check the information you entered.")⟩
  else if 500 ≤ statusCode then
    ⟨.server,
      messageFrom data (str "Something went wrong on our side. Please try again later.")⟩
  else ⟨.server, messageFrom data (str "Something went wrong. Please try again.")⟩

/-- `NetworkFailure()`. -/
def networkFailure : AppFailure :=
  ⟨.network, str "Could not reach the server. Check your internet connection and try again."⟩

/-- The failure that the client makes of a response; none of a success. A text that is no JSON is
no response at all to Dio. -/
def failure? (response : Response) : Option AppFailure :=
  if 200 ≤ response.status ∧ response.status < 300 then none
  else match Json.parse response.body with
    | some data => some (mapApiException response.status data)
    | none => some networkFailure

/-! ## What the client makes of an error -/

/-- The sense in which the client takes a status, and whether it passes on the server's words. -/
def AppErrorStatus.told (message : Str) : AppErrorStatus → AppFailure
  | unauthorized => ⟨.unauthorized, str "Your session has expired. Please sign in again."⟩
  | notFound => ⟨.notFound, str "The requested item could not be found."⟩
  | badRequest => ⟨.fieldValidation [], message⟩
  | conflict => ⟨.fieldValidation [], message⟩
  | forbidden => ⟨.forbidden, message⟩
  | serviceUnavailable => ⟨.serviceUnavailable, message⟩

/-- The words of an error as they are shown, or others if it has none. -/
def shown (message : Str) : Str :=
  if dartTrim message ≠ [] then dartTrim message
  else str "Please check the information you entered."

/-- What a user is told of an error. The words of one that is no `AppError` are not among it. -/
def told : Thrown → AppFailure
  | .zodError issues =>
    ⟨.fieldValidation (issues.map fun issue => ⟨field issue.path, issue.message⟩),
      str "Validation failed"⟩
  | .appError statusCode message => statusCode.told (shown message)
  | .error type status _ =>
    if type = some (str "entity.parse.failed") ∨ status = some 400 then
      ⟨.fieldValidation [], str "Invalid JSON request body."⟩
    else if type = some (str "entity.too.large") ∨ status = some 413 then
      ⟨.server, str "Request body too large."⟩
    else ⟨.server, str "Something went wrong on our side. Please try again later."⟩

/-- A client maps a body that it can read. -/
theorem failure?_json {status : ℕ} {body : Value} (hstatus : 300 ≤ status)
    (hbody : Json.Reads body) :
    failure? (json status body) = some (mapApiException status body) := by
  have hfail : ¬(200 ≤ (json status body).status ∧ (json status body).status < 300) := by
    show ¬(200 ≤ status ∧ status < 300)
    omega
  unfold failure?
  rw [if_neg hfail]
  show (match Json.parse (Json.stringify body) with
    | some data => some (mapApiException status data)
    | none => some networkFailure) = _
  rw [Json.parse_stringify hbody]

/-- A client can read an error body. -/
theorem reads_errorResponse (message : Str) : Json.Reads (errorResponse message) := by
  refine Json.reads_object fun e he => ?_
  rcases List.mem_pair.mp he with rfl | rfl
  · exact Json.reads_bool false
  · exact Json.reads_string message

/-- A client can read an issue. -/
theorem reads_issueValue (issue : Zod.Issue) : Json.Reads (issueValue issue) := by
  refine Json.reads_object fun e he => ?_
  rcases List.mem_pair.mp he with rfl | rfl <;> exact Json.reads_string _

/-- A client can read the body of a failed validation. -/
theorem reads_formatZodError (issues : List Zod.Issue) : Json.Reads (formatZodError issues) := by
  have hentries : Json.Reads (.array (issues.map issueValue)) := by
    refine Json.reads_array fun v hv => ?_
    obtain ⟨issue, -, rfl⟩ := List.mem_map.mp hv
    exact reads_issueValue issue
  refine Json.reads_object fun e he => ?_
  simp only [List.mem_cons, List.not_mem_nil, or_false] at he
  rcases he with rfl | rfl | rfl
  · exact Json.reads_bool false
  · exact Json.reads_string _
  · exact hentries

/-- The fields and messages that a client takes from a failed validation are those of the issues. -/
theorem validationFrom_formatZodError (issues : List Zod.Issue) :
    validationFrom (formatZodError issues) = told (.zodError issues) := by
  have hentries : (issues.map issueValue).filterMap fieldError? =
      issues.map fun issue => ⟨field issue.path, issue.message⟩ := by
    rw [List.filterMap_map, ← List.filterMap_eq_map]
    rfl
  show (⟨.fieldValidation ((issues.map issueValue).filterMap fieldError?), _⟩ : AppFailure) = _
  rw [hentries]
  rfl

/-- Whatever is thrown, what the client makes of the response is what the user is to be told. -/
theorem failure?_errorHandler (thrown : Thrown) :
    failure? (errorHandler thrown) = some (told thrown) := by
  cases thrown with
  | zodError issues =>
    refine (failure?_json (by decide) (reads_formatZodError issues)).trans (congrArg some ?_)
    exact validationFrom_formatZodError issues
  | appError statusCode message =>
    -- No status of an `AppError` is one of success.
    have hcode : 300 ≤ statusCode.code := by cases statusCode <;> decide
    refine (failure?_json hcode (reads_errorResponse message)).trans (congrArg some ?_)
    cases statusCode <;> rfl
  | error type status message =>
    simp only [errorHandler, told]
    split_ifs
    · refine (failure?_json (by decide) (reads_errorResponse _)).trans (congrArg some ?_)
      decide +kernel
    · refine (failure?_json (by decide) (reads_errorResponse _)).trans (congrArg some ?_)
      decide +kernel
    · refine (failure?_json (by decide) (reads_errorResponse _)).trans (congrArg some ?_)
      decide +kernel

/-! ## What is told of a request -/

/-- `validate`, part by part. -/
theorem validate_eq (z : Zod) (schemas : ValidationSchemas) (req : Request) :
    validate z schemas req = do
      let body ← validatePart z (schemas.part .body) (req.part .body)
      let query ← validatePart z (schemas.part .query) (req.part .query)
      let params ← validatePart z (schemas.part .params) (req.part .params)
      return ⟨body, query, params⟩ := rfl

/-- `validate` returns what the schemas make of the parts, or stops at the first part that its
schema refuses. -/
theorem validate_cases (z : Zod) (schemas : ValidationSchemas) (req : Request) :
    (∃ req', validate z schemas req = .ok req' ∧
      ∀ part, validatePart z (schemas.part part) (req.part part) = .ok (req'.part part)) ∨
    ∃ part issues, validate z schemas req = .error issues ∧
      validatePart z (schemas.part part) (req.part part) = .error issues ∧
      ∀ earlier, earlier.index < part.index →
        ∃ v, validatePart z (schemas.part earlier) (req.part earlier) = .ok v := by
  rw [validate_eq]
  -- The parts come in order, and the first one that is refused ends the validation.
  cases hbody : validatePart z (schemas.part .body) (req.part .body) with
  | error issues =>
    exact .inr ⟨.body, issues, rfl, hbody, fun earlier h => absurd h (Nat.not_lt_zero _)⟩
  | ok body =>
    cases hquery : validatePart z (schemas.part .query) (req.part .query) with
    | error issues =>
      refine .inr ⟨.query, issues, rfl, hquery, fun earlier h => ?_⟩
      cases earlier with
      | body => exact ⟨body, hbody⟩
      | query => exact absurd h (lt_irrefl _)
      | params => exact absurd h (by decide)
    | ok query =>
      cases hparams : validatePart z (schemas.part .params) (req.part .params) with
      | error issues =>
        refine .inr ⟨.params, issues, rfl, hparams, fun earlier h => ?_⟩
        cases earlier with
        | body => exact ⟨body, hbody⟩
        | query => exact ⟨query, hquery⟩
        | params => exact absurd h (lt_irrefl _)
      | ok params =>
        refine .inl ⟨⟨body, query, params⟩, rfl, fun part => ?_⟩
        cases part with
        | body => exact hbody
        | query => exact hquery
        | params => exact hparams

end SplitBill.Api
