import SplitBill.Api.ErrorBoundary
import SplitBill.Js.Base64
import SplitBill.Js.Number
import SplitBill.Js.Zod.Normal

/-!
# The schemas of the API

The `validators.ts` of the modules, `src/utils/idSchema.ts` and `src/utils/pagination.ts`, and which
route validates what. A schema is given to a route for the body, the query or the parameters of a
request (`Route.schemas`).
-/

namespace SplitBill.Api

open Js
open Zod (Formats Schema StringCheck NumberCheck)

section

variable (f : Formats)

/-- `idSchema`. -/
def idSchema : Schema := .string [.trim, .test f.uuid (str "ID must be a valid UUID")]

/-- `safeAmount`. -/
def safeAmount : Schema :=
  .number false
    [.int (str "Amount must be a whole number of minor units"),
      .positive (str "Amount must be greater than zero"),
      .min (-maxSafeInteger) (str "Amount must be a safe integer"),
      .max maxSafeInteger (str "Amount must be a safe integer")]

/-- A text between a trim and two bounds of its length. -/
def textSchema (required : Str) (max : ℕ) (tooLong : Str) : Schema :=
  .string [.trim, .min 1 required, .max max tooLong]

/-! ## Authentication -/

/-- `emailSchema`. -/
def emailSchema : Schema := .string [.trim, .test f.email (str "Invalid email address")]

/-- `passwordSchema`. -/
def passwordSchema : Schema :=
  .string [.min 8 (str "Password must be at least 8 characters long"),
    .max 72 (str "Password must be at most 72 characters long")]

/-- The name of a user. -/
def nameSchema : Schema := textSchema (str "Name is required") 100 (str "Name is too long")

/-- `registerBodySchema`. -/
def registerBodySchema : Schema :=
  .object true [(str "name", nameSchema), (str "email", emailSchema f),
    (str "password", passwordSchema)]

/-- `loginBodySchema`. -/
def loginBodySchema : Schema :=
  .object true [(str "email", emailSchema f),
    (str "password", .string [.min 1 (str "Password is required")])]

/-- `refreshTokenBodySchema`. -/
def refreshTokenBodySchema : Schema :=
  .object true [(str "refreshToken", .string [.min 1 (str "Refresh token is required")])]

/-- A member of an object is there. -/
def defines (k : Str) : Option Val → Bool
  | some (.object members) => (Zod.member? k members).isSome
  | _ => false

/-- `updateProfileBodySchema`. -/
def updateProfileBodySchema : Schema :=
  .refine
    (.object true [(str "name", .optional nameSchema), (str "email", .optional (emailSchema f))])
    (fun data => defines (str "name") data || defines (str "email") data)
    (str "At least one of name or email is required")

/-- `authTokenSchema`. -/
def authTokenSchema : Schema :=
  .string [.min 1 (str "Token is required"),
    .test (fun s => decide (s ≠ []) && s.all isBase64url) (str "Invalid token format")]

/-- `verifyEmailBodySchema`. -/
def verifyEmailBodySchema : Schema := .object true [(str "token", authTokenSchema)]

/-- `resendVerificationBodySchema`. -/
def resendVerificationBodySchema : Schema := .object true [(str "email", emailSchema f)]

/-- `forgotPasswordBodySchema`. -/
def forgotPasswordBodySchema : Schema := .object true [(str "email", emailSchema f)]

/-- `resetPasswordBodySchema`. -/
def resetPasswordBodySchema : Schema :=
  .object true [(str "token", authTokenSchema), (str "newPassword", passwordSchema)]

/-! ## Groups -/

/-- The name of a group. -/
def groupNameSchema : Schema :=
  textSchema (str "Group name is required") 100 (str "Group name is too long")

/-- `createGroupBodySchema`. -/
def createGroupBodySchema : Schema := .object true [(str "name", groupNameSchema)]

/-- `updateGroupBodySchema`. -/
def updateGroupBodySchema : Schema := .object true [(str "name", groupNameSchema)]

/-- The schema of a route's `:id`: `groupParamsSchema`, `expenseTargetParamsSchema`,
`expenseParamsSchema`, `settlementGroupParamsSchema`, `settlementParamsSchema`,
`activityGroupParamsSchema` and `summaryGroupParamsSchema`. -/
def idParamsSchema : Schema := .object false [(str "id", idSchema f)]

/-- `addMemberBodySchema`. -/
def addMemberBodySchema : Schema := .object true [(str "userId", idSchema f)]

/-- `memberParamsSchema`. -/
def memberParamsSchema : Schema :=
  .object false [(str "id", idSchema f), (str "memberId", idSchema f)]

/-! ## Expenses and settlements -/

/-- The description of an expense. -/
def descriptionSchema : Schema :=
  textSchema (str "Description is required") 280 (str "Description is too long")

/-- `z.enum(["EQUAL", "EXACT"])`. -/
def splitTypeSchema : Schema := .enum [str "EQUAL", str "EXACT"]

/-- The fields of a participant. -/
def expenseParticipantFields : List (Str × Schema) :=
  [(str "userId", idSchema f), (str "amountMinorUnits", .optional safeAmount)]

/-- `expenseParticipantSchema`, which `createExpenseBodySchema` writes out. -/
def expenseParticipantSchema : Schema := .object false (expenseParticipantFields f)

/-- The participants of an expense. -/
def participantsSchema : Schema :=
  .array (expenseParticipantSchema f) 1 (str "At least one participant is required")

/-- `z.string().datetime({ offset: true })`. -/
def datetimeSchema : Schema := .string [.test f.datetime f.invalidDatetime]

/-- The fields of a new expense. -/
def createExpenseFields : List (Str × Schema) :=
  [(str "description", descriptionSchema), (str "amountMinorUnits", safeAmount),
    (str "payerId", idSchema f), (str "splitType", splitTypeSchema),
    (str "participants", participantsSchema f),
    (str "expenseDate", .optional (datetimeSchema f))]

/-- `createExpenseBodySchema`. -/
def createExpenseBodySchema : Schema := .object true (createExpenseFields f)

/-- `Object.keys(data).length > 0`. -/
def hasKeys : Option Val → Bool
  | some (.object members) => decide (members ≠ [])
  | _ => false

/-- The fields of an amended expense. -/
def updateExpenseFields : List (Str × Schema) :=
  [(str "description", .optional descriptionSchema),
    (str "amountMinorUnits", .optional safeAmount), (str "payerId", .optional (idSchema f)),
    (str "splitType", .optional splitTypeSchema),
    (str "participants", .optional (participantsSchema f)),
    (str "expenseDate", .optional (datetimeSchema f))]

/-- `updateExpenseBodySchema`. -/
def updateExpenseBodySchema : Schema :=
  .refine (.object true (updateExpenseFields f)) hasKeys (str "At least one field is required")

/-- The fields of a new settlement. -/
def createSettlementFields : List (Str × Schema) :=
  [(str "payerId", idSchema f), (str "payeeId", idSchema f),
    (str "amountMinorUnits", safeAmount)]

/-- `createSettlementBodySchema`. -/
def createSettlementBodySchema : Schema := .object true (createSettlementFields f)

/-! ## Pages -/

/-- The checks of a page number. -/
def pageChecks : List NumberCheck :=
  [.int (str "Page must be a whole number"), .positive (str "Page must be at least 1")]

/-- The checks of a page's size. -/
def limitChecks : List NumberCheck :=
  [.int (str "Limit must be a whole number"), .positive (str "Limit must be at least 1"),
    .max 50 (str "Limit cannot exceed 50")]

/-- The fields of a query for activity, with their defaults. -/
def activityQueryFields : List (Str × Schema) :=
  [(str "page", .default (.number true pageChecks) (.number (.finite 1))),
    (str "limit", .default (.number true limitChecks) (.number (.finite 20)))]

/-- `activityQuerySchema`. -/
def activityQuerySchema : Schema := .object true activityQueryFields

/-- The fields of a query for a page. -/
def paginationQueryFields : List (Str × Schema) :=
  [(str "page", .optional (.number true pageChecks)),
    (str "limit", .optional (.number true limitChecks))]

/-- `paginationQuerySchema`. -/
def paginationQuerySchema : Schema := .object false paginationQueryFields

/-! ## Routes -/

/-- The routes of `src/routes/v1`. -/
inductive Route
  | register
  | login
  | refresh
  | logout
  | verifyEmail
  | resendVerification
  | forgotPassword
  | resetPassword
  | getMe
  | updateCurrentUser
  | createGroup
  | getUserGroups
  | getGroupById
  | updateGroup
  | deleteGroup
  | addGroupMember
  | removeGroupMember
  | createExpense
  | getGroupExpenses
  | getGroupBalances
  | createSettlement
  | getGroupSettlements
  | getGroupActivity
  | getSummary
  | rebuildSummary
  | getExpenseById
  | updateExpense
  | deleteExpense
  | getSettlementById

/-- What a route validates. -/
def Route.schemas : Route → ValidationSchemas
  | .register => { body := some (registerBodySchema f) }
  | .login => { body := some (loginBodySchema f) }
  | .refresh | .logout => { body := some refreshTokenBodySchema }
  | .verifyEmail => { body := some verifyEmailBodySchema }
  | .resendVerification => { body := some (resendVerificationBodySchema f) }
  | .forgotPassword => { body := some (forgotPasswordBodySchema f) }
  | .resetPassword => { body := some resetPasswordBodySchema }
  | .getMe | .getUserGroups => {}
  | .updateCurrentUser => { body := some (updateProfileBodySchema f) }
  | .createGroup => { body := some createGroupBodySchema }
  | .updateGroup => { params := some (idParamsSchema f), body := some updateGroupBodySchema }
  | .addGroupMember => { params := some (idParamsSchema f), body := some (addMemberBodySchema f) }
  | .removeGroupMember => { params := some (memberParamsSchema f) }
  | .createExpense =>
    { params := some (idParamsSchema f), body := some (createExpenseBodySchema f) }
  | .getGroupExpenses | .getGroupSettlements =>
    { params := some (idParamsSchema f), query := some paginationQuerySchema }
  | .createSettlement =>
    { params := some (idParamsSchema f), body := some (createSettlementBodySchema f) }
  | .getGroupActivity =>
    { params := some (idParamsSchema f), query := some activityQuerySchema }
  | .updateExpense =>
    { params := some (idParamsSchema f), body := some (updateExpenseBodySchema f) }
  | .getGroupById | .deleteGroup | .getGroupBalances | .getSummary | .rebuildSummary
  | .getExpenseById | .deleteExpense | .getSettlementById => { params := some (idParamsSchema f) }

/-- The schemas of the routes trim first, and their objects have fields of their own. -/
theorem normalizes_schemas {route : Route} {part : Part} {schema : Schema}
    (h : (route.schemas f).part part = some schema) : schema.normalizes = true := by
  cases route <;> cases part <;> cases h <;> rfl

end

/-- What a route hands to its handler it would hand on as it is. -/
theorem validate_again {z : Zod} (hz : z.Documented) (route : Route) {req req' : Request}
    (h : validate z (route.schemas z.toFormats) req = .ok req') :
    validate z (route.schemas z.toFormats) req' = .ok req' := by
  have hpart : ∀ part v out, validatePart z ((route.schemas z.toFormats).part part) v = .ok out →
      validatePart z ((route.schemas z.toFormats).part part) out = .ok out := by
    intro part v out hv
    cases hschema : (route.schemas z.toFormats).part part with
    | none => rfl
    | some schema =>
      rw [hschema] at hv
      exact hz.parse_again (normalizes_schemas z.toFormats hschema) hv
  rcases validate_cases z (route.schemas z.toFormats) req with
    ⟨made, hmade, hparts⟩ | ⟨part, issues, herr, -⟩
  · obtain rfl : made = req' := Except.ok.inj (hmade.symm.trans h)
    have hbody := hpart .body _ _ (hparts .body)
    have hquery := hpart .query _ _ (hparts .query)
    have hparams := hpart .params _ _ (hparts .params)
    rw [validate_eq, hbody, hquery, hparams]
    rfl
  · rw [herr] at h
    cases h

/-- Some formats. -/
def plainFormats : Formats where
  email s := s.contains 64
  uuid s := s.length == 36
  datetime s := s.contains 84
  invalidDatetime := str "Invalid datetime"
  toNumber
    | some (.number x) => x
    | _ => .nan
  toNumber_number _ := rfl

/-- The name of a group is trimmed once. -/
theorem validate_again_trip :
    validate (Zod.plain plainFormats) (Route.createGroup.schemas plainFormats)
        ⟨some (.object [(str "name", .string (str "Trip"))]), some (.object []), none⟩ =
      .ok ⟨some (.object [(str "name", .string (str "Trip"))]), some (.object []), none⟩ :=
  @validate_again (Zod.plain plainFormats) (Zod.plain_documented plainFormats) .createGroup
    ⟨some (.object [(str "name", .string (str " Trip "))]), some (.object []), none⟩ _ rfl

end SplitBill.Api
