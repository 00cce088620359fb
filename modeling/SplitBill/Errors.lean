import Mathlib.Data.Nat.Notation

/-!
# Errors

`AppError` is what the central error handler turns into a response: a status, a code and a message
(`src/errors/app.error.ts`, `src/constants/app-errors.ts`). The other errors that the services meet
come from the database client, from Redis, from the mail provider, and from the two error classes
that never reach a client as they are.
-/

namespace SplitBill

/-- The codes of `APP_ERRORS`. -/
inductive AppErrorCode
  | emailInUse
  | invalidCredentials
  | refreshTokenInvalid
  | userNotFound
  | groupNotFound
  | alreadyGroupMember
  | notGroupMember
  | notGroupOwner
  | cannotRemoveOwner
  | expenseNotFound
  | payerNotGroupMember
  | splitUserNotGroupMember
  | duplicateSplitUser
  | splitTotalMismatch
  | settlementNotFound
  | settlementPayerNotGroupMember
  | settlementPayeeNotGroupMember
  | settlementUsersMustDiffer
  | settlementConcurrentLocked
  | idempotencyKeyReused
  | idempotencyConflict
  | idempotencyInvalidState
  | groupSummaryNotFound
  | jobEnqueueFailed
  | emailDeliveryFailed
  | verificationTokenInvalid
  | verificationTokenExpired
  | verificationTokenUsed
  | resetTokenInvalid
  | resetTokenExpired
  | resetTokenUsed
  deriving DecidableEq

/-- `AppError`: what a client is told. -/
structure AppError where
  /-- The HTTP status. -/
  statusCode : ℕ
  /-- The machine-readable code. -/
  code : AppErrorCode
  /-- The text. -/
  message : String
  deriving DecidableEq

/-- The failures of the database client. -/
inductive PrismaError
  /-- `P2002`: a unique constraint does not admit the row. -/
  | uniqueConstraint
  /-- `P2003`: a foreign key names a row that does not exist. -/
  | foreignKey
  /-- `P2025`: the row to update or delete does not exist. -/
  | recordNotFound
  /-- Anything else, such as a lost connection. -/
  | unavailable
  deriving DecidableEq

/-- What a service or a repository can throw. -/
inductive Err
  | app (e : AppError)
  | prisma (e : PrismaError)
  /-- A Redis command failed. -/
  | redis
  /-- `DistributedLockConflictError`. -/
  | lockConflict
  /-- The mail provider failed. -/
  | mail
  /-- `PermanentJobFailureError`. -/
  | permanentJobFailure (message : String)
  /-- Any other error of a job handler. -/
  | other (message : String)
  deriving DecidableEq

/-- `BadRequestError`. -/
def badRequestError (code : AppErrorCode) (message : String) : Err := .app ⟨400, code, message⟩

/-- `UnauthorizedError`. -/
def unauthorizedError (code : AppErrorCode) (message : String) : Err := .app ⟨401, code, message⟩

/-- `ForbiddenError`. -/
def forbiddenError (code : AppErrorCode) (message : String) : Err := .app ⟨403, code, message⟩

/-- `NotFoundError`. -/
def notFoundError (code : AppErrorCode) (message : String) : Err := .app ⟨404, code, message⟩

/-- `ConflictError`. -/
def conflictError (code : AppErrorCode) (message : String) : Err := .app ⟨409, code, message⟩

/-- `EmailDeliveryError`. -/
def emailDeliveryError (code : AppErrorCode) (message : String) : Err := .app ⟨503, code, message⟩

end SplitBill
