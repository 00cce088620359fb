import SplitBill.Backend

/-!
# The auth service

`src/modules/auth/auth.service.ts`, with the dispatch of `src/modules/email/email.service.ts`. An
access token is written as the payload that it signs.
-/

namespace SplitBill

open Interleave
open Prisma (UserData CreateRefreshTokenData CreateAuthTokenData)
open Prog (ensure expect)

/-- `MS_PER_DAY`. -/
def msPerDay : ℕ := 24 * 60 * 60 * 1000

/-- `MS_PER_MINUTE`. -/
def msPerMinute : ℕ := 60 * 1000

/-! ## The repository's methods -/

namespace AuthRepository

/-- `findByEmail`. -/
def findByEmail (email : String) : Act (Option User) :=
  Op.perform (.db (.auth (.findByEmail email)))

/-- `findById`. -/
def findById (id : Id) : Act (Option User) := Op.perform (.db (.auth (.findById id)))

/-- The check with which `update` begins. -/
def updateExists (id : Id) : Act Bool := Op.perform (.db (.auth (.updateExists id)))

/-- The write of `update`. -/
def updateUser (id : Id) (data : UserData) : Act SafeUser :=
  Op.perform (.db (.auth (.update id data)))

/-- `update`. -/
def update (id : Id) (data : UserData) : Act (Option SafeUser) := do
  let existing ← updateExists id
  if existing then
    let user ← updateUser id data
    return some user
  else return none

/-- `findRefreshTokenByHash`. -/
def findRefreshTokenByHash (tokenHash : Id) : Act (Option RefreshTokenRecord) :=
  Op.perform (.db (.auth (.findRefreshTokenByHash tokenHash)))

/-- `createRefreshToken`. -/
def createRefreshToken (data : CreateRefreshTokenData) : Act Unit :=
  Op.perform (.db (.auth (.createRefreshToken data)))

/-- `revokeRefreshTokenById`. -/
def revokeRefreshTokenById (id : Id) : Act ℕ :=
  Op.perform (.db (.auth (.revokeRefreshTokenById id)))

/-- `rotateRefreshToken`. -/
def rotateRefreshToken (oldId : Id) (data : CreateRefreshTokenData) : Act (Option RefreshToken) :=
  Op.perform (.db (.auth (.rotateRefreshToken oldId data)))

/-- `createUserWithAuthData`. -/
def createUserWithAuthData (data : CreateUserWithAuthData) : Act SafeUser :=
  Op.perform (.db (.auth (.createUserWithAuthData data)))

/-- `createAuthToken`. -/
def createAuthToken (data : CreateAuthTokenData) : Act AuthToken :=
  Op.perform (.db (.auth (.createAuthToken data)))

/-- `findAuthTokenByHash`. -/
def findAuthTokenByHash (tokenHash : Id) : Act (Option AuthToken) :=
  Op.perform (.db (.auth (.findAuthTokenByHash tokenHash)))

/-- `consumeVerificationTokenAndVerifyUser`. -/
def consumeVerificationTokenAndVerifyUser (tokenId userId : Id) (now : Time) :
    Act (Option SafeUser) :=
  Op.perform (.db (.auth (.consumeVerificationTokenAndVerifyUser tokenId userId now)))

/-- `consumePasswordResetTokenAndUpdatePassword`. -/
def consumePasswordResetTokenAndUpdatePassword (tokenId userId : Id) (passwordHash : String)
    (now : Time) : Act (Option SafeUser) :=
  Op.perform
    (.db (.auth (.consumePasswordResetTokenAndUpdatePassword tokenId userId passwordHash now)))

end AuthRepository

/-! ## Mail -/

namespace EmailService

/-- `dispatch`. -/
def dispatch (m : Mail) : Act Unit := do
  match ← (Op.perform (.mail m)).attempt with
  | .ok _ => increment (.emailsSentTotal m.operation)
  | .error _ =>
    increment (.emailSendFailuresTotal m.operation)
    throw (emailDeliveryError .emailDeliveryFailed
      "Email delivery failed. Please try again later.")

end EmailService

/-! ## The service -/

/-- `JwtPayload`. -/
structure JwtPayload where
  sub : Id
  email : String
  deriving DecidableEq

/-- `AuthResult`. -/
structure AuthResult where
  user : SafeUser
  token : JwtPayload
  refreshToken : Id
  deriving DecidableEq

namespace AuthService

/-- `GENERIC_VERIFICATION_MESSAGE`. -/
def genericVerificationMessage : String :=
  "If that email address belongs to an account, a verification email is on its way."

/-- `GENERIC_RESET_MESSAGE`. -/
def genericResetMessage : String :=
  "If that email address belongs to an account, a password reset email is on its way."

/-- `DUMMY_COMPARE_HASH`. -/
def dummyCompareHash : String := "$2b$12$x5qweLqykfv/TYZEjzdcL.CPyTAZX5/0ZwMm7fzxG3QJDlXlSjyMq"

/-- "An account with this email already exists." -/
def emailInUse : Err := conflictError .emailInUse "An account with this email already exists."

/-- "Invalid email or password." -/
def invalidCredentials : Err :=
  unauthorizedError .invalidCredentials "Invalid email or password."

/-- "Invalid or expired refresh token." -/
def refreshTokenInvalid : Err :=
  unauthorizedError .refreshTokenInvalid "Invalid or expired refresh token."

/-- "User not found." -/
def userNotFound : Err := notFoundError .userNotFound "User not found."

/-- "This verification link has already been used." -/
def verificationTokenUsed : Err :=
  unauthorizedError .verificationTokenUsed "This verification link has already been used."

/-- "This password reset link has already been used." -/
def resetTokenUsed : Err :=
  unauthorizedError .resetTokenUsed "This password reset link has already been used."

variable (env : Env) (lib : Lib)

/-- `signToken`. -/
def signToken (user : SafeUser) : JwtPayload := ⟨user.id, user.email⟩

/-- `refreshTokenExpiry`. -/
def refreshTokenExpiry : Act Time := do
  let now ← newDate
  return now + env.refreshTokenTtlDays * msPerDay

/-- `verificationTokenExpiry`. -/
def verificationTokenExpiry : Act Time := do
  let now ← newDate
  return now + env.emailVerificationTokenTtlMinutes * msPerMinute

/-- `passwordResetTokenExpiry`. -/
def passwordResetTokenExpiry : Act Time := do
  let now ← newDate
  return now + env.passwordResetTokenTtlMinutes * msPerMinute

/-- `trySendVerificationEmail` and `trySendPasswordResetEmail`. -/
def trySend (operation : EmailOperation) (user : SafeUser) (rawToken : Id) : Act Unit := do
  let _ ← (EmailService.dispatch ⟨operation, user.email, rawToken, user.name⟩).attempt
  return ()

/-- `dummyAuthWork`. -/
def dummyAuthWork : Act Unit := do
  let token ← randomId
  let _ ← Op.perform (.bcryptCompare (lib.characters (.id token)) dummyCompareHash)
  return ()

/-- `issueRefreshToken`. -/
def issueRefreshToken (userId : Id) : Act Id := do
  let rawToken ← randomId
  let expiresAt ← refreshTokenExpiry env
  AuthRepository.createRefreshToken ⟨userId, lib.sha256 rawToken, expiresAt⟩
  return rawToken

/-- `register`. -/
def register (name email password : String) : Act AuthResult := do
  let existing ← AuthRepository.findByEmail email
  ensure (existing = none) emailInUse
  let passwordHash ← Op.perform (.bcryptHash password)
  let refreshToken ← randomId
  let verificationToken ← randomId
  let refreshTokenExpiresAt ← refreshTokenExpiry env
  let verificationTokenExpiresAt ← verificationTokenExpiry env
  let user ← AuthRepository.createUserWithAuthData
    { name, email, passwordHash, refreshTokenHash := lib.sha256 refreshToken,
      refreshTokenExpiresAt, verificationTokenHash := lib.sha256 verificationToken,
      verificationTokenExpiresAt }
  increment .usersRegisteredTotal
  trySend .verification user verificationToken
  return ⟨user, signToken user, refreshToken⟩

/-- `login`. -/
def login (email password : String) : Act AuthResult := do
  let user ← AuthRepository.findByEmail email
  let user ← expect user invalidCredentials
  let passwordHash ← expect user.passwordHash invalidCredentials
  let valid : Bool ← Op.perform (.bcryptCompare password passwordHash)
  ensure valid invalidCredentials
  let refreshToken ← issueRefreshToken env lib user.id
  return ⟨user.safe, signToken user.safe, refreshToken⟩

/-- `refresh`. -/
def refresh (refreshToken : Id) : Act AuthResult := do
  let record ← AuthRepository.findRefreshTokenByHash (lib.sha256 refreshToken)
  let record ← expect record refreshTokenInvalid
  ensure (record.token.revokedAt = none) refreshTokenInvalid
  let now ← newDate
  ensure (now < record.token.expiresAt) refreshTokenInvalid
  let nextToken ← randomId
  let expiresAt ← refreshTokenExpiry env
  let rotated ← AuthRepository.rotateRefreshToken record.token.id
    ⟨record.token.userId, lib.sha256 nextToken, expiresAt⟩
  let _ ← expect rotated refreshTokenInvalid
  return ⟨record.user, signToken record.user, nextToken⟩

/-- `logout`. -/
def logout (refreshToken : Id) : Act String := do
  match ← AuthRepository.findRefreshTokenByHash (lib.sha256 refreshToken) with
  | some record =>
    let _ ← AuthRepository.revokeRefreshTokenById record.token.id
    return "Signed out successfully."
  | none => return "Signed out successfully."

/-- The check of `updateCurrentUser` that no other account has the new address. -/
def assertEmailFree (userId : Id) : Option String → Act Unit
  | some address => do
    let existing ← AuthRepository.findByEmail address
    ensure (∀ u ∈ existing, u.id = userId) emailInUse
  | none => return ()

/-- `updateCurrentUser`. -/
def updateCurrentUser (userId : Id) (name email : Option String) : Act SafeUser := do
  let user ← AuthRepository.findById userId
  let user ← expect user userNotFound
  assertEmailFree userId email
  let emailChanged : Bool := email.any fun address =>
    lib.toLowerCase address ≠ lib.toLowerCase user.email
  let updated ← AuthRepository.update userId
    { name, email, emailVerifiedAt := if emailChanged then some none else none }
  expect updated userNotFound

/-- `verifyEmailAddress`. -/
def verifyEmailAddress (token : Id) : Act String := do
  let record ← AuthRepository.findAuthTokenByHash (lib.sha256 token)
  let now ← newDate
  let invalid :=
    unauthorizedError .verificationTokenInvalid "This verification link is invalid."
  let record ← expect record invalid
  ensure (record.purpose = .emailVerification) invalid
  ensure (record.consumedAt = none) verificationTokenUsed
  ensure (now < record.expiresAt)
    (unauthorizedError .verificationTokenExpired "This verification link has expired.")
  let verified ←
    AuthRepository.consumeVerificationTokenAndVerifyUser record.id record.userId now
  let _ ← expect verified verificationTokenUsed
  return "Email verified successfully."

/-- `resendVerification`. -/
def resendVerification (email : String) : Act String := do
  match ← AuthRepository.findByEmail email with
  | none =>
    dummyAuthWork lib
    return genericVerificationMessage
  | some user =>
    if user.emailVerifiedAt ≠ none then return genericVerificationMessage
    else
      let token ← randomId
      let expiresAt ← verificationTokenExpiry env
      let _ ← AuthRepository.createAuthToken
        ⟨user.id, .emailVerification, lib.sha256 token, expiresAt⟩
      trySend .verification user.safe token
      return genericVerificationMessage

/-- `requestPasswordReset`. -/
def requestPasswordReset (email : String) : Act String := do
  match ← AuthRepository.findByEmail email with
  | none =>
    dummyAuthWork lib
    return genericResetMessage
  | some user =>
    let token ← randomId
    let expiresAt ← passwordResetTokenExpiry env
    let _ ← AuthRepository.createAuthToken
      ⟨user.id, .passwordReset, lib.sha256 token, expiresAt⟩
    trySend .passwordReset user.safe token
    return genericResetMessage

/-- `resetUserPassword`. -/
def resetUserPassword (token : Id) (newPassword : String) : Act String := do
  let record ← AuthRepository.findAuthTokenByHash (lib.sha256 token)
  let now ← newDate
  let invalid := unauthorizedError .resetTokenInvalid "This password reset link is invalid."
  let record ← expect record invalid
  ensure (record.purpose = .passwordReset) invalid
  ensure (record.consumedAt = none) resetTokenUsed
  ensure (now < record.expiresAt)
    (unauthorizedError .resetTokenExpired "This password reset link has expired.")
  let passwordHash ← Op.perform (.bcryptHash newPassword)
  let updated ← AuthRepository.consumePasswordResetTokenAndUpdatePassword record.id record.userId
    passwordHash now
  let _ ← expect updated resetTokenUsed
  return "Your password has been reset. Please sign in with your new password."

end AuthService

end SplitBill
