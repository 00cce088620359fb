import SplitBill.Prisma

/-!
# The auth repository

`src/modules/auth/auth.repository.ts`. Refresh tokens and auth tokens are stored as digests. Every
method that exchanges or consumes a token does so by an update that is guarded by the column which
marks the token as used, within the transaction of what the token buys.
-/

namespace SplitBill

open Prisma

/-- `CreateUserWithAuthData`. -/
structure CreateUserWithAuthData where
  name : String
  email : String
  passwordHash : String
  refreshTokenHash : Id
  refreshTokenExpiresAt : Time
  verificationTokenHash : Id
  verificationTokenExpiresAt : Time
  deriving DecidableEq

/-- `RefreshTokenRecord`: a refresh token with its user. -/
structure RefreshTokenRecord where
  token : RefreshToken
  user : SafeUser
  deriving DecidableEq

/-- `rotateRefreshToken`: revokes the old token and creates its replacement, unless the old one was
already revoked. -/
def rotateRefreshToken (now : Time) (oldId : Id) (data : CreateRefreshTokenData) :
    Tx Db Err Metric (Option RefreshToken) := do
  let count ← Tx.statement (refreshTokenRevoke (·.id = oldId) now)
  if count = 0 then return none
  let token ← Tx.statement (refreshTokenCreate now data)
  return some token

/-- `createUserWithAuthData`: the user, a refresh token and a verification token. -/
def createUserWithAuthData (now : Time) (data : CreateUserWithAuthData) :
    Tx Db Err Metric SafeUser := do
  let user ← Tx.statement (userCreate data.name data.email data.passwordHash)
  let _ ← Tx.statement (refreshTokenCreate now
    ⟨user.id, data.refreshTokenHash, data.refreshTokenExpiresAt⟩)
  let _ ← Tx.statement (authTokenCreate now
    ⟨user.id, .emailVerification, data.verificationTokenHash, data.verificationTokenExpiresAt⟩)
  return user.safe

/-- `createAuthToken`: a new token in the place of the user's previous one of the same purpose. -/
def createAuthToken (now : Time) (data : CreateAuthTokenData) : Tx Db Err Metric AuthToken := do
  Tx.statement (authTokenDeleteMany data.userId data.purpose)
  Tx.statement (authTokenCreate now data)

/-- `consumeVerificationTokenAndVerifyUser`. -/
def consumeVerificationTokenAndVerifyUser (tokenId userId : Id) (now : Time) :
    Tx Db Err Metric (Option SafeUser) := do
  let count ← Tx.statement (authTokenConsume tokenId now)
  if count = 0 then return none
  let user ← Tx.statement (userUpdate userId { emailVerifiedAt := some (some now) })
  return some user.safe

/-- `consumePasswordResetTokenAndUpdatePassword`. -/
def consumePasswordResetTokenAndUpdatePassword (tokenId userId : Id) (passwordHash : String)
    (now : Time) : Tx Db Err Metric (Option SafeUser) := do
  let count ← Tx.statement (authTokenConsume tokenId now)
  if count = 0 then return none
  let updated ← Tx.statement (userUpdatePassword userId passwordHash)
  if updated = 0 then return none
  let _ ← Tx.statement (refreshTokenRevoke (·.userId = userId) now)
  let user ← Tx.statement fun db =>
    match db.user? userId with
    | some u => .ok (u, db)
    | none => .error (.prisma .recordNotFound)
  return some user.safe

/-- The methods of `AuthRepository`. `update` reads before it writes, so it is two operations. -/
inductive AuthOp
  | findByEmail (email : String)
  | findById (id : Id)
  | updateExists (id : Id)
  | update (id : Id) (data : UserData)
  | findRefreshTokenByHash (tokenHash : Id)
  | createRefreshToken (data : CreateRefreshTokenData)
  | revokeRefreshTokenById (id : Id)
  | rotateRefreshToken (oldId : Id) (data : CreateRefreshTokenData)
  | createUserWithAuthData (data : CreateUserWithAuthData)
  | createAuthToken (data : CreateAuthTokenData)
  | findAuthTokenByHash (tokenHash : Id)
  | consumeVerificationTokenAndVerifyUser (tokenId userId : Id) (now : Time)
  | consumePasswordResetTokenAndUpdatePassword (tokenId userId : Id) (passwordHash : String)
      (now : Time)

namespace AuthOp

/-- What a method answers. -/
abbrev Res : AuthOp → Type
  | findByEmail _ => Option User
  | findById _ => Option User
  | updateExists _ => Bool
  | update _ _ => SafeUser
  | findRefreshTokenByHash _ => Option RefreshTokenRecord
  | createRefreshToken _ => Unit
  | revokeRefreshTokenById _ => ℕ
  | rotateRefreshToken _ _ => Option RefreshToken
  | createUserWithAuthData _ => SafeUser
  | createAuthToken _ => AuthToken
  | findAuthTokenByHash _ => Option AuthToken
  | consumeVerificationTokenAndVerifyUser _ _ _ => Option SafeUser
  | consumePasswordResetTokenAndUpdatePassword _ _ _ _ => Option SafeUser

/-- What a method does. -/
def access : (o : AuthOp) → Access o.Res
  | findByEmail email => .read fun _ db => db.users.find? (·.email = email)
  | findById id => .read fun _ db => db.user? id
  | updateExists id => .read fun _ db => (db.user? id).isSome
  | update id data => .write fun _ _ => do
    let user ← Tx.statement (userUpdate id data)
    return user.safe
  | findRefreshTokenByHash tokenHash => .read fun _ db =>
    (db.refreshTokens.find? (·.tokenHash = tokenHash)).map fun t => ⟨t, db.safeUser t.userId⟩
  | createRefreshToken data => .write fun _ now => do
    let _ ← Tx.statement (refreshTokenCreate now data)
    return ()
  | revokeRefreshTokenById id => .write fun _ now =>
    Tx.statement (refreshTokenRevoke (·.id = id) now)
  | rotateRefreshToken oldId data => .write fun _ now => SplitBill.rotateRefreshToken now oldId data
  | createUserWithAuthData data => .write fun _ now => SplitBill.createUserWithAuthData now data
  | createAuthToken data => .write fun _ now => SplitBill.createAuthToken now data
  | findAuthTokenByHash tokenHash => .read fun _ db =>
    db.authTokens.find? (·.tokenHash = tokenHash)
  | consumeVerificationTokenAndVerifyUser tokenId userId now => .write fun _ _ =>
    SplitBill.consumeVerificationTokenAndVerifyUser tokenId userId now
  | consumePasswordResetTokenAndUpdatePassword tokenId userId passwordHash now => .write fun _ _ =>
    SplitBill.consumePasswordResetTokenAndUpdatePassword tokenId userId passwordHash now

end AuthOp

end SplitBill
