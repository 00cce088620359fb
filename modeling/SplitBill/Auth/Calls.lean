import SplitBill.Auth.Service
import SplitBill.Lease

/-!
# The calls of the auth service

The calls of `AuthService` as a system, and what each of them knows from its own entries when it
writes: a call exchanges or consumes only a token that it has read, that was good when it was read
and not over yet, and issues a session or a token only for a user whom it has read. It issues at
most one auth token, under a digest of a random value that it drew.
-/

namespace SplitBill

open Interleave

/-- The calls of the auth service. -/
inductive AuthCall
  | register (name email password : String)
  | login (email password : String)
  | refresh (refreshToken : Id)
  | logout (refreshToken : Id)
  | updateCurrentUser (userId : Id) (name email : Option String)
  | verifyEmailAddress (token : Id)
  | resendVerification (email : String)
  | requestPasswordReset (email : String)
  | resetUserPassword (token : Id) (newPassword : String)

/-- The programs of the calls, with the session that a call hands out. -/
def AuthCall.body (env : Env) (lib : Lib) : AuthCall → Act (Option AuthResult)
  | register name email password =>
    (AuthService.register env lib name email password).bind fun r => .ret (some r)
  | login email password => (AuthService.login env lib email password).bind fun r => .ret (some r)
  | refresh refreshToken =>
    (AuthService.refresh env lib refreshToken).bind fun r => .ret (some r)
  | logout refreshToken => (AuthService.logout lib refreshToken).bind fun _ => .ret none
  | updateCurrentUser userId name email =>
    (AuthService.updateCurrentUser lib userId name email).bind fun _ => .ret none
  | verifyEmailAddress token =>
    (AuthService.verifyEmailAddress lib token).bind fun _ => .ret none
  | resendVerification email =>
    (AuthService.resendVerification env lib email).bind fun _ => .ret none
  | requestPasswordReset email =>
    (AuthService.requestPasswordReset env lib email).bind fun _ => .ret none
  | resetUserPassword token newPassword =>
    (AuthService.resetUserPassword lib token newPassword).bind fun _ => .ret none

/-- Any number of calls of the auth service, as time passes. -/
def authSystem (lib : Lib) (env : Env) : System backend Err (Option AuthResult) World where
  machine := machine lib
  Call := AuthCall
  body := AuthCall.body env lib
  valid _ := True
  env := World.Later

/-! ## What the log says -/

/-- The user that an entry read by the address. -/
def readUser? : BackendEntry → Option User
  | ⟨_, .db (.auth (.findByEmail _)), _, _, .ok (some u), _⟩ => some u
  | _ => none

/-- The refresh token that an entry read. -/
def readRefreshToken? : BackendEntry → Option RefreshToken
  | ⟨_, .db (.auth (.findRefreshTokenByHash _)), _, _, .ok (some r), _⟩ => some r.token
  | _ => none

/-- The auth token that an entry read. -/
def readAuthToken? : BackendEntry → Option AuthToken
  | ⟨_, .db (.auth (.findAuthTokenByHash _)), _, _, .ok (some t), _⟩ => some t
  | _ => none

/-- The time that an entry read. -/
def readTime? : BackendEntry → Option Time
  | ⟨_, .now, _, _, .ok t, _⟩ => some t
  | _ => none

/-- The first time that a call read, by its entries. -/
def firstTime? (l : List BackendEntry) : Option Time := (l.filterMap readTime?).getLast?

/-- The refresh token that an entry exchanged, and the new one. -/
def exchange? : BackendEntry → Option (Id × Id)
  | ⟨_, .db (.auth (.rotateRefreshToken oldId _)), _, .ok (some t), _, _⟩ => some (oldId, t.id)
  | _ => none

/-- What an auth token is used for: which token, for which user, and for which purpose. -/
structure Use where
  tokenId : Id
  userId : Id
  purpose : AuthTokenPurpose
  deriving DecidableEq

/-- The use that an entry made of an auth token. -/
def use? : BackendEntry → Option Use
  | ⟨_, .db (.auth (.consumeVerificationTokenAndVerifyUser tokenId userId _)), _, .ok (some _), _,
      _⟩ => some ⟨tokenId, userId, .emailVerification⟩
  | ⟨_, .db (.auth (.consumePasswordResetTokenAndUpdatePassword tokenId userId _ _)), _,
      .ok (some _), _, _⟩ => some ⟨tokenId, userId, .passwordReset⟩
  | _ => none

/-- The auth token that an entry issued. -/
def issued? : BackendEntry → Option AuthToken
  | ⟨_, .db (.auth (.createAuthToken _)), _, .ok t, _, _⟩ => some t
  | ⟨_, .db (.auth (.createUserWithAuthData data)), pre, .ok _, _, _⟩ =>
    some ⟨pre.db.nextId + 2, pre.db.nextId, .emailVerification, data.verificationTokenHash,
      data.verificationTokenExpiresAt, none, pre.now⟩
  | _ => none

/-! ## What a call knows from its entries -/

/-- The entries of a call show that it issued no auth token yet, and drew the random value of which
this is the digest. -/
def FirstIssue (lib : Lib) (l : List BackendEntry) (tokenHash : Id) : Prop :=
  l.filterMap issued? = [] ∧ ∃ d ∈ draws l, tokenHash = lib.sha256 d.2

/-- The entries of a call show that it read the token before, unused and not over yet. -/
def Validated (l : List BackendEntry) (tokenId userId : Id) (purpose : AuthTokenPurpose)
    (now : Time) : Prop :=
  ∃ t, l.filterMap readAuthToken? = [t] ∧ t.id = tokenId ∧ t.userId = userId ∧
    t.purpose = purpose ∧ t.consumedAt = none ∧ firstTime? l = some now ∧ now < t.expiresAt

/-- What an operation of an auth call rests on, given the entries of the call. -/
def AuthOpStep (lib : Lib) (l : List BackendEntry) : AuthOp → Prop
  | .rotateRefreshToken oldId data =>
    ∃ t, l.filterMap readRefreshToken? = [t] ∧ t.id = oldId ∧ t.userId = data.userId ∧
      t.revokedAt = none ∧ ∃ now, firstTime? l = some now ∧ now < t.expiresAt
  | .createRefreshToken data => ∃ u, l.filterMap readUser? = [u] ∧ u.id = data.userId
  | .createAuthToken data =>
    (∃ u, l.filterMap readUser? = [u] ∧ u.id = data.userId) ∧ FirstIssue lib l data.tokenHash
  | .createUserWithAuthData data => FirstIssue lib l data.verificationTokenHash
  | .consumeVerificationTokenAndVerifyUser tokenId userId now =>
    Validated l tokenId userId .emailVerification now
  | .consumePasswordResetTokenAndUpdatePassword tokenId userId _ now =>
    Validated l tokenId userId .passwordReset now
  | _ => True

/-- What an operation of an auth call rests on. -/
def AuthStep (lib : Lib) (l : List BackendEntry) : Op → Prop
  | .db (.auth o) => AuthOpStep lib l o
  | .db _ => False
  | .redis _ _ => False
  | _ => True

/-- How an auth call ends, by its entries: who was handed a new session for a refresh token
exchanged the token, and whose link was accepted used it. -/
def AuthEnd (lib : Lib) (c : AuthCall) (r : Except Err (Option AuthResult))
    (l : List BackendEntry) :
    Prop :=
  match c, r with
  | .refresh refreshToken, .ok _ => ∃ t ∈ l.filterMap readRefreshToken?,
    t.tokenHash = lib.sha256 refreshToken ∧ ∃ x ∈ l.filterMap exchange?, x.1 = t.id
  | .verifyEmailAddress token, .ok _ => ∃ t ∈ l.filterMap readAuthToken?,
    t.tokenHash = lib.sha256 token ∧ ⟨t.id, t.userId, .emailVerification⟩ ∈ l.filterMap use?
  | .resetUserPassword token _, .ok _ => ∃ t ∈ l.filterMap readAuthToken?,
    t.tokenHash = lib.sha256 token ∧ ⟨t.id, t.userId, .passwordReset⟩ ∈ l.filterMap use?
  | _, _ => True

/-- The operations that rest on nothing. -/
def Op.AuthPlain : Op → Prop
  | .db (.auth (.rotateRefreshToken _ _)) => False
  | .db (.auth (.createRefreshToken _)) => False
  | .db (.auth (.createAuthToken _)) => False
  | .db (.auth (.createUserWithAuthData _)) => False
  | .db (.auth (.consumeVerificationTokenAndVerifyUser _ _ _)) => False
  | .db (.auth (.consumePasswordResetTokenAndUpdatePassword _ _ _ _)) => False
  | .db (.auth _) => True
  | .db _ => False
  | .redis _ _ => False
  | _ => True

/-- An operation without tokens asks for nothing. -/
theorem Op.AuthPlain.authStep {o : Op} (h : o.AuthPlain) (lib : Lib) (l : List BackendEntry) :
    AuthStep lib l o := by
  cases o with
  | db d =>
    cases d with
    | auth a => cases a <;> trivial
    | _ => exact h.elim
  | redis caller c => exact h.elim
  | _ => trivial

/-! ## The programs keep to it -/

section

variable {env : Env} {lib : Lib} {pid : ℕ}

/-- A call that failed hands out nothing. -/
theorem authEnd_error (c : AuthCall) (e : Err) (l : List BackendEntry) :
    AuthEnd lib c (.error e) l := by
  cases c <;> trivial

/-- A part of a call whose operations rest on nothing. -/
theorem wp_authPlain {α : Type} {Q : Except Err α → List BackendEntry → Prop} {p : Act α}
    (hp : p.Issues Op.AuthPlain) (hQ : ∀ r l, Q r l) (l : List BackendEntry) :
    wp ((machine lib).ownLog pid (AuthStep lib)) Q p l :=
  wp_ownLog_of_issues (I := fun _ => True) hp (fun l _ _ ho => ho.authStep lib l)
    (fun _ _ _ _ _ _ _ _ _ => trivial) (fun r l _ => hQ r l) trivial

/-- A mail uses no tokens. -/
theorem issues_dispatch (m : Mail) : (EmailService.dispatch m).Issues Op.AuthPlain := by
  refine .bind (Prog.Issues.attempt ((Prog.issues_perform _ _).mpr trivial)) fun r => ?_
  cases r with
  | ok _ => exact (Prog.issues_perform _ _).mpr trivial
  | error _ => exact .bind ((Prog.issues_perform _ _).mpr trivial) fun _ => trivial

/-- A mail that may fail uses no tokens. -/
theorem issues_trySend (operation : EmailOperation) (user : SafeUser) (rawToken : Id) :
    (AuthService.trySend operation user rawToken).Issues Op.AuthPlain :=
  .bind (issues_dispatch _).attempt fun _ => trivial

/-- The work for an unknown address uses no tokens. -/
theorem issues_dummyAuthWork : (AuthService.dummyAuthWork lib).Issues Op.AuthPlain :=
  .bind ((Prog.issues_perform _ _).mpr trivial) fun _ =>
    .bind ((Prog.issues_perform _ _).mpr trivial) fun _ => trivial

/-- What `register` writes. -/
theorem register_wp {Q : Except Err AuthResult → List BackendEntry → Prop} (hQ : ∀ r l, Q r l)
    (name email password : String) :
    wp ((machine lib).ownLog pid (AuthStep lib)) Q
      (AuthService.register env lib name email password) [] := by
  have herr : ∀ (e : Err) (l : List BackendEntry), Q (.error e) l := fun e l => hQ _ l
  refine wp_ownLog_bind herr trivial fun _ _ existing _ _ => ?_
  refine wp_ensure_bind.mpr ⟨fun _ => ?_, fun _ => hQ _ _⟩
  refine wp_ownLog_bind herr trivial fun _ _ passwordHash _ _ => ?_
  refine wp_ownLog_bind herr trivial fun _ _ refreshToken _ _ => ?_
  refine wp_ownLog_bind herr trivial fun _ _ verificationToken _ hdrawn => ?_
  obtain rfl := hdrawn.did_eq
  refine wp_bind.mpr (wp_ownLog_bind (by exact herr) trivial fun _ _ now _ _ => ?_)
  refine wp_bind.mpr (wp_ownLog_bind (by exact herr) trivial fun _ _ later _ _ => ?_)
  refine wp_ownLog_bind herr ⟨rfl, (pid, verificationToken), List.mem_cons_self, rfl⟩
    fun _ _ user _ _ => ?_
  refine wp_authPlain ?_ hQ _
  refine .bind ((Prog.issues_perform _ _).mpr trivial) fun _ => ?_
  exact .bind (issues_trySend _ _ _) fun _ => trivial

/-- `logout` exchanges and consumes nothing. -/
theorem issues_logout (refreshToken : Id) :
    (AuthService.logout lib refreshToken).Issues Op.AuthPlain := by
  refine .bind ((Prog.issues_perform _ _).mpr trivial) fun record => ?_
  cases record with
  | none => trivial
  | some record => exact .bind ((Prog.issues_perform _ _).mpr trivial) fun _ => trivial

/-- `updateCurrentUser` exchanges and consumes nothing. -/
theorem issues_updateCurrentUser (userId : Id) (name email : Option String) :
    (AuthService.updateCurrentUser lib userId name email).Issues Op.AuthPlain := by
  have hop : ∀ {o : Op}, o.AuthPlain → (Op.perform o).Issues Op.AuthPlain := fun h =>
    (Prog.issues_perform _ _).mpr h
  have hfree : (AuthService.assertEmailFree userId email).Issues Op.AuthPlain := by
    cases email with
    | none => trivial
    | some address => exact .bind (hop trivial) fun _ => Prog.issues_ensure _ _ _
  refine .bind (hop trivial) fun user => .bind (Prog.issues_expect _ _ _) fun user => ?_
  refine .bind hfree fun _ => .bind (.bind (hop trivial) fun existing => ?_) fun updated =>
    Prog.issues_expect _ _ _
  split
  · exact .bind (hop trivial) fun _ => trivial
  · trivial

/-- What `login` writes. -/
theorem login_wp {Q : Except Err AuthResult → List BackendEntry → Prop} (hQ : ∀ r l, Q r l)
    (email password : String) :
    wp ((machine lib).ownLog pid (AuthStep lib)) Q
      (AuthService.login env lib email password) [] := by
  have herr : ∀ (e : Err) (l : List BackendEntry), Q (.error e) l := fun e l => hQ _ l
  refine wp_ownLog_bind herr trivial fun w did user w' _ => ?_
  refine wp_expect_bind.mpr ⟨?_, fun _ => hQ _ _⟩
  rintro u rfl
  refine wp_expect_bind.mpr ⟨fun passwordHash _ => ?_, fun _ => hQ _ _⟩
  refine wp_ownLog_bind herr trivial fun _ _ valid _ _ => ?_
  refine wp_ensure_bind.mpr ⟨fun _ => ?_, fun _ => hQ _ _⟩
  refine wp_bind.mpr (wp_ownLog_bind (by exact herr) trivial fun _ _ rawToken _ _ => ?_)
  refine wp_bind.mpr (wp_ownLog_bind (by exact herr) trivial fun _ _ now _ _ => ?_)
  refine wp_ownLog_bind (by exact herr) ⟨u, rfl, rfl⟩ fun _ _ _ _ _ => ?_
  exact hQ _ _

/-- The record that a refresh token finds has its digest. -/
theorem readRefreshToken_hash {tokenHash : Id} {record : RefreshTokenRecord} {w w' : World}
    {did : Except Err (Option RefreshTokenRecord)}
    (h : (machine lib).Answer (.db (.auth (.findRefreshTokenByHash tokenHash))) w did
      (.ok (some record)) w') : record.token.tokenHash = tokenHash := by
  obtain ⟨-, ⟨c, hc⟩ | hc⟩ := answer_read (o := .auth (.findRefreshTokenByHash tokenHash)) rfl h
  · obtain ⟨t, ht, rfl⟩ := Option.map_eq_some_iff.mp (Except.ok.inj hc).symm
    simpa using List.find?_some ht
  · cases hc

/-- The record that an auth token finds has its digest. -/
theorem readAuthToken_hash {tokenHash : Id} {t : AuthToken} {w w' : World}
    {did : Except Err (Option AuthToken)}
    (h : (machine lib).Answer (.db (.auth (.findAuthTokenByHash tokenHash))) w did
      (.ok (some t)) w') : t.tokenHash = tokenHash := by
  obtain ⟨-, ⟨c, hc⟩ | hc⟩ := answer_read (o := .auth (.findAuthTokenByHash tokenHash)) rfl h
  · simpa using List.find?_some (Except.ok.inj hc).symm
  · cases hc

/-- What `refresh` writes, and what it has done when it returns. -/
theorem refresh_wp (refreshToken : Id) :
    wp ((machine lib).ownLog pid (AuthStep lib))
      (fun r l => ∀ a, r = .ok a → AuthEnd lib (.refresh refreshToken) (.ok (some a)) l)
      (AuthService.refresh env lib refreshToken) [] := by
  have herr : ∀ (e : Err) (l : List BackendEntry) (a : AuthResult),
      (.error e : Except Err AuthResult) = .ok a →
        AuthEnd lib (.refresh refreshToken) (.ok (some a)) l := fun _ _ _ h => nomatch h
  refine wp_ownLog_bind herr trivial fun w did found w' hfound => ?_
  refine wp_expect_bind.mpr ⟨?_, fun _ => herr _ _⟩
  rintro record rfl
  -- The token that was found is the one that was presented.
  have hhash := readRefreshToken_hash hfound
  refine wp_ensure_bind.mpr ⟨fun hrevoked => ?_, fun _ => herr _ _⟩
  refine wp_ownLog_bind herr trivial fun _ _ now _ _ => ?_
  refine wp_ensure_bind.mpr ⟨fun hnow => ?_, fun _ => herr _ _⟩
  refine wp_ownLog_bind herr trivial fun _ _ nextToken _ _ => ?_
  refine wp_bind.mpr (wp_ownLog_bind herr trivial fun _ _ later _ _ => ?_)
  -- All three checks have passed when the rotation is issued.
  refine wp_ownLog_bind herr ⟨record.token, rfl, rfl, rfl, hrevoked, now, rfl, hnow⟩
    fun _ did rotated _ hrotated => ?_
  refine wp_expect_bind.mpr ⟨?_, fun _ => herr _ _⟩
  rintro t rfl
  obtain rfl := hrotated.did_eq
  rintro a -
  exact ⟨record.token, List.mem_singleton_self _, hhash, (record.token.id, t.id),
    List.mem_cons_self, rfl⟩

/-- What a link that was accepted shows. -/
def Accepted (lib : Lib) (token : Id) (purpose : AuthTokenPurpose) (l : List BackendEntry) : Prop :=
  ∃ t ∈ l.filterMap readAuthToken?, t.tokenHash = lib.sha256 token ∧
    ⟨t.id, t.userId, purpose⟩ ∈ l.filterMap use?

/-- What `verifyEmailAddress` writes, and what it has done when it returns. -/
theorem verifyEmailAddress_wp (token : Id) :
    wp ((machine lib).ownLog pid (AuthStep lib))
      (fun r l => ∀ a, r = .ok a → Accepted lib token .emailVerification l)
      (AuthService.verifyEmailAddress lib token) [] := by
  have herr : ∀ (e : Err) (l : List BackendEntry) (a : String),
      (.error e : Except Err String) = .ok a → Accepted lib token .emailVerification l :=
    fun _ _ _ h => nomatch h
  refine wp_ownLog_bind herr trivial fun w did found w' hfound => ?_
  refine wp_ownLog_bind herr trivial fun _ _ now _ _ => ?_
  refine wp_expect_bind.mpr ⟨?_, fun _ => herr _ _⟩
  rintro record rfl
  have hhash := readAuthToken_hash hfound
  refine wp_ensure_bind.mpr ⟨fun hpurpose => ?_, fun _ => herr _ _⟩
  refine wp_ensure_bind.mpr ⟨fun hconsumed => ?_, fun _ => herr _ _⟩
  refine wp_ensure_bind.mpr ⟨fun hnow => ?_, fun _ => herr _ _⟩
  -- The token was found by its hash and passed the three checks.
  refine wp_ownLog_bind herr ⟨record, rfl, rfl, rfl, hpurpose, hconsumed, rfl, hnow⟩
    fun _ did verified _ hverified => ?_
  refine wp_expect_bind.mpr ⟨?_, fun _ => herr _ _⟩
  rintro user rfl
  obtain rfl := hverified.did_eq
  rintro a -
  exact ⟨record, List.mem_singleton_self _, hhash, List.mem_cons_self⟩

/-- What `resetUserPassword` writes, and what it has done when it returns. -/
theorem resetUserPassword_wp (token : Id) (newPassword : String) :
    wp ((machine lib).ownLog pid (AuthStep lib))
      (fun r l => ∀ a, r = .ok a → Accepted lib token .passwordReset l)
      (AuthService.resetUserPassword lib token newPassword) [] := by
  have herr : ∀ (e : Err) (l : List BackendEntry) (a : String),
      (.error e : Except Err String) = .ok a → Accepted lib token .passwordReset l :=
    fun _ _ _ h => nomatch h
  refine wp_ownLog_bind herr trivial fun w did found w' hfound => ?_
  refine wp_ownLog_bind herr trivial fun _ _ now _ _ => ?_
  refine wp_expect_bind.mpr ⟨?_, fun _ => herr _ _⟩
  rintro record rfl
  have hhash := readAuthToken_hash hfound
  refine wp_ensure_bind.mpr ⟨fun hpurpose => ?_, fun _ => herr _ _⟩
  refine wp_ensure_bind.mpr ⟨fun hconsumed => ?_, fun _ => herr _ _⟩
  refine wp_ensure_bind.mpr ⟨fun hnow => ?_, fun _ => herr _ _⟩
  refine wp_ownLog_bind herr trivial fun _ _ passwordHash _ _ => ?_
  -- The token was found by its hash and passed the three checks.
  refine wp_ownLog_bind herr ⟨record, rfl, rfl, rfl, hpurpose, hconsumed, rfl, hnow⟩
    fun _ did updated _ hupdated => ?_
  refine wp_expect_bind.mpr ⟨?_, fun _ => herr _ _⟩
  rintro user rfl
  obtain rfl := hupdated.did_eq
  rintro a -
  exact ⟨record, List.mem_singleton_self _, hhash, List.mem_cons_self⟩

/-- What `resendVerification` writes. -/
theorem resendVerification_wp {Q : Except Err String → List BackendEntry → Prop}
    (hQ : ∀ r l, Q r l) (email : String) :
    wp ((machine lib).ownLog pid (AuthStep lib)) Q
      (AuthService.resendVerification env lib email) [] := by
  have herr : ∀ (e : Err) (l : List BackendEntry), Q (.error e) l := fun e l => hQ _ l
  refine wp_ownLog_bind herr trivial fun w did found w' _ => ?_
  cases found with
  | none =>
    refine wp_authPlain ?_ hQ _
    exact .bind issues_dummyAuthWork fun _ => trivial
  | some u =>
    show wp _ _ (if _ then _ else _) _
    split
    · exact hQ _ _
    · refine wp_ownLog_bind herr trivial fun _ _ token _ hdrawn => ?_
      obtain rfl := hdrawn.did_eq
      refine wp_bind.mpr (wp_ownLog_bind (by exact herr) trivial fun _ _ now _ _ => ?_)
      refine wp_ownLog_bind (by exact herr)
        ⟨⟨u, rfl, rfl⟩, rfl, (pid, token), List.mem_cons_self, rfl⟩ fun _ _ _ _ _ => ?_
      refine wp_authPlain ?_ hQ _
      exact .bind (issues_trySend _ _ _) fun _ => trivial

/-- What `requestPasswordReset` writes. -/
theorem requestPasswordReset_wp {Q : Except Err String → List BackendEntry → Prop}
    (hQ : ∀ r l, Q r l) (email : String) :
    wp ((machine lib).ownLog pid (AuthStep lib)) Q (AuthService.requestPasswordReset env lib email)
      [] := by
  have herr : ∀ (e : Err) (l : List BackendEntry), Q (.error e) l := fun e l => hQ _ l
  refine wp_ownLog_bind herr trivial fun w did found w' _ => ?_
  cases found with
  | none =>
    refine wp_authPlain ?_ hQ _
    exact .bind issues_dummyAuthWork fun _ => trivial
  | some u =>
    refine wp_ownLog_bind herr trivial fun _ _ token _ hdrawn => ?_
    obtain rfl := hdrawn.did_eq
    refine wp_bind.mpr (wp_ownLog_bind (by exact herr) trivial fun _ _ now _ _ => ?_)
    refine wp_ownLog_bind (by exact herr)
      ⟨⟨u, rfl, rfl⟩, rfl, (pid, token), List.mem_cons_self, rfl⟩ fun _ _ _ _ _ => ?_
    refine wp_authPlain ?_ hQ _
    exact .bind (issues_trySend _ _ _) fun _ => trivial

/-- Every call of the auth service writes what its entries show it may, and ends as they show. -/
theorem authCall_wp (c : AuthCall) :
    wp ((machine lib).ownLog pid (AuthStep lib)) (AuthEnd lib c) (c.body env lib) [] := by
  -- What a call answers with besides its tokens does not matter.
  have hforget : ∀ {α : Type} {p : Act α} {g : α → Option AuthResult},
      wp ((machine lib).ownLog pid (AuthStep lib))
        (fun r l => ∀ a, r = .ok a → AuthEnd lib c (.ok (g a)) l)
        p [] →
      wp ((machine lib).ownLog pid (AuthStep lib)) (AuthEnd lib c)
        (p.bind fun a => .ret (g a)) [] := by
    intro α p g hp
    refine wp_bind.mpr (wp_mono ?_ hp)
    rintro (e | a) l h
    · exact authEnd_error c e l
    · exact h a rfl
  cases c with
  | register name email password =>
    exact hforget (register_wp (fun _ _ _ _ => trivial) name email password)
  | login email password => exact hforget (login_wp (fun _ _ _ _ => trivial) email password)
  | refresh refreshToken => exact hforget (refresh_wp refreshToken)
  | logout refreshToken =>
    exact hforget (wp_authPlain (issues_logout _) (fun _ _ _ _ => trivial) _)
  | updateCurrentUser userId name email =>
    exact hforget (wp_authPlain (issues_updateCurrentUser _ _ _) (fun _ _ _ _ => trivial) _)
  | verifyEmailAddress token => exact hforget (verifyEmailAddress_wp token)
  | resendVerification email =>
    exact hforget (resendVerification_wp (fun _ _ _ _ => trivial) email)
  | requestPasswordReset email =>
    exact hforget (requestPasswordReset_wp (fun _ _ _ _ => trivial) email)
  | resetUserPassword token newPassword => exact hforget (resetUserPassword_wp token newPassword)

end

end SplitBill
