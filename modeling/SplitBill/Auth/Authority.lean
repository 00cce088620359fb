import SplitBill.Auth.Tokens

/-!
# Who may change what

Which call of the auth service may write which row. A session is ended only by a call that presents
its token, or by a reset of its user's password with a token that was mailed for it; a session is
begun only for a user who registers, who gives the password, or who presents a token of theirs; and
a column of a user is changed only by the call that is for it, with the user's token where the call
needs one. All of that holds of every step of every run, however the calls interleave.
-/

namespace SplitBill

open Interleave

variable {lib : Lib} {env : Env}

/-! ## What entitles a call -/

/-- The entries of a call show that it holds the raw value of a refresh token. -/
def HoldsSession (lib : Lib) (l : List BackendEntry) (id raw : Id) : Prop :=
  ∃ t ∈ l.filterMap readRefreshToken?, t.id = id ∧ t.tokenHash = lib.sha256 raw

/-- The entries of a call show that it holds the raw value of an auth token, which had not expired
at the time `now` that the call read first. -/
def HoldsToken (lib : Lib) (l : List BackendEntry) (tokenId userId : Id)
    (purpose : AuthTokenPurpose) (raw : Id) (now : Time) : Prop :=
  firstTime? l = some now ∧ ∃ t ∈ l.filterMap readAuthToken?, t.id = tokenId ∧
    t.userId = userId ∧ t.purpose = purpose ∧ t.tokenHash = lib.sha256 raw ∧ now < t.expiresAt

/-- The entries of a call show that this is the user who has the address. -/
def Addresses (l : List BackendEntry) (userId : Id) (email : String) (u : User) : Prop :=
  u ∈ l.filterMap readUser? ∧ u.id = userId ∧ u.email = email

/-- What entitles a call to an operation, given the entries of the call. -/
def EntitledTo (lib : Lib) (c : AuthCall) (l : List BackendEntry) : AuthOp → Prop
  | .rotateRefreshToken oldId _ => ∃ raw, c = .refresh raw ∧ HoldsSession lib l oldId raw
  | .revokeRefreshTokenById id => ∃ raw, c = .logout raw ∧ HoldsSession lib l id raw
  | .createRefreshToken data => ∃ email password u hash, c = .login email password ∧
    Addresses l data.userId email u ∧ u.passwordHash = some hash ∧
    lib.bcryptCompare password hash = true
  | .createUserWithAuthData data => ∃ password salt,
    c = .register data.name data.email password ∧ data.passwordHash = lib.bcryptHash password salt
  | .createAuthToken data => ∃ email u, Addresses l data.userId email u ∧
    (c = .resendVerification email ∧ data.purpose = .emailVerification ∨
      c = .requestPasswordReset email ∧ data.purpose = .passwordReset)
  | .update id data => c = .updateCurrentUser id data.name data.email ∧
    (data.emailVerifiedAt = none ∨ data.emailVerifiedAt = some none)
  | .consumeVerificationTokenAndVerifyUser tokenId userId now => ∃ raw,
    c = .verifyEmailAddress raw ∧ HoldsToken lib l tokenId userId .emailVerification raw now
  | .consumePasswordResetTokenAndUpdatePassword tokenId userId passwordHash now =>
    ∃ raw newPassword salt, c = .resetUserPassword raw newPassword ∧
      passwordHash = lib.bcryptHash newPassword salt ∧
      HoldsToken lib l tokenId userId .passwordReset raw now
  | _ => True

/-- What entitles a call to an operation. -/
def Entitled (lib : Lib) (c : AuthCall) (l : List BackendEntry) : Op → Prop
  | .db (.auth o) => EntitledTo lib c l o
  | _ => True

/-- An operation that leaves the database alone. -/
abbrev Op.OffDb : Op → Prop := Op.OnDb fun _ => False

section Programs

variable {pid : ℕ} {c : AuthCall} {l : List BackendEntry}

/-- A part of a call that leaves the database alone. -/
theorem entitled_of_quiet {α : Type} {p : Act α} (hp : p.Issues Op.OffDb) :
    wp ((machine lib).ownLog pid (Entitled lib c)) (fun _ _ => True) p l := by
  refine wp_ownLog_of_issues (I := fun _ => True) hp ?_ (fun _ _ _ _ _ _ _ _ _ => trivial)
    (fun _ _ _ => trivial) trivial
  intro l o _ ho
  cases o with
  | db d => exact ho.elim
  | _ => trivial

/-- A mail leaves the database alone. -/
theorem quiet_trySend (operation : EmailOperation) (user : SafeUser) (rawToken : Id) :
    (AuthService.trySend operation user rawToken).Issues Op.OffDb := by
  refine .bind (.attempt (.bind (.attempt (issues_op trivial)) fun r => ?_)) fun _ => trivial
  cases r with
  | ok _ => exact issues_op trivial
  | error _ => exact .bind (issues_op trivial) fun _ => trivial

/-- The work for an unknown address leaves the database alone. -/
theorem quiet_dummyAuthWork :
    (AuthService.dummyAuthWork lib).Issues Op.OffDb :=
  .bind (issues_op trivial) fun _ => .bind (issues_op trivial) fun _ => trivial

/-- The user that is found by an address has it. -/
theorem readUser_email {email : String} {u : User} {w w' : World} {did : Except Err (Option User)}
    (h : (machine lib).Answer (.db (.auth (.findByEmail email))) w did (.ok (some u)) w') :
    u.email = email := by
  obtain ⟨-, ⟨c, hc⟩ | hc⟩ := answer_read (o := .auth (.findByEmail email)) rfl h
  · simpa using List.find?_some (Except.ok.inj hc).symm
  · cases hc

/-- What `bcrypt.hash` answers is a hash of the password. -/
theorem bcryptHash_answer {password hash : String} {w w' : World} {did : Except Err String}
    (h : (machine lib).Answer (.bcryptHash password) w did (.ok hash) w') :
    ∃ salt, hash = lib.bcryptHash password salt := by
  rcases answer_cases h with ⟨c, rfl, -, hseen | ⟨e, -, hseen⟩⟩ | ⟨-, e, -, -, hseen⟩
  · exact ⟨w.random, Except.ok.inj hseen⟩
  · cases hseen
  · cases hseen

/-- What `bcrypt.compare` answers. -/
theorem bcryptCompare_answer {password hash : String} {valid : Bool} {w w' : World}
    {did : Except Err Bool}
    (h : (machine lib).Answer (.bcryptCompare password hash) w did (.ok valid) w') :
    valid = lib.bcryptCompare password hash := by
  rcases answer_cases h with ⟨c, rfl, -, hseen | ⟨e, -, hseen⟩⟩ | ⟨-, e, -, -, hseen⟩
  · exact Except.ok.inj hseen
  · cases hseen
  · cases hseen

/-- What `register` writes it is entitled to. -/
theorem register_entitled (name email password : String) :
    wp ((machine lib).ownLog pid (Entitled lib (.register name email password)))
      (fun _ _ => True) (AuthService.register env lib name email password) [] := by
  have herr : ∀ (e : Err) (l : List BackendEntry), True := fun _ _ => trivial
  refine wp_ownLog_bind herr trivial fun _ _ existing _ _ => ?_
  refine wp_ensure_bind.mpr ⟨fun _ => ?_, fun _ => trivial⟩
  refine wp_ownLog_bind herr trivial fun _ _ passwordHash _ hhash => ?_
  obtain ⟨salt, rfl⟩ := bcryptHash_answer hhash
  refine wp_ownLog_bind herr trivial fun _ _ refreshToken _ _ => ?_
  refine wp_ownLog_bind herr trivial fun _ _ verificationToken _ _ => ?_
  refine wp_bind.mpr (wp_ownLog_bind (by exact herr) trivial fun _ _ now _ _ => ?_)
  refine wp_bind.mpr (wp_ownLog_bind (by exact herr) trivial fun _ _ later _ _ => ?_)
  refine wp_ownLog_bind herr ⟨password, salt, rfl, rfl⟩ fun _ _ user _ _ => ?_
  apply entitled_of_quiet
  exact .bind (issues_op trivial) fun _ => .bind (quiet_trySend _ _ _) fun _ => trivial

/-- What `login` writes it is entitled to. -/
theorem login_entitled (email password : String) :
    wp ((machine lib).ownLog pid (Entitled lib (.login email password))) (fun _ _ => True)
      (AuthService.login env lib email password) [] := by
  have herr : ∀ (e : Err) (l : List BackendEntry), True := fun _ _ => trivial
  refine wp_ownLog_bind herr trivial fun w did user w' huser => ?_
  refine wp_expect_bind.mpr ⟨?_, fun _ => trivial⟩
  rintro u rfl
  refine wp_expect_bind.mpr ⟨fun passwordHash hsome => ?_, fun _ => trivial⟩
  refine wp_ownLog_bind herr trivial fun _ _ valid _ hcompare => ?_
  obtain rfl := bcryptCompare_answer hcompare
  refine wp_ensure_bind.mpr ⟨fun hvalid => ?_, fun _ => trivial⟩
  refine wp_bind.mpr (wp_ownLog_bind (by exact herr) trivial fun _ _ rawToken _ _ => ?_)
  refine wp_bind.mpr (wp_ownLog_bind (by exact herr) trivial fun _ _ now _ _ => ?_)
  refine wp_ownLog_bind (by exact herr) ⟨email, password, u, passwordHash, rfl,
    ⟨List.mem_singleton_self _, rfl, readUser_email huser⟩, hsome, hvalid⟩ fun _ _ _ _ _ => ?_
  trivial

/-- What `refresh` writes it is entitled to. -/
theorem refresh_entitled (refreshToken : Id) :
    wp ((machine lib).ownLog pid (Entitled lib (.refresh refreshToken))) (fun _ _ => True)
      (AuthService.refresh env lib refreshToken) [] := by
  have herr : ∀ (e : Err) (l : List BackendEntry), True := fun _ _ => trivial
  refine wp_ownLog_bind herr trivial fun w did found w' hfound => ?_
  refine wp_expect_bind.mpr ⟨?_, fun _ => trivial⟩
  rintro record rfl
  refine wp_ensure_bind.mpr ⟨fun _ => ?_, fun _ => trivial⟩
  refine wp_ownLog_bind herr trivial fun _ _ now _ _ => ?_
  refine wp_ensure_bind.mpr ⟨fun _ => ?_, fun _ => trivial⟩
  refine wp_ownLog_bind herr trivial fun _ _ nextToken _ _ => ?_
  refine wp_bind.mpr (wp_ownLog_bind herr trivial fun _ _ later _ _ => ?_)
  refine wp_ownLog_bind herr ⟨refreshToken, rfl, record.token, List.mem_singleton_self _, rfl,
    readRefreshToken_hash hfound⟩ fun _ _ rotated _ _ => ?_
  exact wp_expect_bind.mpr ⟨fun _ _ => trivial, fun _ => trivial⟩

/-- What `logout` writes it is entitled to. -/
theorem logout_entitled (refreshToken : Id) :
    wp ((machine lib).ownLog pid (Entitled lib (.logout refreshToken))) (fun _ _ => True)
      (AuthService.logout lib refreshToken) [] := by
  have herr : ∀ (e : Err) (l : List BackendEntry), True := fun _ _ => trivial
  refine wp_ownLog_bind herr trivial fun w did found w' hfound => ?_
  cases found with
  | none => trivial
  | some record =>
    refine wp_ownLog_bind herr ⟨refreshToken, rfl, record.token, List.mem_singleton_self _, rfl,
      readRefreshToken_hash hfound⟩ fun _ _ _ _ _ => ?_
    trivial

/-- What `updateCurrentUser` writes it is entitled to. -/
theorem updateCurrentUser_entitled (userId : Id) (name email : Option String) :
    wp ((machine lib).ownLog pid (Entitled lib (.updateCurrentUser userId name email)))
      (fun _ _ => True) (AuthService.updateCurrentUser lib userId name email) [] := by
  have herr : ∀ (e : Err) (l : List BackendEntry), True := fun _ _ => trivial
  refine wp_ownLog_bind herr trivial fun _ _ user _ _ => ?_
  refine wp_expect_bind.mpr ⟨fun u _ => ?_, fun _ => trivial⟩
  -- Whether or not the address changes, the rest is the update with the user's own id.
  have hrest : ∀ l, wp ((machine lib).ownLog pid (Entitled lib
      (.updateCurrentUser userId name email))) (fun _ _ => True) (do
        let emailChanged : Bool := email.any fun address =>
          lib.toLowerCase address ≠ lib.toLowerCase u.email
        let updated ← AuthRepository.update userId
          { name, email, emailVerifiedAt := if emailChanged then some none else none }
        Prog.expect updated AuthService.userNotFound) l := by
    intro l
    refine wp_bind.mpr (wp_ownLog_bind (by exact herr) trivial fun _ _ existing _ _ => ?_)
    have hend : ∀ (r : Option SafeUser) (l : List BackendEntry),
        wp ((machine lib).ownLog pid (Entitled lib (.updateCurrentUser userId name email)))
          (fun _ _ => True) (Prog.expect r AuthService.userNotFound) l :=
      fun r l => wp_expect.mpr ⟨fun _ _ => trivial, fun _ => trivial⟩
    cases existing with
    | false => apply hend
    | true =>
      refine wp_ownLog_bind (by exact herr) ⟨rfl, ?_⟩ fun _ _ updated _ _ => hend _ _
      show (if _ then _ else _) = _ ∨ (if _ then _ else _) = _
      split
      · exact .inr rfl
      · exact .inl rfl
  cases email with
  | none => exact hrest _
  | some address =>
    refine wp_bind.mpr (wp_ownLog_bind (by exact herr) trivial fun _ _ existing _ _ => ?_)
    exact wp_ensure.mpr ⟨fun _ => hrest _, fun _ => trivial⟩

/-- What `verifyEmailAddress` writes it is entitled to. -/
theorem verifyEmailAddress_entitled (token : Id) :
    wp ((machine lib).ownLog pid (Entitled lib (.verifyEmailAddress token))) (fun _ _ => True)
      (AuthService.verifyEmailAddress lib token) [] := by
  have herr : ∀ (e : Err) (l : List BackendEntry), True := fun _ _ => trivial
  refine wp_ownLog_bind herr trivial fun w did found w' hfound => ?_
  refine wp_ownLog_bind herr trivial fun _ _ now _ _ => ?_
  refine wp_expect_bind.mpr ⟨?_, fun _ => trivial⟩
  rintro record rfl
  refine wp_ensure_bind.mpr ⟨fun hpurpose => ?_, fun _ => trivial⟩
  refine wp_ensure_bind.mpr ⟨fun _ => ?_, fun _ => trivial⟩
  refine wp_ensure_bind.mpr ⟨fun hexpiry => ?_, fun _ => trivial⟩
  refine wp_ownLog_bind herr ⟨token, rfl, rfl, record,
    List.mem_singleton_self _, rfl, rfl, hpurpose, readAuthToken_hash hfound, hexpiry⟩
    fun _ _ verified _ _ => ?_
  exact wp_expect_bind.mpr ⟨fun _ _ => trivial, fun _ => trivial⟩

/-- What `resetUserPassword` writes it is entitled to. -/
theorem resetUserPassword_entitled (token : Id) (newPassword : String) :
    wp ((machine lib).ownLog pid (Entitled lib (.resetUserPassword token newPassword)))
      (fun _ _ => True) (AuthService.resetUserPassword lib token newPassword) [] := by
  have herr : ∀ (e : Err) (l : List BackendEntry), True := fun _ _ => trivial
  refine wp_ownLog_bind herr trivial fun w did found w' hfound => ?_
  refine wp_ownLog_bind herr trivial fun _ _ now _ _ => ?_
  refine wp_expect_bind.mpr ⟨?_, fun _ => trivial⟩
  rintro record rfl
  refine wp_ensure_bind.mpr ⟨fun hpurpose => ?_, fun _ => trivial⟩
  refine wp_ensure_bind.mpr ⟨fun _ => ?_, fun _ => trivial⟩
  refine wp_ensure_bind.mpr ⟨fun hexpiry => ?_, fun _ => trivial⟩
  refine wp_ownLog_bind herr trivial fun _ _ passwordHash _ hhash => ?_
  obtain ⟨salt, rfl⟩ := bcryptHash_answer hhash
  refine wp_ownLog_bind herr ⟨token, newPassword, salt, rfl, rfl, rfl, record,
    List.mem_singleton_self _, rfl, rfl, hpurpose, readAuthToken_hash hfound, hexpiry⟩
    fun _ _ updated _ _ => ?_
  exact wp_expect_bind.mpr ⟨fun _ _ => trivial, fun _ => trivial⟩

/-- What `resendVerification` writes it is entitled to. -/
theorem resendVerification_entitled (email : String) :
    wp ((machine lib).ownLog pid (Entitled lib (.resendVerification email))) (fun _ _ => True)
      (AuthService.resendVerification env lib email) [] := by
  have herr : ∀ (e : Err) (l : List BackendEntry), True := fun _ _ => trivial
  refine wp_ownLog_bind herr trivial fun w did found w' hfound => ?_
  cases found with
  | none => exact entitled_of_quiet (.bind quiet_dummyAuthWork fun _ => trivial)
  | some u =>
    show wp _ _ (if _ then _ else _) _
    split
    · trivial
    · refine wp_ownLog_bind herr trivial fun _ _ token _ _ => ?_
      refine wp_bind.mpr (wp_ownLog_bind (by exact herr) trivial fun _ _ now _ _ => ?_)
      refine wp_ownLog_bind (by exact herr) ⟨email, u, ⟨List.mem_singleton_self _, rfl,
        readUser_email hfound⟩, .inl ⟨rfl, rfl⟩⟩ fun _ _ _ _ _ => ?_
      exact entitled_of_quiet (.bind (quiet_trySend _ _ _) fun _ => trivial)

/-- What `requestPasswordReset` writes it is entitled to. -/
theorem requestPasswordReset_entitled (email : String) :
    wp ((machine lib).ownLog pid (Entitled lib (.requestPasswordReset email))) (fun _ _ => True)
      (AuthService.requestPasswordReset env lib email) [] := by
  have herr : ∀ (e : Err) (l : List BackendEntry), True := fun _ _ => trivial
  refine wp_ownLog_bind herr trivial fun w did found w' hfound => ?_
  cases found with
  | none => exact entitled_of_quiet (.bind quiet_dummyAuthWork fun _ => trivial)
  | some u =>
    refine wp_ownLog_bind herr trivial fun _ _ token _ _ => ?_
    refine wp_bind.mpr (wp_ownLog_bind (by exact herr) trivial fun _ _ now _ _ => ?_)
    refine wp_ownLog_bind (by exact herr) ⟨email, u, ⟨List.mem_singleton_self _, rfl,
      readUser_email hfound⟩, .inr ⟨rfl, rfl⟩⟩ fun _ _ _ _ _ => ?_
    exact entitled_of_quiet (.bind (quiet_trySend _ _ _) fun _ => trivial)

/-- A call of the auth service writes only what it is entitled to. -/
theorem authCall_entitled (c : AuthCall) :
    wp ((machine lib).ownLog pid (Entitled lib c)) (fun _ _ => True) (c.body env lib) [] := by
  have hforget : ∀ {α : Type} {p : Act α} {g : α → Option AuthResult},
      wp ((machine lib).ownLog pid (Entitled lib c)) (fun _ _ => True) p [] →
      wp ((machine lib).ownLog pid (Entitled lib c)) (fun _ _ => True)
        (p.bind fun a => .ret (g a)) [] := by
    intro α p g hp
    refine wp_bind.mpr (wp_mono ?_ hp)
    rintro (e | a) l - <;> trivial
  cases c with
  | register name email password => exact hforget (register_entitled name email password)
  | login email password => exact hforget (login_entitled email password)
  | refresh refreshToken => exact hforget (refresh_entitled refreshToken)
  | logout refreshToken => exact hforget (logout_entitled refreshToken)
  | updateCurrentUser userId name email =>
    exact hforget (updateCurrentUser_entitled userId name email)
  | verifyEmailAddress token => exact hforget (verifyEmailAddress_entitled token)
  | resendVerification email => exact hforget (resendVerification_entitled email)
  | requestPasswordReset email => exact hforget (requestPasswordReset_entitled email)
  | resetUserPassword token newPassword =>
    exact hforget (resetUserPassword_entitled token newPassword)

end Programs

/-! ## What a step accounts for -/

/-- There is an unused token of the user and the purpose with this raw value, which had not expired
at the time `now` that the call read first, by its entries. -/
def Redeemable (lib : Lib) (l : List BackendEntry) (d : Db) (userId : Id)
    (purpose : AuthTokenPurpose) (raw : Id) (now : Time) : Prop :=
  firstTime? l = some now ∧ ∃ a ∈ d.authTokens, a.userId = userId ∧ a.purpose = purpose ∧
    a.consumedAt = none ∧ a.tokenHash = lib.sha256 raw ∧ now < a.expiresAt

/-- Why a call may end a session, by its entries. -/
inductive EndsSession (lib : Lib) (l : List BackendEntry) (d : Db) (t : RefreshToken) :
    AuthCall → Prop
  | refresh (raw : Id) (presented : t.tokenHash = lib.sha256 raw) :
    EndsSession lib l d t (.refresh raw)
  | logout (raw : Id) (presented : t.tokenHash = lib.sha256 raw) :
    EndsSession lib l d t (.logout raw)
  | reset (raw : Id) (newPassword : String) (now : Time)
      (redeemed : Redeemable lib l d t.userId .passwordReset raw now) :
      EndsSession lib l d t (.resetUserPassword raw newPassword)

/-- Why a call may begin a session, in a step from the tables `d` to the tables `d'`, by its
entries. -/
inductive BeginsSession (lib : Lib) (l : List BackendEntry) (d d' : Db) (t : RefreshToken) :
    AuthCall → Prop
  | register (name email password : String) (salt : Id)
      (created : d'.users =
        ⟨t.userId, name, email, some (lib.bcryptHash password salt), none⟩ :: d.users) :
      BeginsSession lib l d d' t (.register name email password)
  | login (email password : String) (u : User) (hash : String)
      (found : Addresses l t.userId email u) (stored : u.passwordHash = some hash)
      (matched : lib.bcryptCompare password hash = true) :
      BeginsSession lib l d d' t (.login email password)
  | refresh (raw : Id) (old : RefreshToken) (row : old ∈ d.refreshTokens)
      (live : old.revokedAt = none) (user : old.userId = t.userId)
      (presented : old.tokenHash = lib.sha256 raw) (ended : old ∉ d'.refreshTokens) :
      BeginsSession lib l d d' t (.refresh raw)

/-- Why a call may give a user another row, by its entries. -/
inductive ChangesUser (lib : Lib) (l : List BackendEntry) (d : Db) (u : User) :
    User → AuthCall → Prop
  | update (name email : Option String) (marker : Option (Option Time))
      (kept : marker = none ∨ marker = some none) :
      ChangesUser lib l d u (Prisma.UserData.applyTo ⟨name, email, marker⟩ u)
        (.updateCurrentUser u.id name email)
  | verify (raw : Id) (now : Time)
      (redeemed : Redeemable lib l d u.id .emailVerification raw now) :
      ChangesUser lib l d u { u with emailVerifiedAt := some now } (.verifyEmailAddress raw)
  | reset (raw : Id) (newPassword : String) (salt : Id) (now : Time)
      (redeemed : Redeemable lib l d u.id .passwordReset raw now) :
      ChangesUser lib l d u { u with passwordHash := some (lib.bcryptHash newPassword salt) }
        (.resetUserPassword raw newPassword)

/-- What was known when an entry of the call `c` was made. -/
structure Justified (lib : Lib) (w₀ : World) (c : AuthCall) (e : BackendEntry)
    (l : List BackendEntry) : Prop where
  sessions : Sessions ⟨e.pre, l⟩
  tokens : Tokens lib w₀ ⟨e.pre, l⟩
  step : AuthStep lib (l.filter (·.pid = e.pid)) e.op
  entitled : Entitled lib c (l.filter (·.pid = e.pid)) e.op
  answer : (machine lib).Answer e.op e.pre e.did e.seen e.post

section Rows

variable {w₀ : World} {c : AuthCall} {e : BackendEntry} {l : List BackendEntry}

/-- The refresh token that a call has read is the row with its id. -/
theorem Justified.session_row (hk : Justified lib w₀ c e l) {r t : RefreshToken}
    (hr : r ∈ (l.filter (·.pid = e.pid)).filterMap readRefreshToken?)
    (ht : t ∈ e.pre.db.refreshTokens) (hid : t.id = r.id) : SameToken r t := by
  obtain ⟨d, hd, hdr⟩ := List.mem_filterMap.mp hr
  obtain ⟨t', ht', hsame⟩ := hk.sessions.kept d (List.mem_of_mem_filter hd) r hdr
  have heq : t = t' := hk.sessions.table.eq_of_id ht ht' (hid.trans hsame.1.symm)
  exact heq ▸ hsame

/-- The raw value that a call holds is that of the row. -/
theorem Justified.session_hash (hk : Justified lib w₀ c e l) {id raw : Id}
    (hholds : HoldsSession lib (l.filter (·.pid = e.pid)) id raw) {t : RefreshToken}
    (ht : t ∈ e.pre.db.refreshTokens) (hid : t.id = id) : t.tokenHash = lib.sha256 raw := by
  obtain ⟨r, hr, hrid, hhash⟩ := hholds
  obtain ⟨-, -, hthash, -⟩ := hk.session_row hr ht (hid.trans hrid.symm)
  exact hthash.trans hhash

/-- The auth token that a call holds is the row. -/
theorem Justified.redeemable (hk : Justified lib w₀ c e l) {tokenId userId raw : Id}
    {purpose : AuthTokenPurpose} {now : Time}
    (hholds : HoldsToken lib (l.filter (·.pid = e.pid)) tokenId userId purpose raw now)
    (hrow : ∃ t ∈ e.pre.db.authTokens, t.id = tokenId ∧ t.consumedAt = none) :
    Redeemable lib (l.filter (·.pid = e.pid)) e.pre.db userId purpose raw now := by
  obtain ⟨hclock, r, hr, hrid, hruser, hrpurpose, hrhash, hexpiry⟩ := hholds
  obtain ⟨a, ha, haid, hunused⟩ := hrow
  obtain ⟨d, hd, hdr⟩ := List.mem_filterMap.mp hr
  obtain ⟨i, hi, hir⟩ := hk.tokens.kept d (List.mem_of_mem_filter hd) r hdr
  obtain ⟨j, hj, hja⟩ := hk.tokens.exists_of_row ha
  -- Both are the token that was issued with this id.
  have hij : i = j := hk.tokens.eq_of_id hi hj (by rw [← hir.1, ← hja.1, hrid, haid])
  subst hij
  obtain ⟨-, hiuser, hipurpose, hihash, hiexpires, -⟩ := hir
  obtain ⟨-, hauser, hapurpose, hahash, haexpires, -⟩ := hja
  refine ⟨hclock, a, ha, ?_, ?_, hunused, ?_, ?_⟩
  · rw [hauser, ← hiuser, hruser]
  · rw [hapurpose, ← hipurpose, hrpurpose]
  · rw [hahash, ← hihash, hrhash]
  · rw [haexpires, ← hiexpires]
    exact hexpiry

/-- A row is left alone, or it is live and selected, and is revoked. -/
theorem revokeWhere_cases {p : RefreshToken → Bool} (now : Time) {rows : List RefreshToken}
    {t : RefreshToken} (ht : t ∈ rows) : t ∈ revokeWhere p now rows ∨
      p t = true ∧ t.revokedAt = none ∧
        { t with revokedAt := some now } ∈ revokeWhere p now rows := by
  by_cases hsel : p t = true ∧ t.revokedAt = none
  · exact .inr ⟨hsel.1, hsel.2, mem_revokeWhere.mpr ⟨t, ht, .inl ⟨hsel.1, hsel.2, rfl⟩⟩⟩
  · exact .inl (mem_revokeWhere.mpr ⟨t, ht, .inr ⟨hsel, rfl⟩⟩)

/-- What a step of the call `c`, with these entries, does to the users and their sessions. -/
inductive AuthEffect (lib : Lib) (l : List BackendEntry) (d d' : Db) : AuthCall → Prop
  | idle (c : AuthCall) (users : d'.users = d.users)
      (sessions : d'.refreshTokens = d.refreshTokens) : AuthEffect lib l d d' c
  | register (name email password : String) (salt : Id) (t : RefreshToken)
      (users : d'.users =
        ⟨t.userId, name, email, some (lib.bcryptHash password salt), none⟩ :: d.users)
      (sessions : d'.refreshTokens = t :: d.refreshTokens) :
      AuthEffect lib l d d' (.register name email password)
  | login (email password : String) (t : RefreshToken) (u : User) (hash : String)
      (found : Addresses l t.userId email u) (stored : u.passwordHash = some hash)
      (matched : lib.bcryptCompare password hash = true) (users : d'.users = d.users)
      (sessions : d'.refreshTokens = t :: d.refreshTokens) :
      AuthEffect lib l d d' (.login email password)
  | refresh (raw : Id) (t old : RefreshToken) (now : Time) (row : old ∈ d.refreshTokens)
      (live : old.revokedAt = none) (user : old.userId = t.userId) (fresh : t.id ≠ old.id)
      (presented : ∀ x ∈ d.refreshTokens, x.id = old.id → x.tokenHash = lib.sha256 raw)
      (users : d'.users = d.users)
      (sessions : d'.refreshTokens = t :: revokeWhere (·.id = old.id) now d.refreshTokens) :
      AuthEffect lib l d d' (.refresh raw)
  | logout (raw id : Id) (now : Time)
      (presented : ∀ x ∈ d.refreshTokens, x.id = id → x.tokenHash = lib.sha256 raw)
      (users : d'.users = d.users)
      (sessions : d'.refreshTokens = revokeWhere (·.id = id) now d.refreshTokens) :
      AuthEffect lib l d d' (.logout raw)
  | update (id : Id) (name email : Option String) (marker : Option (Option Time))
      (kept : marker = none ∨ marker = some none)
      (users : d'.users =
        updateWhere (·.id = id) (Prisma.UserData.applyTo ⟨name, email, marker⟩) d.users)
      (sessions : d'.refreshTokens = d.refreshTokens) :
      AuthEffect lib l d d' (.updateCurrentUser id name email)
  | verify (raw userId : Id) (now : Time)
      (redeemed : Redeemable lib l d userId .emailVerification raw now)
      (users : d'.users =
        updateWhere (·.id = userId) (fun u => { u with emailVerifiedAt := some now }) d.users)
      (sessions : d'.refreshTokens = d.refreshTokens) :
      AuthEffect lib l d d' (.verifyEmailAddress raw)
  | reset (raw userId salt : Id) (newPassword : String) (read now : Time)
      (redeemed : Redeemable lib l d userId .passwordReset raw read)
      (users : d'.users = updateWhere (·.id = userId)
        (fun u => { u with passwordHash := some (lib.bcryptHash newPassword salt) }) d.users)
      (sessions : d'.refreshTokens = revokeWhere (·.userId = userId) now d.refreshTokens) :
      AuthEffect lib l d d' (.resetUserPassword raw newPassword)

/-- What a step does, by the operation. -/
theorem Justified.effect (hk : Justified lib w₀ c e l) :
    AuthEffect lib (l.filter (·.pid = e.pid)) e.pre.db e.post.db c := by
  have hsame : e.post.db = e.pre.db →
      AuthEffect lib (l.filter (·.pid = e.pid)) e.pre.db e.post.db c := fun h =>
    .idle c (congrArg (·.users) h) (congrArg (·.refreshTokens) h)
  obtain ⟨pid, o, w, did, seen, w'⟩ := e
  -- What the call is entitled to says which arguments the transaction was given.
  have hans := hk.answer
  have hentitled := hk.entitled
  cases o with
  | db d =>
    cases d with
    | auth a =>
      obtain ⟨x, -, hdb⟩ | ⟨r, -, hmakes⟩ := answer_access hans
      · exact hsame hdb
      cases a with
      | findByEmail email => exact hsame hmakes
      | findById id => exact hsame hmakes
      | updateExists id => exact hsame hmakes
      | findRefreshTokenByHash tokenHash => exact hsame hmakes
      | findAuthTokenByHash tokenHash => exact hsame hmakes
      | update id data =>
        obtain ⟨rfl, hmarker⟩ := hentitled
        have hdb := update_makes hmakes
        exact .update id data.name data.email data.emailVerifiedAt hmarker
          (congrArg (·.users) hdb) (congrArg (·.refreshTokens) hdb)
      | createRefreshToken data =>
        obtain ⟨email, password, u, hash, rfl, hfound, hstored, hmatched⟩ := hentitled
        obtain ⟨-, hdb⟩ := createRefreshToken_makes hmakes
        exact .login email password _ u hash hfound hstored hmatched (congrArg (·.users) hdb)
          (congrArg (·.refreshTokens) hdb)
      | revokeRefreshTokenById id =>
        obtain ⟨raw, rfl, hholds⟩ := hentitled
        have hdb := revokeRefreshTokenById_makes hmakes
        exact .logout raw id w.now (fun x hx hid => hk.session_hash hholds hx hid)
          (congrArg (·.users) hdb) (congrArg (·.refreshTokens) hdb)
      | rotateRefreshToken oldId data =>
        obtain ⟨raw, rfl, hholds⟩ := hentitled
        obtain ⟨t', hread, hreadId, hreadUser, -⟩ := hk.step
        obtain ⟨ch, heval⟩ := hmakes
        -- The old token was found by its hash, so that the call presented it.
        rcases rotateRefreshToken_eq_ok heval with ⟨-, hdb⟩ |
          ⟨t, old, -, hold, rfl, hlive, rfl, -, hdb⟩
        · exact hsame hdb
        · have hlt : old.id < w.db.nextId := hk.sessions.table.bound old hold
          have hreadMem : t' ∈ ((l.filter (·.pid = pid)).filterMap readRefreshToken?) := by
            rw [hread]
            exact List.mem_singleton_self _
          obtain ⟨-, huser, -⟩ := hk.session_row hreadMem hold hreadId.symm
          exact .refresh raw _ old w.now hold hlive (huser.trans hreadUser) (Nat.ne_of_gt hlt)
            (fun x hx hid => hk.session_hash hholds hx hid) (congrArg (·.users) hdb)
            (congrArg (·.refreshTokens) hdb)
      | createUserWithAuthData data =>
        obtain ⟨password, salt, rfl, hhash⟩ := hentitled
        obtain ⟨ch, heval⟩ := hmakes
        obtain ⟨user, session, token, -, rfl, rfl, -, -, -, hdb⟩ :=
          createUserWithAuthData_eq_ok heval
        rw [hhash] at hdb
        exact .register data.name data.email password salt _ (congrArg (·.users) hdb)
          (congrArg (·.refreshTokens) hdb)
      | createAuthToken data =>
        obtain ⟨ch, heval⟩ := hmakes
        obtain ⟨-, -, hdb⟩ := createAuthToken_eq_ok heval
        exact .idle c (congrArg (·.users) hdb) (congrArg (·.refreshTokens) hdb)
      | consumeVerificationTokenAndVerifyUser tokenId userId now =>
        obtain ⟨raw, rfl, hholds⟩ := hentitled
        obtain ⟨ch, heval⟩ := hmakes
        rcases consumeVerification_eq_ok heval with ⟨-, hdb⟩ | ⟨u, -, hrow, -, hdb⟩
        · exact hsame hdb
        · exact .verify raw userId now (hk.redeemable hholds hrow) (congrArg (·.users) hdb)
            (congrArg (·.refreshTokens) hdb)
      | consumePasswordResetTokenAndUpdatePassword tokenId userId passwordHash now =>
        obtain ⟨raw, newPassword, salt, rfl, rfl, hholds⟩ := hentitled
        obtain ⟨ch, heval⟩ := hmakes
        rcases consumePasswordReset_eq_ok heval with ⟨-, tokens, -, hdb⟩ | ⟨u, -, hrow, hdb⟩
        -- The token is consumed, but its user is gone: no session ends.
        · exact .idle _ (congrArg (·.users) hdb) (congrArg (·.refreshTokens) hdb)
        · exact .reset raw userId salt newPassword now _ (hk.redeemable hholds hrow)
            (congrArg (·.users) hdb) (congrArg (·.refreshTokens) hdb)
    | _ => exact hk.step.elim
  | _ => exact hsame (answer_db_eq (by rintro d ⟨⟩) hans)

variable {d d' : Db}

/-- A session that is live before a step is live after it, or the call may end it. -/
theorem AuthEffect.endsSession (h : AuthEffect lib l d d' c) {t : RefreshToken}
    (ht : t ∈ d.refreshTokens) : t ∈ d'.refreshTokens ∨ t.revokedAt = none ∧
      (∃ now, { t with revokedAt := some now } ∈ d'.refreshTokens) ∧ EndsSession lib l d t c := by
  cases h with
  | idle _ users sessions => exact .inl (sessions ▸ ht)
  | register name email password salt t' users sessions =>
    rw [sessions]
    exact .inl (List.mem_cons_of_mem _ ht)
  | login email password t' u hash found stored matched users sessions =>
    rw [sessions]
    exact .inl (List.mem_cons_of_mem _ ht)
  | refresh raw t' old now row live user fresh presented users sessions =>
    rw [sessions]
    -- Only the row that was presented is revoked.
    rcases revokeWhere_cases (p := (·.id = old.id)) now ht with hleft | ⟨hid, hlive, hrevoked⟩
    · exact .inl (List.mem_cons_of_mem _ hleft)
    · exact .inr ⟨hlive, ⟨now, List.mem_cons_of_mem _ hrevoked⟩,
        .refresh raw (presented t ht (of_decide_eq_true hid))⟩
  | logout raw id now presented users sessions =>
    rw [sessions]
    rcases revokeWhere_cases (p := (·.id = id)) now ht with hleft | ⟨hid, hlive, hrevoked⟩
    · exact .inl hleft
    · exact .inr ⟨hlive, ⟨now, hrevoked⟩, .logout raw (presented t ht (of_decide_eq_true hid))⟩
  | update id name email marker kept users sessions => exact .inl (sessions ▸ ht)
  | verify raw userId now redeemed users sessions => exact .inl (sessions ▸ ht)
  | reset raw userId salt newPassword read now redeemed users sessions =>
    rw [sessions]
    rcases revokeWhere_cases (p := (·.userId = userId)) now ht with hleft | ⟨huser, hlive, hrevoked⟩
    · exact .inl hleft
    · obtain rfl := of_decide_eq_true huser
      exact .inr ⟨hlive, ⟨now, hrevoked⟩, .reset raw newPassword read redeemed⟩

/-- A session after a step is one from before, but for its end, or the call may begin it. -/
theorem AuthEffect.beginsSession (h : AuthEffect lib l d d' c) {t : RefreshToken}
    (ht : t ∈ d'.refreshTokens) : (∃ old ∈ d.refreshTokens, SameToken old t) ∨
      BeginsSession lib l d d' t c := by
  have hrevoked : ∀ {p now}, t ∈ revokeWhere p now d.refreshTokens →
      ∃ old ∈ d.refreshTokens, SameToken old t := by
    intro p now hmem
    obtain ⟨x, hx, ⟨-, -, rfl⟩ | ⟨-, rfl⟩⟩ := mem_revokeWhere.mp hmem
    · exact ⟨x, hx, rfl, rfl, rfl, rfl⟩
    · exact ⟨t, hx, rfl, rfl, rfl, rfl⟩
  have hold : t ∈ d.refreshTokens → ∃ old ∈ d.refreshTokens, SameToken old t :=
    fun hmem => ⟨t, hmem, rfl, rfl, rfl, rfl⟩
  cases h with
  | idle _ users sessions => exact .inl (hold (sessions ▸ ht))
  | register name email password salt t' users sessions =>
    rw [sessions] at ht
    rcases List.mem_cons.mp ht with rfl | ht
    · exact .inr (.register name email password salt users)
    · exact .inl (hold ht)
  | login email password t' u hash found stored matched users sessions =>
    rw [sessions] at ht
    rcases List.mem_cons.mp ht with rfl | ht
    · exact .inr (.login email password u hash found stored matched)
    · exact .inl (hold ht)
  | refresh raw t' old now row live user fresh presented users sessions =>
    rw [sessions] at ht
    rcases List.mem_cons.mp ht with rfl | ht
    · refine .inr (.refresh raw old row live user (presented old row rfl) fun hmem => ?_)
      rw [sessions] at hmem
      -- The old token is revoked, and the new one has another id.
      rcases List.mem_cons.mp hmem with heq | hmem
      · exact fresh (congrArg (·.id) heq.symm)
      · have hkept := (live_of_mem_revokeWhere hmem live).2
        exact absurd hkept (by simp)
    · exact .inl (hrevoked ht)
  | logout raw id now presented users sessions =>
    rw [sessions] at ht
    exact .inl (hrevoked ht)
  | update id name email marker kept users sessions => exact .inl (hold (sessions ▸ ht))
  | verify raw userId now redeemed users sessions => exact .inl (hold (sessions ▸ ht))
  | reset raw userId salt newPassword read now redeemed users sessions =>
    rw [sessions] at ht
    exact .inl (hrevoked ht)

/-- A user has the same row after a step, or one that the call may give them. -/
theorem AuthEffect.changesUser (h : AuthEffect lib l d d' c) {u : User} (hu : u ∈ d.users) :
    u ∈ d'.users ∨ ∃ u' ∈ d'.users, ChangesUser lib l d u u' c := by
  cases h with
  | idle _ users sessions => exact .inl (users ▸ hu)
  | register name email password salt t users sessions =>
    rw [users]
    exact .inl (List.mem_cons_of_mem _ hu)
  | login email password t u' hash found stored matched users sessions => exact .inl (users ▸ hu)
  | refresh raw t old now row live user fresh presented users sessions => exact .inl (users ▸ hu)
  | logout raw id now presented users sessions => exact .inl (users ▸ hu)
  -- The three updates of the user table, each in the name of its call.
  | update id name email marker kept users sessions =>
    rw [users]
    rcases updateWhere_cases (p := (·.id = id)) (Prisma.UserData.applyTo ⟨name, email, marker⟩) hu
      with hleft | ⟨hid, hmem⟩
    · exact .inl hleft
    · obtain rfl := of_decide_eq_true hid
      exact .inr ⟨_, hmem, .update name email marker kept⟩
  | verify raw userId now redeemed users sessions =>
    rw [users]
    rcases updateWhere_cases (p := (·.id = userId))
      (fun u => { u with emailVerifiedAt := some now }) hu with hleft | ⟨hid, hmem⟩
    · exact .inl hleft
    · obtain rfl := of_decide_eq_true hid
      exact .inr ⟨_, hmem, .verify raw now redeemed⟩
  | reset raw userId salt newPassword read now redeemed users sessions =>
    rw [users]
    rcases updateWhere_cases (p := (·.id = userId))
      (fun u => { u with passwordHash := some (lib.bcryptHash newPassword salt) }) hu
      with hleft | ⟨hid, hmem⟩
    · exact .inl hleft
    · obtain rfl := of_decide_eq_true hid
      exact .inr ⟨_, hmem, .reset raw newPassword salt read redeemed⟩

/-- A user after a step is one from before, or registers. -/
theorem AuthEffect.newUser (h : AuthEffect lib l d d' c) {u : User} (hu : u ∈ d'.users) :
    (∃ old ∈ d.users, old.id = u.id) ∨ ∃ name email password salt,
      c = .register name email password ∧
        u = ⟨u.id, name, email, some (lib.bcryptHash password salt), none⟩ := by
  have hold : u ∈ d.users → ∃ old ∈ d.users, old.id = u.id := fun hmem => ⟨u, hmem, rfl⟩
  -- An update keeps the ids.
  have hupdated : ∀ {p} {f : User → User}, u ∈ updateWhere p f d.users → (∀ x, (f x).id = x.id) →
      ∃ old ∈ d.users, old.id = u.id := by
    intro p f hmem hid
    obtain ⟨x, hx, ⟨-, rfl⟩ | ⟨-, rfl⟩⟩ := mem_updateWhere.mp hmem
    · exact ⟨x, hx, (hid x).symm⟩
    · exact ⟨x, hx, rfl⟩
  cases h with
  | idle _ users sessions => exact .inl (hold (users ▸ hu))
  | register name email password salt t users sessions =>
    rw [users] at hu
    rcases List.mem_cons.mp hu with rfl | hu
    · exact .inr ⟨name, email, password, salt, rfl, rfl⟩
    · exact .inl (hold hu)
  | login email password t u' hash found stored matched users sessions =>
    exact .inl (hold (users ▸ hu))
  | refresh raw t old now row live user fresh presented users sessions =>
    exact .inl (hold (users ▸ hu))
  | logout raw id now presented users sessions => exact .inl (hold (users ▸ hu))
  | update id name email marker kept users sessions =>
    rw [users] at hu
    exact .inl (hupdated hu fun _ => rfl)
  | verify raw userId now redeemed users sessions =>
    rw [users] at hu
    exact .inl (hupdated hu fun _ => rfl)
  | reset raw userId salt newPassword read now redeemed users sessions =>
    rw [users] at hu
    exact .inl (hupdated hu fun _ => rfl)

end Rows

/-! ## Runs -/

section Runs

variable {w₀ : World}

/-- What was known of every entry of a run when it was made. -/
theorem known_of_reachable (hw : SessionTable w₀.db) (hw' : TokenTable lib w₀)
    {cfg : (authSystem lib env).Config}
    (hr : (authSystem lib env).Reachable (fun w => w = w₀) cfg) {e : BackendEntry}
    (he : e ∈ cfg.hist.log) : ∃ c p l, cfg.procs[e.pid]? = some (c, p) ∧ e :: l <:+ cfg.hist.log ∧
      Justified lib w₀ c e l := by
  obtain ⟨⟨w₁, -, hlinked⟩, -, -⟩ := System.replays hr
  obtain ⟨later, l, hlog⟩ := List.append_of_mem he
  have hl : e :: l <:+ cfg.hist.log := ⟨later, hlog.symm⟩
  have hstart : ∀ w : World, w = w₀ → Sessions ⟨w, []⟩ ∧ Tokens lib w₀ ⟨w, []⟩ := by
    rintro w rfl
    exact ⟨sessions_start hw, tokens_start hw'⟩
  obtain ⟨⟨hs, ht⟩, c, p, hp, hstep, hentitled⟩ :=
    (authSystem lib env).entries_of_ownLog (fun _ c l o => AuthStep lib l o ∧ Entitled lib c l o)
    (fun _ c r l => AuthEnd lib c r l ∧ True) (fun h => Sessions h ∧ Tokens lib w₀ h)
    (fun pid c _ => wp_ownLog_and (authCall_wp c) (authCall_entitled c))
    hstart
    (fun h w hI he => ⟨hI.1.later he, hI.2.withWorld he⟩)
    (fun pid c o h did seen w ho hI _ hans => ⟨hI.1.step ho.1 hans, hI.2.step ho.1 hans⟩) hr hl
  exact ⟨c, p, l, hp, hl, hs, ht, hstep, hentitled, hlinked.answer he⟩

/-- The calls of a run that may end a session: those that present its token, and those that redeem
a token that was issued for a new password of its user. -/
def Concerns (lib : Lib) (tokens : List AuthToken) (t : RefreshToken) : AuthCall → Prop
  | .refresh raw => t.tokenHash = lib.sha256 raw
  | .logout raw => t.tokenHash = lib.sha256 raw
  | .resetUserPassword raw _ => ∃ a ∈ tokens, a.userId = t.userId ∧ a.purpose = .passwordReset ∧
    a.tokenHash = lib.sha256 raw
  | _ => False

/-- The calls of a run. -/
def callsOf (cfg : (authSystem lib env).Config) : List AuthCall := cfg.procs.map (·.1)

/-- A session outlives every run whose calls do not concern it. -/
theorem session_survives (hw : SessionTable w₀.db) (hw' : TokenTable lib w₀)
    {cfg : (authSystem lib env).Config}
    (hr : (authSystem lib env).Reachable (fun w => w = w₀) cfg) {t : RefreshToken}
    (ht : t ∈ w₀.db.refreshTokens)
    (hno : ∀ c ∈ callsOf cfg, ¬Concerns lib (tokensOf w₀.db cfg.hist.log) t c) :
    t ∈ cfg.hist.world.db.refreshTokens := by
  obtain ⟨⟨w₁, rfl, hlinked⟩, -, -⟩ := System.replays hr
  have hstep : ∀ e ∈ cfg.hist.log, t ∈ e.pre.db.refreshTokens → t ∈ e.post.db.refreshTokens := by
    intro e he hpre
    obtain ⟨c, p, l, hp, hl, hk⟩ := known_of_reachable hw hw' hr he
    rcases hk.effect.endsSession hpre with hpost | ⟨-, -, hends⟩
    · exact hpost
    · -- Whoever ends the session is concerned with it.
      refine absurd ?_ (hno c (List.mem_map_of_mem (List.mem_of_getElem? hp)))
      cases hends with
      | refresh raw hpresented => exact hpresented
      | logout raw hpresented => exact hpresented
      | reset raw newPassword now hredeemed =>
        obtain ⟨-, a, ha, huser, hpurpose, -, hhash, -⟩ := hredeemed
        obtain ⟨i, hi, -, hiuser, hipurpose, hihash, -⟩ := hk.tokens.exists_of_row ha
        have hissued : i ∈ tokensOf w₁.db cfg.hist.log := by
          obtain ⟨later, hlog⟩ := hl
          rw [← hlog, List.append_cons]
          unfold tokensOf at hi ⊢
          rw [List.filterMap_append, List.append_assoc]
          exact List.mem_append_right _ hi
        exact ⟨i, hissued, by rw [← hiuser, huser], by rw [← hipurpose, hpurpose],
          by rw [← hihash, hhash]⟩
  -- The token outlasts every step, and time alone ends no session.
  have hlog : (authSystem lib env).Linked w₁ (cfg.hist.log ++ []) cfg.hist.world := by
    rw [List.append_nil]
    exact hlinked
  refine (hlog.persists (P := fun w => t ∈ w.db.refreshTokens) ?_ ?_ hstep).1
  · rintro w w' hmem ⟨now, -, rfl⟩
    exact hmem
  · intro w hstar
    refine System.keeps_star (P := fun w : World => t ∈ w.db.refreshTokens) ?_ ht hstar
    rintro w w' hmem ⟨now, -, rfl⟩
    exact hmem

instance (lib : Lib) (tokens : List AuthToken) (t : RefreshToken) :
    DecidablePred (Concerns lib tokens t)
  | .refresh _ => inferInstanceAs (Decidable (_ = _))
  | .logout _ => inferInstanceAs (Decidable (_ = _))
  | .resetUserPassword _ _ => inferInstanceAs (Decidable (∃ a ∈ tokens, _))
  | .register _ _ _ => isFalse id
  | .login _ _ => isFalse id
  | .updateCurrentUser _ _ _ => isFalse id
  | .verifyEmailAddress _ => isFalse id
  | .resendVerification _ => isFalse id
  | .requestPasswordReset _ => isFalse id

/-- A user registers and logs in, and one of the two sessions is logged out while the user asks for
another name. -/
def twoSessions : List (System.Action (authSystem .plain {})) :=
  List.flatten [[.spawn (.register "Ann" "ann@example.com" "password")], System.turns _ 0 {} 10,
    [.spawn (.login "ann@example.com" "password")], System.turns _ 1 {} 5,
    [.spawn (.logout 1), .spawn (.updateCurrentUser 0 (some "Anna") none)], System.turns _ 2 {} 1,
    System.turns _ 3 {} 2, System.turns _ 2 {} 1, System.turns _ 3 {} 1]

/-- A user with two sessions. -/
def twoSessionWorld : World where
  db :=
    { users := [⟨1, "Ann", "ann@example.com", some "password", none⟩]
      refreshTokens := [⟨2, 1, 50, 1000, none, 0⟩, ⟨3, 1, 60, 1000, none, 0⟩]
      nextId := 10 }
  random := 100

/-- One of the sessions is logged out and the other one is left alone. -/
def otherLogout : List (System.Action (authSystem .plain {})) :=
  List.flatten [[.spawn (.logout 60), .spawn (.requestPasswordReset "ann@example.com")],
    System.turns _ 0 {} 1, System.turns _ 1 {} 3, System.turns _ 0 {} 1, System.turns _ 1 {} 2]

/-- A session is still there after another one of the user was ended. -/
theorem session_survives_otherLogout : ∃ cfg : (authSystem .plain {}).Config,
    cfg.hist.world.db.refreshTokens.map (fun t => (t.id, t.revokedAt)) = [(2, none), (3, some 0)] ∧
      (⟨2, 1, 50, 1000, none, 0⟩ : RefreshToken) ∈ cfg.hist.world.db.refreshTokens := by
  obtain ⟨cfg, hplay, htokens, hno⟩ : ∃ cfg, (authSystem .plain {}).play otherLogout
      ((authSystem .plain {}).start twoSessionWorld) = some cfg ∧
      cfg.hist.world.db.refreshTokens.map (fun t => (t.id, t.revokedAt)) =
        [(2, none), (3, some 0)] ∧
      ∀ c ∈ callsOf cfg, ¬Concerns .plain (tokensOf twoSessionWorld.db cfg.hist.log)
        ⟨2, 1, 50, 1000, none, 0⟩ c := System.exists_of_play (by decide +kernel)
  have hr : (authSystem .plain {}).Reachable (fun w => w = twoSessionWorld) cfg :=
    System.reachable_of_play (fun _ _ _ => trivial) (.start rfl) hplay
  exact ⟨cfg, htokens, session_survives ⟨by decide, by decide, by decide⟩
    ⟨by decide, by decide, by decide, by decide, by decide⟩ hr List.mem_cons_self hno⟩

end Runs

end SplitBill
