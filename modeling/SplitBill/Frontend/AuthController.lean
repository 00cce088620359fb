import SplitBill.Frontend.ApiClient
import SplitBill.Interleave.Replay

/-!
# Signing out

`refreshSession`, `logout` and `clearSession` of
`src/frontend/lib/features/auth/logic/auth_controller.dart`, over
`src/frontend/lib/features/auth/data/repositories/auth_repository.dart`. A refresh reads the refresh
token, waits for the server, and then stores the new session and shows its user, whatever has
happened to the stored session in the meantime. In runs in which no sign-out clears the store while
a refresh is on its way, a sign-out whose operations were answered is final until the next sign-in.
A sign-out that the server refuses has cleared the store, but throws before it shows that no one is
signed in (`logout_refused`).
-/

namespace SplitBill.Frontend

open Interleave

/-- `AuthStatus`. -/
inductive AuthStatus
  | initializing
  | authenticated
  | unauthenticated
  deriving DecidableEq

/-- `UserProfile`. -/
structure UserProfile where
  id : String
  name : String
  email : String
  deriving DecidableEq

/-- `AuthSession`. -/
structure AuthSession where
  user : UserProfile
  accessToken : String
  refreshToken : String

/-- The calls of an `AuthController` that end a session or renew it. -/
inductive AuthCall
  | refreshSession
  | logout
  | clearSession
  deriving DecidableEq

/-- The operations for which these calls wait, and what they do to the fields of the controller when
they go on. -/
inductive SessionOp
  /-- `readRefreshToken`. -/
  | readRefreshToken
  /-- `saveSession`. -/
  | saveSession (accessToken refreshToken : String)
  /-- `clear`, on behalf of this call. -/
  | clear (caller : AuthCall)
  /-- `POST /auth/refresh`. -/
  | remoteRefresh (refreshToken : String)
  /-- `POST /auth/logout`. -/
  | remoteLogout (refreshToken : String)
  /-- What `refreshSession` does with the new session. -/
  | showSession (user : UserProfile)
  /-- `_setUnauthenticated`, on behalf of this call. -/
  | setUnauthenticated (caller : AuthCall)

/-- What an operation answers. -/
abbrev SessionOp.Res : SessionOp → Type
  | readRefreshToken => Option String
  | remoteRefresh _ => AuthSession
  | _ => Unit

/-- The interface of these calls. -/
abbrev sessionInterface : Interface := ⟨SessionOp, SessionOp.Res⟩

/-- The code of a call. -/
abbrev Session (α : Type) : Type := Prog sessionInterface DioException α

/-- The program of one operation. -/
abbrev SessionOp.perform (o : SessionOp) : Session o.Res :=
  @Prog.perform sessionInterface DioException o

/-- The stored tokens, and the fields of the controller. -/
structure AuthState where
  accessToken : Option String := none
  refreshToken : Option String := none
  status : AuthStatus := .initializing
  user : Option UserProfile := none
  errorMessage : Option String := none

/-- What the server answers. -/
structure AuthServer where
  refresh : String → Option AuthSession
  logout : String → Bool

/-- The answer and the effect of an operation. -/
def SessionOp.exec : (o : SessionOp) → AuthServer → AuthState →
    Except DioException o.Res × AuthState
  | readRefreshToken, _, s => (.ok s.refreshToken, s)
  | saveSession access refresh, _, s =>
    (.ok (), { s with accessToken := some access, refreshToken := some refresh })
  | clear _, _, s => (.ok (), { s with accessToken := none, refreshToken := none })
  | remoteRefresh token, server, s =>
    match server.refresh token with
    | some session => (.ok session, s)
    | none => (.error ⟨some 401⟩, s)
  | remoteLogout token, server, s =>
    if server.logout token then (.ok (), s) else (.error ⟨some 401⟩, s)
  | showSession user, _, s =>
    (.ok (), { s with user := if s.user.map (·.id) = some user.id then s.user else some user,
                      status := .authenticated, errorMessage := none })
  | setUnauthenticated _, _, s =>
    (.ok (), { s with status := .unauthenticated, user := none, errorMessage := none })

/-- The controller waits for the operation, so that it may fail. -/
def SessionOp.Waits : SessionOp → Prop
  | showSession _ => False
  | setUnauthenticated _ => False
  | _ => True

/-- The machine on which the calls run: the token store and the network may fail. -/
abbrev authMachine : Machine sessionInterface DioException AuthState where
  Choice := AuthServer
  exec := SessionOp.exec
  fails o _ := o.Waits
  loses o _ := o.Waits

namespace SessionRepository

/-- `refreshSession` of the repository. -/
def refreshSession : Session (Option AuthSession) := do
  match ← SessionOp.perform .readRefreshToken with
  | none => return none
  | some refreshToken =>
    if refreshToken = "" then return none
    else
      let renew : Session (Option AuthSession) := do
        let session ← SessionOp.perform (.remoteRefresh refreshToken)
        SessionOp.perform (.saveSession session.accessToken session.refreshToken)
        return some session
      renew.tryCatch fun _ => return none

/-- `logout` of the repository. -/
def logout : Session Unit := do
  let refreshToken ← SessionOp.perform .readRefreshToken
  let notify : Session Unit :=
    match refreshToken with
    | some refreshToken =>
      if refreshToken ≠ "" then SessionOp.perform (.remoteLogout refreshToken) else pure ()
    | none => pure ()
  let outcome ← notify.attempt
  SessionOp.perform (.clear .logout)
  Prog.ofExcept outcome

end SessionRepository

namespace AuthController

/-- `logout`. -/
def logout : Session Unit := do
  SessionRepository.logout
  SessionOp.perform (.setUnauthenticated .logout)

/-- `clearSession`. -/
def clearSession : Session Unit := do
  SessionOp.perform (.clear .clearSession)
  SessionOp.perform (.setUnauthenticated .clearSession)

/-- `refreshSession`. -/
def refreshSession : Session Bool := do
  match ← SessionRepository.refreshSession with
  | some session =>
    SessionOp.perform (.showSession session.user)
    return true
  | none => return false

end AuthController

/-- The program of a call. -/
def AuthCall.body : AuthCall → Session Unit
  | refreshSession => do
    let _ ← AuthController.refreshSession
    return ()
  | logout => AuthController.logout
  | clearSession => AuthController.clearSession

/-- These calls, side by side. Without a sign-in nothing else changes the session. -/
abbrev authSystem : System sessionInterface DioException Unit AuthState where
  machine := authMachine
  Call := AuthCall
  body := AuthCall.body
  valid := fun _ => True
  env := Eq

instance : DecidablePred authSystem.valid := fun _ => isTrue trivial

/-! ## What the log says -/

/-- An entry of the log of these calls. -/
abbrev SessionEntry := Entry sessionInterface DioException AuthState

/-- An operation reads the refresh token. -/
def readsToken : SessionOp → Bool
  | .readRefreshToken => true
  | _ => false

/-- An entry of a sign-out that cleared the store. -/
def signedOut : SessionEntry → Bool
  | ⟨_, .clear .logout, _, .ok _, _, _⟩ => true
  | _ => false

/-- An operation of a sign-out that shows that no one is signed in. -/
def showsSignedOut : SessionOp → Bool
  | .setUnauthenticated .logout => true
  | _ => false

/-- An operation stores a renewed session, or shows it. -/
def renews : SessionOp → Bool
  | .saveSession _ _ => true
  | .showSession _ => true
  | _ => false

/-- A refresh stores and shows a session only when no sign-out has cleared the store since the
refresh read its token. -/
def StillSignedIn (pid : ℕ) (o : SessionOp) (h : Hist sessionInterface DioException AuthState) :
    Prop :=
  renews o = true → ∀ e ∈ sinceLast pid (fun e => readsToken e.op) h.log, signedOut e = false

instance (pid : ℕ) (o : SessionOp) (h : Hist sessionInterface DioException AuthState) :
    Decidable (StillSignedIn pid o h) := by
  unfold StillSignedIn
  infer_instance

/-- The calls, in runs in which no refresh renews a session that has been signed out. -/
abbrev signedInSystem : System sessionInterface DioException Unit AuthState :=
  { authSystem with allow := StillSignedIn }

instance : DecidablePred signedInSystem.valid := fun _ => isTrue trivial

/-! ## What a call does -/

/-- The refresh token that an entry read. -/
def tokenRead? : SessionEntry → Option String
  | ⟨_, .readRefreshToken, _, _, .ok (some token), _⟩ => some token
  | _ => none

/-- A call renews a session with the token that it read, and a sign-out has cleared the store before
it shows that no one is signed in. -/
structure RenewsWhatItRead (own : List SessionEntry) (o : SessionOp) : Prop where
  renewed : renews o = true →
    ∃ r, own.find? (fun e => readsToken e.op) = some r ∧ (tokenRead? r).isSome = true
  cleared : showsSignedOut o = true → ∃ e ∈ own, signedOut e = true

/-- How a call ends that returns. -/
def AuthCall.Ends (c : AuthCall) (r : Except DioException Unit) (own : List SessionEntry) : Prop :=
  c = .logout → r = .ok () → ∃ e ∈ own, showsSignedOut e.op = true

section Calls

variable {pid : ℕ}

/-- Any other operation is all right. -/
theorem renewsWhatItRead_of_quiet {o : SessionOp} (hrenews : renews o = false)
    (hout : showsSignedOut o = false) (own : List SessionEntry) : RenewsWhatItRead own o := by
  refine ⟨fun h => ?_, fun h => ?_⟩
  · rw [hrenews] at h
    cases h
  · rw [hout] at h
    cases h

/-- A refresh renews the session with the token of its first entry. -/
theorem renewSession_wp :
    wp (authMachine.ownLog pid RenewsWhatItRead) (AuthCall.Ends .refreshSession)
      (AuthCall.body .refreshSession) [] := by
  have herr : ∀ (e : DioException) (own : List SessionEntry),
      AuthCall.Ends .refreshSession (.error e) own := by
    rintro e own ⟨⟩
  refine wp_bind.mpr (wp_bind.mpr ?_)
  unfold SessionRepository.refreshSession
  refine wp_ownLog_bind ?_ ?_ fun w₁ did₁ token w₁' _ => ?_
  · exact herr
  · exact renewsWhatItRead_of_quiet rfl rfl _
  -- A refresh that gives up signs nobody in.
  have hnothing : ∀ own : List SessionEntry, AuthCall.Ends .refreshSession (.ok ()) own := by
    rintro own ⟨⟩
  cases token with
  | none => exact hnothing _
  | some token =>
    dsimp only
    split
    · exact hnothing _
    · refine wp_tryCatch.mpr ?_
      refine wp_ownLog_bind ?_ ?_ fun w₂ did₂ session w₂' _ => ?_
      · exact fun _ own => hnothing own
      · exact renewsWhatItRead_of_quiet rfl rfl _
      refine wp_ownLog_bind ?_ ?_ fun w₃ did₃ _ w₃' _ => ?_
      · exact fun _ own => hnothing own
      -- From here on the session of the token that was read is renewed.
      · exact ⟨fun _ => ⟨_, rfl, rfl⟩, fun h => by cases h⟩
      refine wp_ownLog_bind ?_ ?_ fun w₄ did₄ _ w₄' _ => hnothing _
      · exact herr
      · exact ⟨fun _ => ⟨_, rfl, rfl⟩, fun h => by cases h⟩

/-- A sign-out clears the store, and then shows that no one is signed in. -/
theorem logout_wp :
    wp (authMachine.ownLog pid RenewsWhatItRead) (AuthCall.Ends .logout) (AuthCall.body .logout)
      [] := by
  have herr : ∀ (e : DioException) (own : List SessionEntry),
      AuthCall.Ends .logout (.error e) own := by
    rintro e own - ⟨⟩
  unfold AuthCall.body AuthController.logout
  refine wp_bind.mpr ?_
  unfold SessionRepository.logout
  refine wp_ownLog_bind ?_ ?_ fun w₁ did₁ refreshToken w₁' _ => ?_
  · exact herr
  · exact renewsWhatItRead_of_quiet rfl rfl _
  refine wp_bind.mpr (wp_attempt.mpr ?_)
  refine wp_ownLog_of_issues (I := fun _ => True) (B := fun o => renews o = false ∧
    showsSignedOut o = false) ?_ ?_ ?_ ?_ trivial
  · cases refreshToken with
    | none => trivial
    | some token =>
      dsimp only
      split
      · exact (Prog.issues_perform _ _).mpr ⟨rfl, rfl⟩
      · trivial
  · exact fun own o _ ho => renewsWhatItRead_of_quiet ho.1 ho.2 own
  · exact fun _ _ _ _ _ _ _ _ _ => trivial
  -- The store is cleared whatever the server answered.
  intro outcome own _
  refine wp_ownLog_bind ?_ ?_ fun w₂ did₂ _ w₂' hans => ?_
  · exact herr
  · exact renewsWhatItRead_of_quiet rfl rfl _
  obtain rfl := hans.did_eq
  cases outcome with
  | error e => exact herr e _
  | ok a =>
    refine wp_ownLog_perform ⟨fun h => ?_, fun _ => ?_⟩ fun w₃ did₃ r₃ w₃' _ _ _ => ?_
    · cases h
    · exact ⟨_, List.mem_cons_self, rfl⟩
    · exact ⟨_, List.mem_cons_self, rfl⟩

/-- The end of a session that cannot be renewed. -/
theorem clearSession_wp :
    wp (authMachine.ownLog pid RenewsWhatItRead) (AuthCall.Ends .clearSession)
      (AuthCall.body .clearSession) [] := by
  have hends : ∀ (r : Except DioException Unit) (own : List SessionEntry),
      AuthCall.Ends .clearSession r own := by
    rintro r own ⟨⟩
  refine wp_ownLog_bind (fun e own => hends (.error e) own) (renewsWhatItRead_of_quiet rfl rfl _)
    fun w₁ did₁ _ w₁' _ => ?_
  exact wp_ownLog_perform (renewsWhatItRead_of_quiet rfl rfl _) fun _ _ r _ _ => hends r _

end Calls

/-! ## A sign-out is final -/

/-- What a run says of its sign-outs. -/
structure SignsOut (h : Hist sessionInterface DioException AuthState) : Prop where
  /-- Nothing is stored when a sign-out has cleared the store. -/
  empty : (∃ e ∈ h.log, signedOut e = true) →
    h.world.accessToken = none ∧ h.world.refreshToken = none
  /-- No refresh reads a token from then on. -/
  blind : ∀ r l, r :: l <:+ h.log → (∃ e ∈ l, signedOut e = true) → tokenRead? r = none
  /-- A sign-out shows that no one is signed in when it has cleared the store. -/
  first : (∃ e ∈ h.log, showsSignedOut e.op = true) → ∃ e ∈ h.log, signedOut e = true
  shown : (∃ e ∈ h.log, showsSignedOut e.op = true) → h.world.status ≠ .authenticated

section SignOut

variable {h : Hist sessionInterface DioException AuthState} {pid : ℕ} {o : SessionOp}

/-- Once a sign-out has cleared the store, no refresh renews the session. -/
theorem SignsOut.not_renews (hs : SignsOut h) (hown : RenewsWhatItRead (h.own pid) o)
    (hallow : StillSignedIn pid o h) (hout : ∃ e ∈ h.log, signedOut e = true) :
    renews o = false := by
  by_contra hrenews
  rw [Bool.not_eq_false] at hrenews
  obtain ⟨r, hfind, htoken⟩ := hown.renewed hrenews
  obtain ⟨l, hlog⟩ := eq_sinceLast_append hfind
  obtain ⟨e, he, hsigned⟩ := hout
  rw [hlog] at he
  rcases List.mem_append.mp he with he | he
  · rw [hallow hrenews e he] at hsigned
    cases hsigned
  · rcases List.mem_cons.mp he with rfl | he
    · -- An entry that read a token is none that cleared the store.
      unfold tokenRead? at htoken
      split at htoken
      · cases hsigned
      · cases htoken
    · rw [hs.blind r l ⟨_, hlog.symm⟩ ⟨e, he, hsigned⟩] at htoken
      cases htoken

/-- One operation more. -/
theorem SignsOut.record (hs : SignsOut h) {e : SessionEntry} {w : AuthState}
    (hempty : (signedOut e = true ∨ ∃ x ∈ h.log, signedOut x = true) →
      w.accessToken = none ∧ w.refreshToken = none)
    (hblind : (∃ x ∈ h.log, signedOut x = true) → tokenRead? e = none)
    (hfirst : showsSignedOut e.op = true → ∃ x ∈ h.log, signedOut x = true)
    (hshown : (showsSignedOut e.op = true ∨ ∃ x ∈ h.log, showsSignedOut x.op = true) →
      w.status ≠ .authenticated) : SignsOut ⟨w, e :: h.log⟩ := by
  have hcons : ∀ p : SessionEntry → Prop, (∃ x ∈ e :: h.log, p x) → p e ∨ ∃ x ∈ h.log, p x := by
    rintro p ⟨x, hx, hp⟩
    rcases List.mem_cons.mp hx with rfl | hx
    · exact .inl hp
    · exact .inr ⟨x, hx, hp⟩
  constructor
  case empty =>
    intro hout
    exact hempty (hcons _ hout)
  case blind => exact forall_suffix_cons.mpr ⟨hblind, hs.blind⟩
  case first =>
    intro hout
    obtain ⟨x, hx, hsigned⟩ : ∃ x ∈ h.log, signedOut x = true := by
      rcases hcons _ hout with hnew | hold
      · exact hfirst hnew
      · exact hs.first hold
    exact ⟨x, List.mem_cons_of_mem _ hx, hsigned⟩
  case shown =>
    intro hout
    exact hshown (hcons _ hout)

/-- An operation that changes neither the store nor the status. -/
theorem SignsOut.quiet (hs : SignsOut h) {e : SessionEntry} {w : AuthState}
    (hsigned : signedOut e = false) (hshows : showsSignedOut e.op = false)
    (hblind : (∃ x ∈ h.log, signedOut x = true) → tokenRead? e = none)
    (haccess : w.accessToken = h.world.accessToken)
    (hrefresh : w.refreshToken = h.world.refreshToken)
    (hstatus : w.status = h.world.status) : SignsOut ⟨w, e :: h.log⟩ := by
  refine hs.record (fun hout => ?_) hblind (fun hout => ?_) (fun hout => ?_)
  · rw [haccess, hrefresh]
    rcases hout with hnew | hold
    · rw [hsigned] at hnew
      cases hnew
    · exact hs.empty hold
  · rw [hshows] at hout
    cases hout
  · rw [hstatus]
    rcases hout with hnew | hold
    · rw [hshows] at hnew
      cases hnew
    · exact hs.shown hold

/-- A renewed session, before any sign-out. -/
theorem SignsOut.renew (hs : SignsOut h) (hout : ¬∃ e ∈ h.log, signedOut e = true)
    {e : SessionEntry} (hsigned : signedOut e = false) (hshows : showsSignedOut e.op = false)
    (w : AuthState) : SignsOut ⟨w, e :: h.log⟩ := by
  refine hs.record (fun hsome => ?_) (fun hold => absurd hold hout) (fun hnew => ?_)
    (fun hsome => ?_)
  · rcases hsome with hnew | hold
    · rw [hsigned] at hnew
      cases hnew
    · exact absurd hold hout
  · rw [hshows] at hnew
    cases hnew
  · rcases hsome with hnew | hold
    · rw [hshows] at hnew
      cases hnew
    · exact absurd (hs.first hold) hout

/-- An operation that takes effect, whatever its caller is told. -/
theorem SignsOut.effect (hs : SignsOut h) (hown : RenewsWhatItRead (h.own pid) o)
    (hallow : StillSignedIn pid o h) {seen : Except DioException (sessionInterface.Res o)}
    (server : AuthServer)
    (hseen : seen = (SessionOp.exec o server h.world).1 ∨ ∃ e, seen = .error e) :
    SignsOut (h.record pid o (SessionOp.exec o server h.world).1 seen
      (SessionOp.exec o server h.world).2) := by
  -- What renews a session comes before every sign-out.
  have hnotOut : renews o = true → ¬∃ e ∈ h.log, signedOut e = true := by
    intro hrenews hout
    rw [hs.not_renews hown hallow hout] at hrenews
    cases hrenews
  cases o with
  | readRefreshToken =>
    refine hs.quiet rfl rfl (fun hout => ?_) rfl rfl rfl
    rcases hseen with rfl | ⟨e, rfl⟩
    · show tokenRead? ⟨pid, .readRefreshToken, h.world, _, .ok h.world.refreshToken, _⟩ = none
      rw [(hs.empty hout).2]
      rfl
    · rfl
  | saveSession access refresh => exact hs.renew (hnotOut rfl) rfl rfl _
  | showSession user => exact hs.renew (hnotOut rfl) rfl rfl _
  -- Who clears the store has signed out, unless it is the refresh that failed.
  | clear caller =>
    refine hs.record (fun _ => ⟨rfl, rfl⟩) (fun _ => rfl) (fun hnew => ?_) (fun hout => ?_)
    · cases hnew
    · rcases hout with hnew | hold
      · cases hnew
      · exact hs.shown hold
  | remoteRefresh token =>
    have hsame : (SessionOp.exec (.remoteRefresh token) server h.world).2 = h.world := by
      simp only [SessionOp.exec]
      split <;> rfl
    rw [hsame]
    exact hs.quiet rfl rfl (fun _ => rfl) rfl rfl rfl
  | remoteLogout token =>
    have hsame : (SessionOp.exec (.remoteLogout token) server h.world).2 = h.world := by
      simp only [SessionOp.exec]
      split <;> rfl
    rw [hsame]
    exact hs.quiet rfl rfl (fun _ => rfl) rfl rfl rfl
  | setUnauthenticated caller =>
    refine hs.record (fun hout => ?_) (fun _ => rfl) (fun hnew => ?_) (fun _ => ?_)
    · rcases hout with hnew | hold
      · cases hnew
      · exact hs.empty hold
    · obtain ⟨e, he, hsigned⟩ := hown.cleared hnew
      exact ⟨e, (Hist.mem_own.mp he).1, hsigned⟩
    · exact (by decide : AuthStatus.unauthenticated ≠ .authenticated)

/-- Every operation of these calls keeps what the run says of its sign-outs. -/
theorem SignsOut.step (hs : SignsOut h) (hown : RenewsWhatItRead (h.own pid) o)
    (hallow : StillSignedIn pid o h) {did seen : Except DioException (sessionInterface.Res o)}
    {w : AuthState} (hans : authMachine.Answer o h.world did seen w) :
    SignsOut (h.record pid o did seen w) := by
  cases hans with
  | done server => exact hs.effect hown hallow server (.inl rfl)
  | lost e server hwaits => exact hs.effect hown hallow server (.inr ⟨e, rfl⟩)
  | failed e hwaits =>
    -- Nothing has happened.
    refine hs.quiet ?_ ?_ (fun _ => ?_) rfl rfl rfl
    · cases o with
      | clear caller => cases caller <;> rfl
      | _ => rfl
    · cases o with
      | setUnauthenticated caller => exact hwaits.elim
      | _ => rfl
    · cases o <;> rfl

end SignOut

/-- Every call of the app ends as it should. -/
theorem authCall_wp (pid : ℕ) (c : AuthCall) :
    wp (authMachine.ownLog pid RenewsWhatItRead) c.Ends c.body [] := by
  cases c with
  | refreshSession => exact renewSession_wp
  | logout => exact logout_wp
  | clearSession => exact clearSession_wp

/-! ## A sign-out whose operations fail -/

/-- An operation of the token store. -/
def usesStore : SessionOp → Bool
  | .readRefreshToken => true
  | .saveSession _ _ => true
  | .clear _ => true
  | _ => false

/-- The operations in `P` were answered, none of them with an error. -/
def Answered (P : SessionOp → Bool) (own : List SessionEntry) : Prop :=
  ∀ e ∈ own, P e.op = true → e.seen.isOk = true

instance (P : SessionOp → Bool) : DecidablePred (Answered P) := fun own => by
  unfold Answered
  infer_instance

section Completed

variable {P : SessionOp → Bool} {l l' : List SessionEntry}

/-- Two parts of a log were answered when both of them were. -/
theorem answered_append : Answered P (l ++ l') ↔ Answered P l ∧ Answered P l' := by
  simp only [Answered, List.mem_append, or_imp, forall_and]

/-- One operation was answered when it did not throw. -/
theorem answered_iff_of_perform {o : SessionOp} {r : Except DioException o.Res}
    (h : Replay (SessionOp.perform o) l (.ofExcept r)) (ho : P o = true) :
    Answered P l ↔ r.isOk = true := by
  obtain ⟨pid, pre, did, post, rfl⟩ := Replay.perform_iff.mp h
  constructor
  · intro ha
    exact ha _ List.mem_cons_self ho
  · intro hr e he _
    obtain rfl := List.mem_singleton.mp he
    exact hr

/-- The sign-out of the repository has cleared the store, unless an operation of the store failed,
and it has returned when all of its operations were answered, and only then. -/
theorem replay_repository_logout {r : Except DioException Unit}
    (h : Replay SessionRepository.logout l (.ofExcept r)) :
    (Answered usesStore l → ∃ e ∈ l, e.op = .clear .logout) ∧
      (Answered (fun _ => true) l ↔ r.isOk = true) := by
  unfold SessionRepository.logout at h
  rcases Replay.bind_iff.mp h with ⟨err, rfl, hread⟩ | ⟨token, read, rest, rfl, hread, hrest⟩
  · -- The token could not be read: nothing else happened.
    have hfailed : ¬Answered usesStore l := by
      rw [answered_iff_of_perform hread rfl]
      exact Bool.false_ne_true
    exact ⟨fun ha => absurd ha hfailed, answered_iff_of_perform hread rfl⟩
  rcases Replay.bind_iff.mp hrest with ⟨_, -, hnotify⟩ | ⟨outcome, notify, rest, rfl, hnotify, hrest⟩
  · obtain ⟨_, ⟨⟩, -⟩ := Replay.attempt_iff.mp hnotify
  obtain ⟨_, ⟨⟩, hnotify⟩ := Replay.attempt_iff.mp hnotify
  -- The server was told, or there was nothing to tell it.
  have hnotified : Answered (fun _ => true) notify ↔ outcome.isOk = true := by
    have hnothing : Replay (.ret ()) notify (.ofExcept outcome) →
        (Answered (fun _ => true) notify ↔ outcome.isOk = true) := by
      intro hret
      obtain ⟨rfl, rfl⟩ := Replay.ret_iff.mp hret
      exact ⟨fun _ => rfl, fun _ e he => (List.not_mem_nil he).elim⟩
    cases token with
    | none => exact hnothing hnotify
    | some token =>
      dsimp only at hnotify
      split at hnotify
      · exact answered_iff_of_perform hnotify rfl
      · exact hnothing hnotify
  have hreadOk : Answered (fun _ => true) read ↔ True :=
    (answered_iff_of_perform hread rfl).trans (iff_true_intro rfl)
  rcases Replay.bind_iff.mp hrest with ⟨err, rfl, hclear⟩ | ⟨_, clear, last, rfl, hclear, hlast⟩
  · -- The store could not be cleared.
    constructor
    · intro ha
      have hcleared := (answered_append.mp (answered_append.mp ha).2).2
      rw [answered_iff_of_perform hclear rfl] at hcleared
      cases hcleared
    · rw [answered_append, answered_append, answered_iff_of_perform hclear rfl]
      exact ⟨fun ha => ha.2.2, fun hr => by cases hr⟩
  · obtain ⟨rfl, rfl⟩ := Replay.ofExcept_iff.mp hlast
    constructor
    · intro _
      obtain ⟨pid, pre, did, post, rfl⟩ := Replay.perform_iff.mp hclear
      have hmem := List.mem_append_right notify (List.mem_append_left []
        (List.mem_singleton_self (⟨pid, .clear .logout, pre, did, .ok (), post⟩ : SessionEntry)))
      exact ⟨_, List.mem_append_right read hmem, rfl⟩
    · rw [List.append_nil, answered_append, answered_append, answered_iff_of_perform hclear rfl,
        hreadOk, hnotified]
      exact ⟨fun ha => ha.2.1, fun hr => ⟨trivial, hr, rfl⟩⟩

/-- The sign-out has cleared the store, unless an operation of the store failed, and it has returned
when all of its operations were answered, and only then. -/
theorem replay_logout {r : Except DioException Unit}
    (h : Replay AuthController.logout l (.ofExcept r)) :
    (Answered usesStore l → ∃ e ∈ l, e.op = .clear .logout) ∧
      (Answered (fun _ => true) l ↔ r.isOk = true) := by
  unfold AuthController.logout at h
  rcases Replay.bind_iff.mp h with ⟨err, rfl, hrepo⟩ | ⟨_, repo, shown, rfl, hrepo, hshown⟩
  · -- What the repository threw, the controller throws.
    exact replay_repository_logout hrepo
  · obtain ⟨hcleared, hreturned⟩ := replay_repository_logout hrepo
    constructor
    · intro ha
      obtain ⟨e, he, hop⟩ := hcleared (answered_append.mp ha).1
      exact ⟨e, List.mem_append_left _ he, hop⟩
    · rw [answered_append, hreturned, answered_iff_of_perform hshown rfl]
      exact ⟨fun ha => ha.2, fun hr => ⟨rfl, hr⟩⟩

/-- An answered clearing of a sign-out has cleared the store. -/
theorem signedOut_of_answered {e : SessionEntry}
    (hans : authMachine.Answer e.op e.pre e.did e.seen e.post) (hop : e.op = .clear .logout)
    (hseen : e.seen.isOk = true) : signedOut e = true := by
  obtain ⟨pid, o, pre, did, seen, post⟩ := e
  subst hop
  cases seen with
  | error err => cases hseen
  | ok a =>
    have hdid : did = .ok a := hans.did_eq
    subst hdid
    rfl

end Completed

/-- In runs in which no refresh renews a session that has been signed out, nothing is stored when a
sign-out has ended whose operations of the store were answered, whatever the server said, and no one
is signed in when a sign-out has ended whose operations were all answered; those are the sign-outs
that returned. -/
theorem logout_is_final {cfg : signedInSystem.Config}
    (h : signedInSystem.Reachable (fun _ => True) cfg) {pid : ℕ} {r : Except DioException Unit}
    (hlogout : cfg.procs[pid]? = some (.logout, .ofExcept r)) :
    (Answered usesStore (cfg.hist.own pid) →
        cfg.hist.world.accessToken = none ∧ cfg.hist.world.refreshToken = none) ∧
      (Answered (fun _ => true) (cfg.hist.own pid) →
        cfg.hist.world.status ≠ .authenticated) ∧
      (Answered (fun _ => true) (cfg.hist.own pid) ↔ r.isOk = true) := by
  have hkeeps : SignsOut cfg.hist ∧ ∀ pid c a, cfg.procs[pid]? = some (c, .ret a) →
      AuthCall.Ends c (.ok a) (cfg.hist.own pid) := by
    refine @System.keeps_of_ownLog _ _ _ _ signedInSystem _ (fun _ _ => RenewsWhatItRead)
      (fun _ => AuthCall.Ends) SignsOut (fun pid c _ => authCall_wp pid c) ?_ ?_ ?_ _ h
    · rintro s -
      constructor
      case blind => exact fun r l hl => by cases List.suffix_nil.mp hl
      all_goals rintro ⟨x, hx, -⟩
      all_goals cases hx
    · rintro h s hs rfl
      exact hs
    · exact fun pid c o h did seen w hown hs hallow hans => hs.step hown hallow hans
  obtain ⟨hs, hends⟩ := hkeeps
  -- What its own entries say of the sign-out, the first one first.
  obtain ⟨⟨w₀, -, hlinked⟩, -, hreplays⟩ := System.replays h
  have hreverse : ∀ P, Answered P (cfg.hist.own pid).reverse ↔ Answered P (cfg.hist.own pid) :=
    fun P => by simp only [Answered, List.mem_reverse]
  obtain ⟨hcleared, hreturned⟩ := replay_logout (hreplays pid .logout _ hlogout)
  rw [hreverse] at hcleared hreturned
  refine ⟨fun ha => ?_, fun ha => ?_, hreturned⟩
  · obtain ⟨e, he, hop⟩ := hcleared ha
    rw [List.mem_reverse] at he
    have hseen : e.seen.isOk = true := ha e he (by rw [hop]; rfl)
    have hmem : e ∈ cfg.hist.log := (Hist.mem_own.mp he).1
    exact hs.empty ⟨e, hmem, signedOut_of_answered (hlinked.answer hmem) hop hseen⟩
  · have hok := hreturned.mp ha
    cases r with
    | error err => cases hok
    | ok a =>
      obtain ⟨e, he, hshows⟩ := hends pid .logout a hlogout rfl rfl
      exact hs.shown ⟨e, (Hist.mem_own.mp he).1, hshows⟩

/-- Someone who is signed in. -/
def signedInState : AuthState where
  accessToken := some "a1"
  refreshToken := some "r1"
  status := .authenticated
  user := some ⟨"u1", "A", "a@x.io"⟩

/-- A server that renews one session. -/
def oneRefresh : AuthServer where
  refresh token := if token = "r1" then some ⟨⟨"u1", "A", "a@x.io"⟩, "a2", "r2"⟩ else none
  logout _ := true

/-- A sign-out while a refresh is on its way, which the refresh outlives by `n` operations. -/
def logoutOnTheWay
    (allow : ℕ → SessionOp → Hist sessionInterface DioException AuthState → Prop) (n : ℕ) :
    List (System.Action { authSystem with allow := allow }) := List.flatten
  [[.spawn .refreshSession, .spawn .logout], System.turns _ 0 oneRefresh (4 - n),
    System.turns _ 1 oneRefresh 4, System.turns _ 0 oneRefresh n]

/-- A logout while a refresh is under way that comes too late to store its tokens. -/
theorem logout_is_final_renewed : ∃ cfg,
    signedInSystem.play (logoutOnTheWay StillSignedIn 0) (signedInSystem.start signedInState) =
      some cfg ∧ cfg.procs.length = 2 ∧ cfg.hist.world.status ≠ .authenticated ∧
    cfg.hist.world.accessToken = none ∧ cfg.hist.world.refreshToken = none := by
  obtain ⟨cfg, hplay, hall, hlen, hlogout, hstore, hanswered⟩ : ∃ cfg,
      signedInSystem.play (logoutOnTheWay StillSignedIn 0) (signedInSystem.start signedInState) =
        some cfg ∧ signedInSystem.Allowed cfg.hist.log ∧ cfg.procs.length = 2 ∧
      cfg.returned? (fun _ => true) 1 = some (.logout, some true) ∧
      Answered usesStore (cfg.hist.own 1) ∧ Answered (fun _ => true) (cfg.hist.own 1) :=
    System.exists_of_play (by decide +kernel)
  have hreach : signedInSystem.Reachable (fun _ => True) cfg :=
    System.reachable_of_allowed (.start trivial) hplay hall
  obtain ⟨a, hlogout, -⟩ := System.Config.exists_of_returned? hlogout
  obtain ⟨hempty, hshown, -⟩ := @logout_is_final cfg hreach 1 (.ok a) hlogout
  exact ⟨cfg, hplay, hlen, hshown hanswered, hempty hstore⟩

/-- A refresh whose answer arrived after the sign-out signed the user in again. -/
theorem logout_is_undone : ¬∀ cfg : authSystem.Config, authSystem.Reachable (fun _ => True) cfg →
    ∀ (pid : ℕ) (r : Except DioException Unit), cfg.procs[pid]? = some (.logout, .ofExcept r) →
    cfg.hist.world.status ≠ .authenticated ∧ cfg.hist.world.accessToken = none ∧
      cfg.hist.world.refreshToken = none := by
  intro hfinal
  obtain ⟨cfg, hplay, hlogout, hstatus⟩ : ∃ cfg,
      authSystem.play (logoutOnTheWay (fun _ _ _ => True) 2) (authSystem.start signedInState) =
        some cfg ∧ cfg.returned? (fun _ => true) 1 = some (.logout, some true) ∧
      cfg.hist.world.status = .authenticated :=
    System.exists_of_play (by decide +kernel)
  have hreach : authSystem.Reachable (fun _ => True) cfg :=
    System.reachable_of_play (fun _ _ _ => trivial) (.start trivial) hplay
  obtain ⟨a, hlogout, -⟩ := System.Config.exists_of_returned? hlogout
  exact (hfinal cfg hreach 1 (.ok a) hlogout).1 hstatus

/-- A sign-out that the server refuses, alone: the store is empty, and the user is still shown. -/
theorem logout_refused {server : AuthServer} {s : AuthState} {token : String}
    (htoken : s.refreshToken = some token) (hsome : token ≠ "")
    (hrefused : server.logout token = false) :
    authMachine.run server AuthController.logout s =
      (.error ⟨some 401⟩, { s with accessToken := none, refreshToken := none }) := by
  obtain ⟨access, refresh, status, user, message⟩ := s
  obtain rfl : refresh = some token := htoken
  -- The repository clears the store and hands the refusal on.
  have hrepo : authMachine.run server SessionRepository.logout
      ⟨access, some token, status, user, message⟩ =
        (.error ⟨some 401⟩, ⟨none, none, status, user, message⟩) := by
    simp [SessionRepository.logout, SessionOp.perform, Prog.perform, Prog.bind, Prog.attempt,
      Prog.ofExcept, Machine.run, SessionOp.exec, hsome, hrefused]
  exact Machine.run_bind_error hrepo

end SplitBill.Frontend
