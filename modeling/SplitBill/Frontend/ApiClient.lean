import SplitBill.Interleave.Logic
import SplitBill.Js.Map

/-!
# The app's HTTP client

`src/frontend/lib/core/network/api_client.dart`: the interceptors with which the app's single Dio
instance attaches the access token, and refreshes it once when a read-only request is answered 401.
Of Dio, `copyWith` copies the maps of a request, and `fetch` runs the interceptors again, so the
retry of a request is a request of its own, with the headers that the first attempt was given.
-/

namespace SplitBill.Frontend

open Interleave

/-- `RequestOptions`, as far as the interceptors look at them. -/
structure RequestOptions where
  method : String
  path : String
  headers : Js.Map String String
  extra : Js.Map String Bool

/-- `Response`. -/
structure Response where
  statusCode : ℕ
  deriving DecidableEq

/-- `DioException`: a response that is no success, or none at all. -/
structure DioException where
  statusCode : Option ℕ
  deriving DecidableEq

/-- The operations for which the client waits. -/
inductive ClientOp
  /-- `readAccessToken`. -/
  | readAccessToken
  /-- `readRefreshToken`. -/
  | readRefreshToken
  /-- `saveSession`. -/
  | saveSession (accessToken refreshToken : String)
  /-- `clear`. -/
  | clear
  /-- The HTTP adapter sends the request. -/
  | send (options : RequestOptions)
  /-- `POST /auth/refresh`, which has no interceptor of its own to wait for. -/
  | remoteRefresh (refreshToken : String)
  /-- `onSessionExpired`. -/
  | onSessionExpired
  /-- Reads `_refreshInFlight`, and sets it to a new future if there is none. -/
  | joinRefresh
  /-- Waits for a future. -/
  | awaitRefresh (future : ℕ)
  /-- A future is complete, and `_refreshInFlight` is cleared. -/
  | completeRefresh (future : ℕ) (outcome : Except DioException Bool)

/-- What an operation answers. Joining says whether the future is a new one, and its number. -/
abbrev ClientOp.Res : ClientOp → Type
  | readAccessToken => Option String
  | readRefreshToken => Option String
  | saveSession _ _ => Unit
  | clear => Unit
  | send _ => Response
  | remoteRefresh _ => String × String
  | onSessionExpired => Unit
  | joinRefresh => Bool × ℕ
  | awaitRefresh _ => Bool
  | completeRefresh _ _ => Unit

/-- The interface of the client. -/
abbrev clientInterface : Interface := ⟨ClientOp, ClientOp.Res⟩

/-- Asynchronous code of the client. -/
abbrev Call (α : Type) : Type := Prog clientInterface DioException α

/-- The program of one operation. -/
abbrev ClientOp.perform (o : ClientOp) : Call o.Res := @Prog.perform clientInterface DioException o

/-- The app: the stored tokens, the requests that were sent, the latest first, how often the session
expired, and the futures of the refreshes, with the one in flight. -/
structure App where
  accessToken : Option String := none
  refreshToken : Option String := none
  sent : List RequestOptions := []
  expired : ℕ := 0
  futures : List (Option (Except DioException Bool)) := []
  refreshInFlight : Option ℕ := none

/-- The app after a request was sent. -/
def App.send (a : App) (options : RequestOptions) : App := { a with sent := options :: a.sent }

/-- The requests that were sent by the end of a run. -/
abbrev App.sentBy {α : Type} (r : Except DioException α × App) : List RequestOptions := r.2.sent

/-- What is outside: the server, which may remember the requests that it has seen, and what it
answers to a refresh. -/
structure Outside where
  /-- The status of a response; none when there is none. -/
  server : List RequestOptions → RequestOptions → Option ℕ
  /-- The new session. -/
  session : String → Option (String × String)

/-- The answer and the effect of an operation. -/
def ClientOp.exec : (o : ClientOp) → Outside → App → Except DioException o.Res × App
  | readAccessToken, _, a => (.ok a.accessToken, a)
  | readRefreshToken, _, a => (.ok a.refreshToken, a)
  | saveSession access refresh, _, a =>
    (.ok (), { a with accessToken := some access, refreshToken := some refresh })
  | clear, _, a => (.ok (), { a with accessToken := none, refreshToken := none })
  | send options, outside, a =>
    match outside.server a.sent options with
    | some status =>
      if 200 ≤ status ∧ status < 300 then (.ok ⟨status⟩, a.send options)
      else (.error ⟨some status⟩, a.send options)
    | none => (.error ⟨none⟩, a.send options)
  | remoteRefresh token, outside, a =>
    match outside.session token with
    | some session => (.ok session, a)
    | none => (.error ⟨some 401⟩, a)
  | onSessionExpired, _, a => (.ok (), { a with expired := a.expired + 1 })
  | joinRefresh, _, a =>
    match a.refreshInFlight with
    | some future => (.ok (false, future), a)
    | none => (.ok (true, a.futures.length),
        { a with futures := a.futures ++ [none], refreshInFlight := some a.futures.length })
  -- A future that is not complete gives no answer at all, so this one is never seen.
  | awaitRefresh future, _, a => (((a.futures[future]?).join).getD (.error ⟨none⟩), a)
  | completeRefresh future outcome, _, a =>
    (.ok (), { a with futures := a.futures.set future (some outcome), refreshInFlight := none })

/-- The machine on which the client runs. -/
abbrev phone : Machine clientInterface DioException App where
  Choice := Outside
  exec := ClientOp.exec
  fails _ _ := False
  loses _ _ := False

/-- `_unauthenticatedAuthPaths`. -/
def unauthenticatedAuthPaths : List String :=
  ["/auth/login", "/auth/register", "/auth/refresh", "/auth/logout"]

/-- `ApiClient`, with its token store, if it has one, and the `refreshSession` that it is given. -/
structure ApiClient where
  hasTokenStore : Bool
  refreshSession : Option (Call Bool)

namespace ApiClient

/-- `_authRetriedMarker`. -/
def authRetriedMarker : String := "_auth_retried"

/-- `putIfAbsent`. -/
def putIfAbsent (headers : Js.Map String String) (key value : String) : Js.Map String String :=
  if (headers.get? key).isSome then headers else headers.set key value

/-- What `_onRequest` makes of a request when it has read the token. -/
def authorize (token : Option String) (options : RequestOptions) : RequestOptions :=
  match token with
  | some token =>
    if token ≠ "" ∧ options.path ∉ unauthenticatedAuthPaths then
      { options with headers := putIfAbsent options.headers "Authorization" ("Bearer " ++ token) }
    else options
  | none => options

/-- `alreadyRetried`. -/
def alreadyRetried (options : RequestOptions) : Bool :=
  options.extra.get? authRetriedMarker == some true

/-- `isSafeRequest`. -/
def isSafeRequest (options : RequestOptions) : Bool :=
  options.method = "GET" ∨ options.method = "HEAD"

/-- `retryOptions`. -/
def retryOptions (options : RequestOptions) : RequestOptions :=
  { options with extra := options.extra.set authRetriedMarker true }

/-- The access token, if there is a store and it has one. -/
def readAccessToken (client : ApiClient) : Call (Option String) :=
  if client.hasTokenStore then ClientOp.perform .readAccessToken else pure none

/-- `_tryRefreshOnce`, as its caller sees it. -/
def tryRefreshOnce (client : ApiClient) : Call Bool :=
  client.refreshSession.getD (pure false)

/-- `_expireSession`. -/
def expireSession (client : ApiClient) : Call Unit := do
  if client.hasTokenStore then ClientOp.perform .clear
  ClientOp.perform .onSessionExpired

/-- A header more marks no request as retried. -/
theorem alreadyRetried_authorize (token : Option String) (options : RequestOptions) :
    alreadyRetried (authorize token options) = alreadyRetried options := by
  unfold authorize
  split
  · split <;> rfl
  · rfl

/-- A header more leaves the method. -/
theorem isSafeRequest_authorize (token : Option String) (options : RequestOptions) :
    isSafeRequest (authorize token options) = isSafeRequest options := by
  unfold authorize
  split
  · split <;> rfl
  · rfl

/-- A header more leaves the path. -/
theorem path_authorize {token : Option String} {options : RequestOptions} :
    (authorize token options).path = options.path := by
  unfold authorize
  split
  · split <;> rfl
  · rfl

/-- A header more leaves the method as it was sent. -/
theorem method_authorize {token : Option String} {options : RequestOptions} :
    (authorize token options).method = options.method := by
  unfold authorize
  split
  · split <;> rfl
  · rfl

/-- A retry is marked as one. -/
theorem alreadyRetried_retryOptions (options : RequestOptions) :
    alreadyRetried (retryOptions options) = true := by
  simp [alreadyRetried, retryOptions, Js.Map.get?_set]

/-- `fetch` of Dio with the interceptors `_onRequest` and `_onError`. The exception that `_onError`
is given carries the options of the request that was sent. -/
def fetch (client : ApiClient) (options : RequestOptions) : Call Response := do
  let token ← readAccessToken client
  let sent := authorize token options
  match ← (ClientOp.perform (.send sent)).attempt with
  | .ok response => return response
  | .error error =>
    if error.statusCode ≠ some 401 then throw error
    else if sent.path ∈ unauthenticatedAuthPaths then throw error
    else if _h : isSafeRequest sent ∧ ¬alreadyRetried sent then
      let refreshed ← tryRefreshOnce client
      if refreshed then fetch client (retryOptions sent)
      else
        expireSession client
        throw error
    else
      if isSafeRequest sent ∨ alreadyRetried sent then expireSession client
      throw error
termination_by if alreadyRetried options then 0 else 1
decreasing_by
  have hnot : alreadyRetried options = false := by
    rw [← alreadyRetried_authorize token options]
    exact Bool.eq_false_iff.mpr _h.2
  rw [alreadyRetried_retryOptions, hnot]
  decide

end ApiClient

namespace AuthRepository

/-- `refreshSession`, which the client is given. -/
def refreshSession : Call Bool := do
  match ← ClientOp.perform .readRefreshToken with
  | none => return false
  | some refreshToken =>
    if refreshToken = "" then return false
    else
      match ← (ClientOp.perform (.remoteRefresh refreshToken)).attempt with
      | .error _ => return false
      | .ok (accessToken, refreshToken) =>
        ClientOp.perform (.saveSession accessToken refreshToken)
        return true

end AuthRepository

namespace ApiClient

variable {client : ApiClient} {outside : Outside} {a : App} {options : RequestOptions}

/-- The token that is attached to a request that is sent now. -/
def token (client : ApiClient) (a : App) : Option String :=
  if client.hasTokenStore then a.accessToken else none

/-- What the client attaches is the stored token. -/
theorem run_readAccessToken : phone.run outside client.readAccessToken a =
    (.ok (client.token a), a) := by
  unfold readAccessToken token
  split <;> rfl

/-- The app after its session expired. -/
def expired (client : ApiClient) (a : App) : App :=
  if client.hasTokenStore then
    { a with accessToken := none, refreshToken := none, expired := a.expired + 1 }
  else { a with expired := a.expired + 1 }

/-- What is left of a session that expired. -/
theorem run_expireSession :
    phone.run outside client.expireSession a = (.ok (), client.expired a) := by
  unfold expireSession expired
  split <;> rfl

/-- The outcome of a request that is sent once. -/
theorem run_send {sent : RequestOptions} : phone.run outside (ClientOp.perform (.send sent)).attempt
    a = (.ok (ClientOp.exec (.send sent) outside a).1, a.send sent) := by
  have happ : (ClientOp.exec (.send sent) outside a).2 = a.send sent := by
    simp only [ClientOp.exec]
    split
    · split <;> rfl
    · rfl
  refine (Machine.run_attempt phone outside (ClientOp.perform (.send sent)) a).trans ?_
  rw [← happ]
  have hrun : phone.run outside (ClientOp.perform (.send sent)) a =
      ClientOp.exec (.send sent) outside a := Machine.run_perform phone outside _ a
  rw [hrun]

/-- A request that is answered with success. -/
theorem run_fetch_ok {status : ℕ}
    (h : outside.server a.sent (authorize (client.token a) options) = some status)
    (hs : 200 ≤ status ∧ status < 300) : phone.run outside (client.fetch options) a =
      (.ok ⟨status⟩, a.send (authorize (client.token a) options)) := by
  have hexec : (ClientOp.exec (.send (authorize (client.token a) options)) outside a).1 =
      .ok ⟨status⟩ := by
    simp only [ClientOp.exec, h, if_pos hs]
  rw [fetch]
  refine (Machine.run_bind run_readAccessToken).trans ?_
  refine (Machine.run_bind run_send).trans ?_
  rw [hexec]
  rfl

/-- A request that is not to be retried is sent once. -/
theorem sent_fetch_once (h : isSafeRequest options = false ∨ alreadyRetried options = true) :
    (phone.run outside (client.fetch options) a).2.sent =
      authorize (client.token a) options :: a.sent := by
  -- The one thing to show is that the branch with the retry is not taken.
  have hsent : ¬(isSafeRequest (authorize (client.token a) options) = true ∧
      ¬alreadyRetried (authorize (client.token a) options) = true) := by
    rw [isSafeRequest_authorize, alreadyRetried_authorize]
    rintro ⟨hsafe, hretried⟩
    rcases h with h | h
    · rw [h] at hsafe
      cases hsafe
    · exact hretried h
  rw [fetch]
  refine (congrArg App.sentBy (Machine.run_bind run_readAccessToken)).trans ?_
  refine (congrArg App.sentBy (Machine.run_bind run_send)).trans ?_
  -- The branches of `onError`, none of which sends anything.
  cases (ClientOp.exec (.send (authorize (client.token a) options)) outside a).1 with
  | ok response => rfl
  | error error =>
    by_cases hstatus : error.statusCode = some 401
    · by_cases hpath : (authorize (client.token a) options).path ∈ unauthenticatedAuthPaths
      · simp only [hstatus, hpath, ne_eq, not_true_eq_false, if_false, if_true]
        rfl
      · simp only [hstatus, hpath, hsent, ne_eq, not_true_eq_false, if_false, dite_false]
        split
        · refine (congrArg App.sentBy (Machine.run_bind run_expireSession)).trans ?_
          show (client.expired (a.send _)).sent = _
          unfold expired
          split <;> rfl
        · rfl
    · simp only [hstatus, ne_eq, not_false_eq_true, if_true]
      rfl

/-- The first 401 of a read-only request, when the refresh is successful. -/
theorem run_fetch_retry {refresh : Call Bool} {a' : App}
    (hrefresh : client.refreshSession = some refresh) (hsafe : isSafeRequest options = true)
    (hfresh : alreadyRetried options = false) (hpath : options.path ∉ unauthenticatedAuthPaths)
    (h401 : outside.server a.sent (authorize (client.token a) options) = some 401)
    (hrun : phone.run outside refresh (a.send (authorize (client.token a) options)) =
      (.ok true, a')) :
    phone.run outside (client.fetch options) a =
      phone.run outside
        (client.fetch (retryOptions (authorize (client.token a) options))) a' := by
  have hexec : (ClientOp.exec (.send (authorize (client.token a) options)) outside a).1 =
      .error ⟨some 401⟩ := by
    simp [ClientOp.exec, h401]
  -- The request is safe and has not been retried, so that the branch with the retry is taken.
  have hsent : isSafeRequest (authorize (client.token a) options) = true ∧
      ¬alreadyRetried (authorize (client.token a) options) = true := by
    rw [isSafeRequest_authorize, alreadyRetried_authorize, hfresh]
    exact ⟨hsafe, Bool.false_ne_true⟩
  have htry : phone.run outside client.tryRefreshOnce
      (a.send (authorize (client.token a) options)) = (.ok true, a') := by
    rw [tryRefreshOnce, hrefresh]
    exact hrun
  rw [fetch]
  refine (Machine.run_bind run_readAccessToken).trans ((Machine.run_bind run_send).trans ?_)
  rw [hexec]
  have hpath' : (authorize (client.token a) options).path ∉ unauthenticatedAuthPaths := by
    rw [path_authorize]
    exact hpath
  simp only [hpath', hsent, ne_eq, not_true_eq_false, if_false]
  exact Machine.run_bind htry

/-! ## The retry -/

/-- The value of the header with which a request is authorized. -/
def authorization (options : RequestOptions) : Option String := options.headers.get? "Authorization"

/-- The first request was answered 401, and the refresh stored the access token `token`: the request
is sent once more, with this token, and a server that accepts the token answers it while the session
stays. -/
structure Transparent (outside : Outside) (a : App) (first : RequestOptions) (token : String)
    (r : Except DioException Response) (a' : App) : Prop where
  resent : ∃ again, a'.sent = again :: first :: a.sent ∧ again.method = first.method ∧
    again.path = first.path ∧ authorization again = some ("Bearer " ++ token)
  answered : (∀ seen options, authorization options = some ("Bearer " ++ token) →
      ∃ status, outside.server seen options = some status ∧ 200 ≤ status ∧ status < 300) →
    (∃ response, r = .ok response) ∧ a'.accessToken = some token ∧ a'.expired = a.expired

/-- A header that is there is kept. -/
theorem authorization_authorize {token : String} (htoken : token ≠ "")
    (hpath : options.path ∉ unauthenticatedAuthPaths) :
    authorization (authorize (some token) options) =
      some ((authorization options).getD ("Bearer " ++ token)) := by
  simp only [authorize, htoken, ne_eq, not_false_eq_true, hpath, and_self, if_true, authorization,
    putIfAbsent]
  cases h : options.headers.get? "Authorization" with
  | none => simp [Js.Map.get?_set]
  | some value => simp [h]

/-- A read-only request is answered 401, and the refresh stores the access token `token`. It leaves
the app as `a'`, with no other request sent and the session as it is. -/
structure Refreshes (client : ApiClient) (outside : Outside) (a : App) (options : RequestOptions)
    (refresh : Call Bool) (a' : App) (token : String) : Prop where
  callback : client.refreshSession = some refresh
  store : client.hasTokenStore = true
  safe : isSafeRequest options = true
  fresh : alreadyRetried options = false
  path : options.path ∉ unauthenticatedAuthPaths
  expires : outside.server a.sent (authorize (client.token a) options) = some 401
  succeeds :
    phone.run outside refresh (a.send (authorize (client.token a) options)) = (.ok true, a')
  stores : a'.accessToken = some token
  token_ne : token ≠ ""
  sent : a'.sent = authorize (client.token a) options :: a.sent
  expired : a'.expired = a.expired

/-- Such a request is retried transparently just when the first attempt had no `Authorization`
header, or the new one already. -/
theorem Refreshes.transparent_iff {refresh : Call Bool} {a' : App} {token : String}
    (h : Refreshes client outside a options refresh a' token) :
    Transparent outside a (authorize (client.token a) options) token
        (phone.run outside (client.fetch options) a).1
        (phone.run outside (client.fetch options) a).2 ↔
      authorization (authorize (client.token a) options) = none ∨
        authorization (authorize (client.token a) options) = some ("Bearer " ++ token) := by
  obtain ⟨hrefresh, hstore, hsafe, hfresh, hpath, h401, hrun, htoken, hne, hsent, hexpired⟩ := h
  rw [run_fetch_retry hrefresh hsafe hfresh hpath h401 hrun]
  have hpath' : (retryOptions (authorize (client.token a) options)).path ∉
      unauthenticatedAuthPaths := by
    show (authorize (client.token a) options).path ∉ _
    rw [path_authorize]
    exact hpath
  generalize authorize (client.token a) options = first at *
  have htoken' : client.token a' = some token := by
    unfold ApiClient.token
    rw [if_pos hstore, htoken]
  have hagain : (phone.run outside (client.fetch (retryOptions first)) a').2.sent =
      authorize (client.token a') (retryOptions first) :: a'.sent :=
    sent_fetch_once (.inr (alreadyRetried_retryOptions first))
  rw [htoken', hsent] at hagain
  have hheader : authorization (authorize (some token) (retryOptions first)) =
      some ((authorization first).getD ("Bearer " ++ token)) := authorization_authorize hne hpath'
  constructor
  · -- The request that was sent again is the one whose header is known.
    rintro ⟨⟨again, hsent', -, -, hauth⟩, -⟩
    rw [hagain] at hsent'
    obtain ⟨rfl, -⟩ := List.cons_eq_cons.mp hsent'
    rw [hheader] at hauth
    cases hfirst : authorization first with
    | none => exact .inl rfl
    | some value =>
      rw [hfirst] at hauth
      exact .inr hauth
  · intro hcond
    have hauth : authorization (authorize (some token) (retryOptions first)) =
        some ("Bearer " ++ token) := by
      rw [hheader]
      rcases hcond with hcond | hcond <;> rw [hcond] <;> rfl
    refine ⟨⟨_, hagain, ?_, path_authorize, hauth⟩, fun haccepts => ?_⟩
    · exact method_authorize
    · obtain ⟨status, hstatus, hsuccess⟩ := haccepts a'.sent _ hauth
      rw [← htoken'] at hstatus
      rw [run_fetch_ok hstatus hsuccess]
      exact ⟨⟨_, rfl⟩, htoken, hexpired⟩

/-- A request that was sent with another token than the one that the refresh stores is never retried
transparently: the header that it was sent with stays. -/
theorem Refreshes.not_transparent {refresh : Call Bool} {a' : App} {token old : String}
    (h : Refreshes client outside a options refresh a' token)
    (hsigned : authorization (authorize (client.token a) options) = some ("Bearer " ++ old))
    (hother : old ≠ token) :
    ¬Transparent outside a (authorize (client.token a) options) token
      (phone.run outside (client.fetch options) a).1
      (phone.run outside (client.fetch options) a).2 := by
  rw [h.transparent_iff, hsigned, not_or]
  refine ⟨nofun, fun heq => hother ?_⟩
  exact (String.append_right_inj _).mp (Option.some.inj heq)

/-- A read-only request whose token has expired is retried transparently just when the first
attempt had no `Authorization` header, or the new one already. A request with another method is
sent once. -/
theorem transparent_refresh (client : ApiClient) (outside : Outside) (a : App)
    (options : RequestOptions) :
    (isSafeRequest options = false →
      (phone.run outside (client.fetch options) a).2.sent =
        authorize (client.token a) options :: a.sent) ∧
    ∀ (refresh : Call Bool) (a' : App) (token : String), client.refreshSession = some refresh →
      client.hasTokenStore = true → isSafeRequest options = true →
      alreadyRetried options = false → options.path ∉ unauthenticatedAuthPaths →
      outside.server a.sent (authorize (client.token a) options) = some 401 →
      phone.run outside refresh (a.send (authorize (client.token a) options)) = (.ok true, a') →
      a'.accessToken = some token → token ≠ "" →
      a'.sent = authorize (client.token a) options :: a.sent → a'.expired = a.expired →
      (Transparent outside a (authorize (client.token a) options) token
          (phone.run outside (client.fetch options) a).1
          (phone.run outside (client.fetch options) a).2 ↔
        authorization (authorize (client.token a) options) = none ∨
          authorization (authorize (client.token a) options) = some ("Bearer " ++ token)) := by
  refine ⟨fun hsafe => sent_fetch_once (.inl hsafe), ?_⟩
  intro refresh a' token hrefresh hstore hsafe hfresh hpath h401 hrun htoken hne hsent hexpired
  exact Refreshes.transparent_iff
    ⟨hrefresh, hstore, hsafe, hfresh, hpath, h401, hrun, htoken, hne, hsent, hexpired⟩

/-- An app with an expired access token. -/
def staleApp : App := { accessToken := some "stale", refreshToken := some "r1" }

/-- A server that accepts the access token `fresh` only, and one refresh token. -/
def strictServer : Outside where
  server _ options := if authorization options = some "Bearer fresh" then some 200 else some 401
  session token := if token = "r1" then some ("fresh", "r2") else none

/-- The client of the app. -/
def appClient : ApiClient := ⟨true, some AuthRepository.refreshSession⟩

/-- `GET /groups`. -/
def getGroups (headers : Js.Map String String) : RequestOptions :=
  ⟨"GET", "/groups", headers, Js.Map.empty⟩

/-- The stale app is given the fresh tokens. -/
theorem run_refreshSession (sent : RequestOptions) :
    phone.run strictServer AuthRepository.refreshSession (staleApp.send sent) =
      (.ok true,
        { accessToken := some "fresh", refreshToken := some "r2", sent := [sent] }) := rfl

/-- The retry carries the expired token again, so the session is lost although the refresh was
successful. -/
theorem transparent_refresh_stale :
    ¬Transparent strictServer staleApp (authorize (some "stale") (getGroups .empty)) "fresh"
      (phone.run strictServer (appClient.fetch (getGroups .empty)) staleApp).1
      (phone.run strictServer (appClient.fetch (getGroups .empty)) staleApp).2 := by
  have hretry : phone.run strictServer (appClient.fetch (getGroups .empty)) staleApp =
      phone.run strictServer
        (appClient.fetch (retryOptions (authorize (some "stale") (getGroups .empty))))
        { accessToken := some "fresh", refreshToken := some "r2",
          sent := [authorize (some "stale") (getGroups .empty)] } :=
    run_fetch_retry rfl (by decide) (by decide) (by decide) (by decide) (run_refreshSession _)
  rw [hretry]
  have hagain := @sent_fetch_once appClient strictServer
    { accessToken := some "fresh", refreshToken := some "r2",
      sent := [authorize (some "stale") (getGroups .empty)] } _
    (.inr (alreadyRetried_retryOptions (authorize (some "stale") (getGroups .empty))))
  rintro ⟨⟨again, hsent, -, -, hauth⟩, -⟩
  rw [hagain] at hsent
  obtain ⟨rfl, -⟩ := List.cons_eq_cons.mp hsent
  exact absurd hauth (by decide)

/-- A request that was sent before any token was stored. -/
theorem transparent_refresh_unsigned :
    Transparent strictServer { refreshToken := some "r1" } (getGroups .empty) "fresh"
      (phone.run strictServer (appClient.fetch (getGroups .empty))
        { refreshToken := some "r1" }).1
      (phone.run strictServer (appClient.fetch (getGroups .empty))
        { refreshToken := some "r1" }).2 :=
  ((transparent_refresh appClient strictServer { refreshToken := some "r1" } (getGroups .empty)).2
    AuthRepository.refreshSession
    { accessToken := some "fresh", refreshToken := some "r2", sent := [getGroups .empty] }
      "fresh" rfl rfl
    (by decide) (by decide) (by decide) (by decide) rfl rfl (by decide) rfl rfl).mpr (.inl rfl)

end ApiClient

end SplitBill.Frontend
