import SplitBill.Frontend.ApiClient

/-!
# Refreshes that requests share

`_tryRefreshOnce` for requests side by side: a request that is answered 401 joins the refresh that
is in flight, or starts one. The field `_refreshInFlight` is cleared when the refresh is complete,
so a 401 that arrives later starts another one, although it was for the same access token. In runs
in which every 401 of a token that arrives after a refresh for this token finds another refresh in
flight, each token is refreshed once.
-/

namespace SplitBill.Frontend

open Interleave

/-- An entry of the app's log. -/
abbrev ClientEntry := Entry clientInterface DioException App

/-- The operations that do not use `_refreshInFlight`, which is private to the client. -/
def ClientOp.OffFlight : ClientOp → Prop
  | joinRefresh => False
  | awaitRefresh _ => False
  | completeRefresh _ _ => False
  | _ => True

/-- The `refreshSession` that a client is given. -/
structure RefreshSession where
  run : Call Bool
  offFlight : run.Issues ClientOp.OffFlight

namespace ApiClient

/-- `_tryRefreshOnce`: the caller that starts the refresh also completes it, and the others wait for
its future. -/
def shareRefresh (refresh : Call Bool) : Call Bool := do
  let (starts, future) ← ClientOp.perform .joinRefresh
  if starts then
    let outcome ← refresh.attempt
    ClientOp.perform (.completeRefresh future outcome)
    Prog.ofExcept outcome
  else ClientOp.perform (.awaitRefresh future)

/-- A client whose requests share their refreshes. -/
def shared (hasTokenStore : Bool) (refresh : Option RefreshSession) : ApiClient where
  hasTokenStore := hasTokenStore
  refreshSession := refresh.map fun refresh => shareRefresh refresh.run

end ApiClient

/-- A future can be waited for until it is complete. -/
def Ready (o : ClientOp) (a : App) : Prop :=
  match o with
  | .awaitRefresh future => (a.futures[future]?).join.isSome = true
  | _ => True

instance (o : ClientOp) (a : App) : Decidable (Ready o a) := by
  unfold Ready
  split <;> infer_instance

/-- The requests of a client, side by side. Whatever else the app does leaves the refreshes
alone. -/
abbrev requestSystem (hasTokenStore : Bool) (refresh : Option RefreshSession) :
    System clientInterface DioException Response App where
  machine := phone
  Call := RequestOptions
  body := (ApiClient.shared hasTokenStore refresh).fetch
  valid := fun _ => True
  env := fun a a' => a'.futures = a.futures ∧ a'.refreshInFlight = a.refreshInFlight
  allow := fun _ o h => Ready o h.world

instance (hasTokenStore : Bool) (refresh : Option RefreshSession) :
    DecidablePred (requestSystem hasTokenStore refresh).valid :=
  fun _ => isTrue trivial

/-! ## What the log says -/

/-- The request that an operation sends. -/
def sent? : ClientOp → Option RequestOptions
  | .send options => some options
  | _ => none

/-- The number of the refresh that an entry started. -/
def startedRefresh? : ClientEntry → Option ℕ
  | ⟨_, .joinRefresh, _, _, .ok (true, future), _⟩ => some future
  | _ => none

/-- The number of the refresh that an operation completes. -/
def completedRefresh? : ClientOp → Option ℕ
  | .completeRefresh future _ => some future
  | _ => none

/-- The request with which a call began. -/
def firstRequest (pid : ℕ) (log : List ClientEntry) : Option RequestOptions :=
  (log.filter (·.pid = pid)).reverse.findSome? fun e => sent? e.op

/-- The access token with which a call began, as its header carries it. -/
def tokenOf (pid : ℕ) (log : List ClientEntry) : Option String :=
  (firstRequest pid log).bind ApiClient.authorization

/-- The calls of `refreshSession` on behalf of requests that were sent with the token. -/
def refreshesFor (token : String) (log : List ClientEntry) : List ClientEntry :=
  log.filter fun e => (startedRefresh? e).isSome ∧ tokenOf e.pid log = some token

/-- A 401 arrives while a refresh is in flight, which it joins, or no refresh for the token of its
request is complete. -/
def InTime (pid : ℕ) (o : ClientOp) (h : Hist clientInterface DioException App) : Prop :=
  match o with
  | .joinRefresh => h.world.refreshInFlight = none →
    ∀ e ∈ h.log, (completedRefresh? e.op).isSome = true →
      tokenOf e.pid h.log = none ∨ tokenOf e.pid h.log ≠ tokenOf pid h.log
  | _ => True

instance (pid : ℕ) (o : ClientOp) (h : Hist clientInterface DioException App) :
    Decidable (InTime pid o h) := by
  unfold InTime
  split <;> infer_instance

/-- The requests of a client, in runs in which no 401 arrives too late. -/
abbrev timelySystem (hasTokenStore : Bool) (refresh : Option RefreshSession) :
    System clientInterface DioException Response App :=
  { requestSystem hasTokenStore refresh with
    allow := fun pid o h => Ready o h.world ∧ InTime pid o h }

instance (hasTokenStore : Bool) (refresh : Option RefreshSession) :
    DecidablePred (timelySystem hasTokenStore refresh).valid :=
  fun _ => isTrue trivial

/-! ## What a request does -/

/-- A call joins a refresh after it has sent its request, and completes the one refresh that it has
started. -/
structure JoinsAndCompletes (own : List ClientEntry) (o : ClientOp) : Prop where
  joins : o = .joinRefresh → ∃ e ∈ own, (sent? e.op).isSome = true
  completes : ∀ future, completedRefresh? o = some future →
    (∃ e ∈ own, startedRefresh? e = some future) ∧ ∀ e ∈ own, completedRefresh? e.op = none

/-- Any other operation is all right. -/
theorem ClientOp.OffFlight.joinsAndCompletes {o : ClientOp} (ho : o.OffFlight)
    (own : List ClientEntry) : JoinsAndCompletes own o := by
  cases o with
  | joinRefresh => exact ho.elim
  | completeRefresh future outcome => exact ho.elim
  | _ =>
    refine ⟨fun h => ?_, fun future h => ?_⟩
    · cases h
    · cases h

section Calls

variable {pid : ℕ} {own : List ClientEntry}

/-- A part of a request that does not use `_refreshInFlight`. -/
theorem offFlight_wp {α : Type} {p : Call α} (hp : p.Issues ClientOp.OffFlight) :
    wp (phone.ownLog pid JoinsAndCompletes) (fun _ _ => True) p own :=
  wp_ownLog_of_issues (I := fun _ => True) hp (fun l _ _ ho => ho.joinsAndCompletes l)
    (fun _ _ _ _ _ _ _ _ _ => trivial) (fun _ _ _ => trivial) trivial

/-- The callback leaves no trace of a completed refresh. -/
theorem refreshSession_wp (refresh : RefreshSession) {future : ℕ}
    (hstarted : ∃ e ∈ own, startedRefresh? e = some future)
    (hclean : ∀ e ∈ own, completedRefresh? e.op = none) :
    wp (phone.ownLog pid JoinsAndCompletes)
      (fun _ own => (∃ e ∈ own, startedRefresh? e = some future) ∧
        ∀ e ∈ own, completedRefresh? e.op = none) refresh.run own := by
  refine wp_ownLog_of_issues (I := fun own => (∃ e ∈ own, startedRefresh? e = some future) ∧
    ∀ e ∈ own, completedRefresh? e.op = none) refresh.offFlight
    (fun l _ _ ho => ho.joinsAndCompletes l) ?_ (fun _ _ h => h) ⟨hstarted, hclean⟩
  rintro l o w did r w' ⟨⟨e, he, hfuture⟩, hl⟩ ho -
  refine ⟨⟨e, List.mem_cons_of_mem _ he, hfuture⟩, List.forall_mem_cons.mpr ⟨?_, hl⟩⟩
  cases o with
  | completeRefresh future outcome => exact ho.elim
  | _ => rfl

/-- The refresh of a request that has been sent. -/
theorem shareRefresh_wp (refresh : RefreshSession) (hsent : ∃ e ∈ own, (sent? e.op).isSome = true)
    (hclean : ∀ e ∈ own, completedRefresh? e.op = none) :
    wp (phone.ownLog pid JoinsAndCompletes) (fun _ _ => True)
      (ApiClient.shareRefresh refresh.run) own := by
  have hjoin : JoinsAndCompletes own .joinRefresh := by
    refine ⟨fun _ => hsent, fun future h => ?_⟩
    cases h
  refine wp_ownLog_bind (fun _ _ => trivial) hjoin fun w did joined w' _ => ?_
  obtain ⟨starts, future⟩ := joined
  cases starts with
  | false =>
    refine wp_ownLog_perform ⟨fun h => ?_, fun future' h => ?_⟩ fun _ _ _ _ _ => trivial
    · cases h
    · cases h
  | true =>
    -- The entry of the join says which refresh the call has started.
    refine wp_bind.mpr (wp_attempt.mpr (wp_mono ?_ (@refreshSession_wp _ _ refresh future
      ⟨_, List.mem_cons_self, rfl⟩ (List.forall_mem_cons.mpr ⟨rfl, hclean⟩))))
    rintro outcome own ⟨hstarted, hclean⟩
    refine wp_ownLog_bind (fun _ _ => trivial) ⟨fun h => ?_, fun future' h => ?_⟩
      fun _ _ _ _ _ => ?_
    · cases h
    · obtain rfl := Option.some.inj h
      exact ⟨hstarted, hclean⟩
    · cases outcome <;> trivial

variable {hasTokenStore : Bool} {refresh : Option RefreshSession}

/-- One operation of the client. -/
theorem issues_clientOp {A : ClientOp → Prop} {o : ClientOp} (ho : A o) :
    (ClientOp.perform o).Issues A :=
  (@Prog.issues_perform clientInterface DioException A o).mpr ho

/-- Reading the token. -/
theorem readAccessToken_issues (client : ApiClient) :
    client.readAccessToken.Issues ClientOp.OffFlight := by
  unfold ApiClient.readAccessToken
  split
  · exact issues_clientOp trivial
  · trivial

/-- The end of a session. -/
theorem expireSession_issues (client : ApiClient) :
    client.expireSession.Issues ClientOp.OffFlight := by
  unfold ApiClient.expireSession
  split
  · exact .bind (issues_clientOp trivial) fun _ => issues_clientOp trivial
  · exact issues_clientOp trivial

/-- A request that is not to be retried joins no refresh. -/
theorem fetch_issues_retried (client : ApiClient) {options : RequestOptions}
    (h : ApiClient.alreadyRetried options = true) :
    (client.fetch options).Issues ClientOp.OffFlight := by
  rw [ApiClient.fetch]
  refine .bind (readAccessToken_issues client) fun token =>
    .bind (.attempt (issues_clientOp trivial)) fun outcome => ?_
  cases outcome with
  | ok response => trivial
  | error error =>
    have hretried : ApiClient.alreadyRetried (ApiClient.authorize token options) = true :=
      (ApiClient.alreadyRetried_authorize token options).trans h
    dsimp only
    split
    · trivial
    · split
      · trivial
      · split
        · next hfirst => exact absurd hretried hfirst.2
        · split
          · exact .bind (expireSession_issues client) fun _ => trivial
          · trivial

/-- The refresh of a request that has been sent, if the client was given a way to refresh. -/
theorem tryRefreshOnce_wp (hsent : ∃ e ∈ own, (sent? e.op).isSome = true)
    (hclean : ∀ e ∈ own, completedRefresh? e.op = none) :
    wp (phone.ownLog pid JoinsAndCompletes) (fun _ _ => True)
      (ApiClient.shared hasTokenStore refresh).tryRefreshOnce own := by
  cases refresh with
  | none => trivial
  | some refresh => exact shareRefresh_wp refresh hsent hclean

/-- A request. -/
theorem fetch_wp (options : RequestOptions) :
    wp (phone.ownLog pid JoinsAndCompletes) (fun _ _ => True)
      ((ApiClient.shared hasTokenStore refresh).fetch options) [] := by
  rw [ApiClient.fetch]
  refine wp_bind.mpr ?_
  refine wp_ownLog_of_issues (I := fun own => ∀ e ∈ own, completedRefresh? e.op = none)
    (readAccessToken_issues _) (fun l _ _ ho => ho.joinsAndCompletes l) ?_ ?_ ?_
  · rintro l o w did r w' hl ho -
    refine List.forall_mem_cons.mpr ⟨?_, hl⟩
    cases o with
    | completeRefresh future outcome => exact ho.elim
    | _ => rfl
  · rintro (e | token) own hclean
    · trivial
    refine wp_bind.mpr (wp_attempt.mpr (wp_ownLog_perform ?_ fun w did outcome w' _ => ?_))
    · have hsend : ClientOp.OffFlight (.send (ApiClient.authorize token options)) := trivial
      exact hsend.joinsAndCompletes own
    cases outcome with
    | ok response => trivial
    | error error =>
      dsimp only [andThen]
      split
      · trivial
      · split
        · trivial
        · split
          · -- The request has been sent, and the call has completed no refresh yet.
            refine wp_bind.mpr (wp_mono ?_ (tryRefreshOnce_wp ⟨_, List.mem_cons_self, rfl⟩
              (List.forall_mem_cons.mpr ⟨rfl, hclean⟩)))
            rintro (e | refreshed) own' -
            · trivial
            cases refreshed with
            | true => exact offFlight_wp (fetch_issues_retried _
                (ApiClient.alreadyRetried_retryOptions _))
            | false => exact offFlight_wp (.bind (expireSession_issues _) fun _ => trivial)
          · split
            · exact offFlight_wp (.bind (expireSession_issues _) fun _ => trivial)
            · trivial
  · exact fun e he => (List.not_mem_nil he).elim

end Calls

/-! ## One refresh for each token -/

section Flights

variable {h : Hist clientInterface DioException App} {log : List ClientEntry} {pid : ℕ}

/-- The first request of a call stays the first one. -/
theorem firstRequest_cons (hfirst : (firstRequest pid log).isSome = true) (e : ClientEntry) :
    firstRequest pid (e :: log) = firstRequest pid log := by
  obtain ⟨options, hoptions⟩ := Option.isSome_iff_exists.mp hfirst
  unfold firstRequest at hoptions ⊢
  rw [List.filter_cons]
  split
  · rw [List.reverse_cons, List.findSome?_append, hoptions]
    rfl
  · rfl

/-- A call that has sent a request has a first one. -/
theorem isSome_firstRequest {e : ClientEntry} (he : e ∈ h.own pid)
    (hsent : (sent? e.op).isSome = true) : (firstRequest pid h.log).isSome = true := by
  unfold firstRequest
  rw [List.findSome?_isSome_iff]
  exact ⟨e, List.mem_reverse.mpr he, hsent⟩

/-- The token of a call stays. -/
theorem tokenOf_cons (hfirst : (firstRequest pid log).isSome = true) (e : ClientEntry) :
    tokenOf pid (e :: log) = tokenOf pid log := by
  unfold tokenOf
  rw [firstRequest_cons hfirst]

/-- What a run says of its refreshes. -/
structure Flights (h : Hist clientInterface DioException App) : Prop where
  /-- A refresh has a number of its own. -/
  below : ∀ e ∈ h.log, ∀ n, startedRefresh? e = some n → n < h.world.futures.length
  same : ∀ e ∈ h.log, ∀ e' ∈ h.log, ∀ n, startedRefresh? e = some n →
    startedRefresh? e' = some n → e.pid = e'.pid
  /-- A refresh is complete or in flight. -/
  flying : ∀ e ∈ h.log, ∀ n, startedRefresh? e = some n →
    (∃ c ∈ h.log, completedRefresh? c.op = some n) ∨ h.world.refreshInFlight = some n
  /-- A refresh is completed by the call that started it. -/
  completed : ∀ c ∈ h.log, ∀ n, completedRefresh? c.op = some n →
    ∃ e ∈ h.log, e.pid = c.pid ∧ startedRefresh? e = some n
  /-- A refresh is for a request that was sent. -/
  sent : ∀ e ∈ h.log, (startedRefresh? e).isSome = true → (firstRequest e.pid h.log).isSome = true
  /-- Each token is refreshed once. -/
  once : ∀ token, (refreshesFor token h.log).length ≤ 1

/-- The refreshes for a token after one more operation. -/
theorem refreshesFor_cons (hf : Flights h) (e : ClientEntry) (token : String) :
    refreshesFor token (e :: h.log) =
      (if (startedRefresh? e).isSome ∧ tokenOf e.pid (e :: h.log) = some token then [e] else []) ++
        refreshesFor token h.log := by
  have hrest : h.log.filter (fun x => (startedRefresh? x).isSome ∧
      tokenOf x.pid (e :: h.log) = some token) = refreshesFor token h.log := by
    refine List.filter_congr fun x hx => ?_
    cases hstarted : (startedRefresh? x).isSome with
    | false => simp
    | true => rw [tokenOf_cons (hf.sent x hx hstarted)]
  unfold refreshesFor at hrest ⊢
  rw [List.filter_cons, hrest]
  simp only [decide_eq_true_eq]
  split <;> rfl

/-- An operation that neither starts nor completes a refresh. -/
theorem Flights.quiet (hf : Flights h) {e : ClientEntry} {w : App}
    (hstarted : startedRefresh? e = none) (hcompleted : completedRefresh? e.op = none)
    (hfutures : w.futures = h.world.futures)
    (hflight : w.refreshInFlight = h.world.refreshInFlight) :
    Flights ⟨w, e :: h.log⟩ := by
  -- Whatever started or completed a refresh did so before.
  have hold : ∀ x ∈ e :: h.log, (startedRefresh? x).isSome = true ∨
      (completedRefresh? x.op).isSome = true → x ∈ h.log := by
    intro x hx hmark
    rcases List.mem_cons.mp hx with rfl | hx
    · rw [hstarted, hcompleted] at hmark
      simp at hmark
    · exact hx
  have hstart : ∀ x ∈ e :: h.log, ∀ n, startedRefresh? x = some n → x ∈ h.log :=
    fun x hx n hn => hold x hx (.inl (Option.isSome_of_eq_some hn))
  constructor
  case below =>
    intro x hx n hn
    rw [show (⟨w, e :: h.log⟩ : Hist _ _ _).world.futures = h.world.futures from hfutures]
    exact hf.below x (hstart x hx n hn) n hn
  case same =>
    intro x hx y hy n hxn hyn
    exact hf.same x (hstart x hx n hxn) y (hstart y hy n hyn) n hxn hyn
  case flying =>
    intro x hx n hn
    rcases hf.flying x (hstart x hx n hn) n hn with ⟨c, hc, hcn⟩ | hin
    · exact .inl ⟨c, List.mem_cons_of_mem _ hc, hcn⟩
    · exact .inr (hflight.trans hin)
  case completed =>
    intro c hc n hn
    obtain ⟨x, hx, hpid, hxn⟩ :=
      hf.completed c (hold c hc (.inr (Option.isSome_of_eq_some hn))) n hn
    exact ⟨x, List.mem_cons_of_mem _ hx, hpid, hxn⟩
  case sent =>
    intro x hx hsome
    have hfirst := hf.sent x (hold x hx (.inl hsome)) hsome
    show (firstRequest x.pid (e :: h.log)).isSome = true
    rw [firstRequest_cons hfirst]
    exact hfirst
  case once =>
    intro token
    show (refreshesFor token (e :: h.log)).length ≤ 1
    rw [refreshesFor_cons hf, hstarted]
    simpa using hf.once token

/-- A 401 in time starts a refresh only when there was none for its token. -/
theorem Flights.start (hf : Flights h) (hflight : h.world.refreshInFlight = none)
    (hfirst : (firstRequest pid h.log).isSome = true) (htime : InTime pid .joinRefresh h)
    (did : Except DioException (Bool × ℕ)) :
    Flights (h.record pid .joinRefresh did (.ok (true, h.world.futures.length))
      { h.world with futures := h.world.futures ++ [none],
                     refreshInFlight := some h.world.futures.length }) := by
  have hlast : ∀ e ∈ h.log, startedRefresh? e ≠ some h.world.futures.length := by
    intro e he hn
    have hlt := hf.below e he _ hn
    omega
  constructor
  case below =>
    intro e he n hn
    have hlen : (h.world.futures ++ [none]).length = h.world.futures.length + 1 := by simp
    show n < (h.world.futures ++ [none]).length
    rcases List.mem_cons.mp he with rfl | he
    · obtain rfl := Option.some.inj hn
      omega
    · have hlt := hf.below e he n hn
      omega
  case same =>
    intro e he e' he' n hn hn'
    rcases List.mem_cons.mp he with rfl | he <;> rcases List.mem_cons.mp he' with rfl | he'
    · rfl
    · exact absurd (hn'.trans hn.symm) (hlast e' he')
    · exact absurd (hn.trans hn'.symm) (hlast e he)
    · exact hf.same e he e' he' n hn hn'
  case flying =>
    intro e he n hn
    rcases List.mem_cons.mp he with rfl | he
    · exact .inr hn
    · -- No other refresh is in flight, so it is complete.
      rcases hf.flying e he n hn with ⟨c, hc, hcn⟩ | hin
      · exact .inl ⟨c, List.mem_cons_of_mem _ hc, hcn⟩
      · rw [hflight] at hin
        cases hin
  case completed =>
    intro c hc n hn
    rcases List.mem_cons.mp hc with rfl | hc
    · cases hn
    · obtain ⟨e, he, hpid, hen⟩ := hf.completed c hc n hn
      exact ⟨e, List.mem_cons_of_mem _ he, hpid, hen⟩
  case sent =>
    intro e he hsome
    have hfirst : (firstRequest e.pid h.log).isSome = true := by
      rcases List.mem_cons.mp he with rfl | he
      · exact hfirst
      · exact hf.sent e he hsome
    rw [Hist.record_log, firstRequest_cons hfirst]
    exact hfirst
  case once =>
    intro token
    rw [Hist.record_log, refreshesFor_cons hf, tokenOf_cons hfirst]
    split
    · next hnew =>
      -- An earlier refresh for this token would be complete, and the 401 too late.
      have hnone : refreshesFor token h.log = [] := by
        refine List.filter_eq_nil_iff.mpr fun e he hboth => ?_
        obtain ⟨hsome, htoken⟩ : (startedRefresh? e).isSome = true ∧
            tokenOf e.pid h.log = some token := by simpa using hboth
        obtain ⟨n, hn⟩ := Option.isSome_iff_exists.mp hsome
        rcases hf.flying e he n hn with ⟨c, hc, hcn⟩ | hin
        · obtain ⟨e', he', hpid, hn'⟩ := hf.completed c hc n hcn
          have hsame : c.pid = e.pid := hpid.symm.trans (hf.same e' he' e he n hn' hn)
          rcases htime hflight c hc (Option.isSome_of_eq_some hcn) with hno | hother
          · rw [hsame, htoken] at hno
            cases hno
          · rw [hsame, htoken] at hother
            exact hother hnew.2.symm
        · rw [hflight] at hin
          cases hin
      rw [hnone]
      simp
    · exact hf.once token

/-- The call that started a refresh completes it. -/
theorem Flights.complete (hf : Flights h) {future : ℕ} {outcome : Except DioException Bool}
    (hown : JoinsAndCompletes (h.own pid) (.completeRefresh future outcome))
    (did seen : Except DioException Unit) :
    Flights (h.record pid (.completeRefresh future outcome) did seen
      { h.world with futures := h.world.futures.set future (some outcome),
                     refreshInFlight := none }) := by
  obtain ⟨⟨s, hs, hsn⟩, hclean⟩ := hown.completes future rfl
  obtain ⟨hslog, hspid⟩ := Hist.mem_own.mp hs
  -- It was the one in flight.
  have hflight : h.world.refreshInFlight = some future := by
    rcases hf.flying s hslog future hsn with ⟨c, hc, hcn⟩ | hin
    · obtain ⟨e, he, hpid, hen⟩ := hf.completed c hc future hcn
      have hsame : c.pid = pid := by rw [← hpid, hf.same e he s hslog future hen hsn, hspid]
      rw [hclean c (Hist.mem_own.mpr ⟨hc, hsame⟩)] at hcn
      cases hcn
    · exact hin
  have hstart : ∀ e ∈ (h.record pid (.completeRefresh future outcome) did seen
      { h.world with futures := h.world.futures.set future (some outcome),
                     refreshInFlight := none }).log, ∀ n, startedRefresh? e = some n →
                       e ∈ h.log := by
    intro e he n hn
    rcases List.mem_cons.mp he with rfl | he
    · cases hn
    · exact he
  constructor
  case below =>
    intro e he n hn
    have hlt := hf.below e (hstart e he n hn) n hn
    rw [Hist.record_world, List.length_set]
    exact hlt
  case same =>
    intro e he e' he' n hn hn'
    exact hf.same e (hstart e he n hn) e' (hstart e' he' n hn') n hn hn'
  case flying =>
    intro e he n hn
    refine .inl ?_
    rcases hf.flying e (hstart e he n hn) n hn with ⟨c, hc, hcn⟩ | hin
    · exact ⟨c, List.mem_cons_of_mem _ hc, hcn⟩
    · rw [hflight] at hin
      exact ⟨_, List.mem_cons_self, hin⟩
  case completed =>
    intro c hc n hn
    rcases List.mem_cons.mp hc with rfl | hc
    · obtain rfl := Option.some.inj hn
      exact ⟨s, List.mem_cons_of_mem _ hslog, hspid, hsn⟩
    · obtain ⟨e, he, hpid, hen⟩ := hf.completed c hc n hn
      exact ⟨e, List.mem_cons_of_mem _ he, hpid, hen⟩
  case sent =>
    intro e he hsome
    obtain ⟨n, hn⟩ := Option.isSome_iff_exists.mp hsome
    have hfirst := hf.sent e (hstart e he n hn) hsome
    rw [Hist.record_log, firstRequest_cons hfirst]
    exact hfirst
  case once =>
    intro token
    rw [Hist.record_log, refreshesFor_cons hf]
    exact hf.once token

end Flights

/-- Before the first request nothing was refreshed. -/
theorem Flights.init (a : App) : Flights ⟨a, []⟩ := by
  constructor
  case once => exact fun _ => Nat.zero_le 1
  all_goals exact fun _ he => (List.not_mem_nil he).elim

/-- What happens outside of the client leaves its refreshes alone. -/
theorem Flights.env {h : Hist clientInterface DioException App} (hf : Flights h) {a : App}
    (hfutures : a.futures = h.world.futures)
    (hflight : a.refreshInFlight = h.world.refreshInFlight) :
    Flights (h.withWorld a) := by
  constructor
  case below =>
    intro e he n hn
    rw [Hist.withWorld_world, hfutures]
    exact hf.below e he n hn
  case same => exact hf.same
  case flying =>
    intro e he n hn
    rw [Hist.withWorld_world, hflight]
    exact hf.flying e he n hn
  case completed => exact hf.completed
  case sent => exact hf.sent
  case once => exact hf.once

/-- Every operation of a request keeps what the run says of its refreshes. -/
theorem Flights.step {h : Hist clientInterface DioException App} (hf : Flights h) {pid : ℕ}
    {o : ClientOp} (hown : JoinsAndCompletes (h.own pid) o) (htime : InTime pid o h)
    {did seen : Except DioException (clientInterface.Res o)} {w : App}
    (hans : phone.Answer o h.world did seen w) :
    Flights (h.record pid o did seen w) := by
  cases hans with
  | failed e h => exact h.elim
  | lost e c h => exact h.elim
  | done outside =>
    cases o with
    | joinRefresh =>
      have hfirst : (firstRequest pid h.log).isSome = true := by
        obtain ⟨e, he, hsent⟩ := hown.joins rfl
        exact isSome_firstRequest he hsent
      cases hflight : h.world.refreshInFlight with
      | none =>
        have hstart := hf.start hflight hfirst htime (.ok (true, h.world.futures.length))
        simpa [ClientOp.exec, hflight] using hstart
      | some future =>
        -- The call only waits.
        have hquiet : Flights (h.record pid .joinRefresh (.ok (false, future))
          (.ok (false, future)) h.world) := hf.quiet rfl rfl rfl rfl
        simpa [ClientOp.exec, hflight] using hquiet
    | completeRefresh future outcome => exact hf.complete hown _ _
    | send options =>
      have happ : ∀ outcome : Except DioException Response × App,
          outcome = ClientOp.exec (.send options) outside h.world →
          outcome.2.futures = h.world.futures ∧
            outcome.2.refreshInFlight = h.world.refreshInFlight := by
        rintro _ rfl
        simp only [ClientOp.exec]
        split
        · split <;> exact ⟨rfl, rfl⟩
        · exact ⟨rfl, rfl⟩
      exact hf.quiet rfl rfl (happ _ rfl).1 (happ _ rfl).2
    | remoteRefresh token =>
      have happ : (ClientOp.exec (.remoteRefresh token) outside h.world).2 = h.world := by
        simp only [ClientOp.exec]
        split <;> rfl
      exact hf.quiet rfl rfl (congrArg App.futures happ) (congrArg App.refreshInFlight happ)
    | _ => exact hf.quiet rfl rfl rfl rfl

/-- In runs in which every 401 joins a refresh in flight or arrives before any refresh for its token
is complete, each token is refreshed once. -/
theorem refreshes_once {hasTokenStore : Bool} {refresh : Option RefreshSession}
    {cfg : (timelySystem hasTokenStore refresh).Config}
    (h : (timelySystem hasTokenStore refresh).Reachable (fun _ => True) cfg) (token : String) :
    (refreshesFor token cfg.hist.log).length ≤ 1 := by
  refine (@System.keeps_of_ownLog _ _ _ _ (timelySystem hasTokenStore refresh) _
    (fun _ _ => JoinsAndCompletes) (fun _ _ _ _ => True) Flights
    (fun _ options _ => fetch_wp options) ?_ ?_ ?_ _ h).1.once token
  · exact fun a _ => Flights.init a
  · exact fun h w hf henv => hf.env henv.1 henv.2
  · intro pid c o h did seen w ho hf hallow hans
    exact hf.step ho hallow.2 hans

/-- The `refreshSession` of the app. -/
def appRefresh : RefreshSession where
  run := AuthRepository.refreshSession
  offFlight := by
    unfold AuthRepository.refreshSession
    refine .bind (issues_clientOp trivial) fun refreshToken => ?_
    split
    · trivial
    · split
      · trivial
      · refine .bind (.attempt (issues_clientOp trivial)) fun session => ?_
        split
        · trivial
        · exact .bind (issues_clientOp trivial) fun _ => trivial

/-- Two requests that are sent with the same expired token. The second one is answered while the
refresh of the first one is in flight, or after it. -/
def parallelRequests (allow : ℕ → ClientOp → Hist clientInterface DioException App → Prop)
    (before : Bool) :
    List (System.Action { requestSystem true (some appRefresh) with allow := allow }) :=
  let request : ℕ → System.Action { requestSystem true (some appRefresh) with allow := allow } :=
    fun pid => .op pid ApiClient.strictServer
  List.flatten [[.spawn (ApiClient.getGroups .empty), .spawn (ApiClient.getGroups .empty),
    request 0, request 1, request 0, request 0],
    if before then [request 1, request 1] else [], System.turns _ 0 ApiClient.strictServer 4,
    if before then [request 1] else [request 1, request 1]]

/-- Two requests share a refresh. -/
theorem refreshes_once_shared : ∃ cfg,
    (timelySystem true (some appRefresh)).play
      (parallelRequests (fun pid o h => Ready o h.world ∧ InTime pid o h) true)
      ((timelySystem true (some appRefresh)).start ApiClient.staleApp) = some cfg ∧
    (∃ e ∈ cfg.hist.log, (startedRefresh? e).isSome = true) ∧
    (refreshesFor "Bearer stale" cfg.hist.log).length ≤ 1 := by
  obtain ⟨cfg, hplay, hall, hstarted⟩ : ∃ cfg, (timelySystem true (some appRefresh)).play
      (parallelRequests (fun pid o h => Ready o h.world ∧ InTime pid o h) true)
      ((timelySystem true (some appRefresh)).start ApiClient.staleApp) = some cfg ∧
      (timelySystem true (some appRefresh)).Allowed cfg.hist.log ∧
      ∃ e ∈ cfg.hist.log, (startedRefresh? e).isSome = true :=
    System.exists_of_play (by decide +kernel)
  have hreach : (timelySystem true (some appRefresh)).Reachable (fun _ => True) cfg :=
    System.reachable_of_allowed (.start trivial) hplay hall
  exact ⟨cfg, hplay, hstarted, refreshes_once hreach "Bearer stale"⟩

/-- A 401 that arrived after the refresh rotated the refresh token again. -/
theorem refreshes_twice : ¬∀ (hasTokenStore : Bool) (refresh : Option RefreshSession)
    (cfg : (requestSystem hasTokenStore refresh).Config),
    (requestSystem hasTokenStore refresh).Reachable (fun _ => True) cfg →
    ∀ token, (refreshesFor token cfg.hist.log).length ≤ 1 := by
  intro honce
  obtain ⟨cfg, hplay, hall, htwice⟩ : ∃ cfg, (requestSystem true (some appRefresh)).play
      (parallelRequests (fun _ o h => Ready o h.world) false)
      ((requestSystem true (some appRefresh)).start ApiClient.staleApp) = some cfg ∧
      (requestSystem true (some appRefresh)).Allowed cfg.hist.log ∧
      (refreshesFor "Bearer stale" cfg.hist.log).length = 2 :=
    System.exists_of_play (by decide +kernel)
  have hreach : (requestSystem true (some appRefresh)).Reachable (fun _ => True) cfg :=
    System.reachable_of_allowed (.start trivial) hplay hall
  have hle := honce true (some appRefresh) cfg hreach "Bearer stale"
  omega

end SplitBill.Frontend
