import SplitBill.Auth.Sessions

/-!
# A password reset and the sessions before it

`consumePasswordResetTokenAndUpdatePassword` revokes the refresh tokens that are there when it runs.
A login reads the user, compares the password and inserts its refresh token in separate steps, so a
login that read the user before the reset may insert its token after it. In runs in which no reset
of the user commits between these two steps of a login, a reset ends every session before it.
-/

namespace SplitBill

open Interleave

variable {lib : Lib} {env : Env}

/-! ## What the log says -/

/-- The user whose password an entry reset. -/
def reset? : BackendEntry → Option Id
  | ⟨_, .db (.auth (.consumePasswordResetTokenAndUpdatePassword _ userId _ _)), _,
    .ok (some _), _, _⟩ =>
    some userId
  | _ => none

/-- The refresh token that a login granted, and its user. -/
def grantedToken? : BackendEntry → Option (Id × Id)
  | ⟨_, .db (.auth (.createRefreshToken data)), pre, .ok _, _, _⟩ =>
    some (pre.db.nextId, data.userId)
  | _ => none

/-- The call has read the user in these entries. -/
def HasRead (pid : ℕ) (l : List BackendEntry) : Prop :=
  ∃ d ∈ l, d.pid = pid ∧ (readUser? d).isSome = true

instance (pid : ℕ) (l : List BackendEntry) : Decidable (HasRead pid l) :=
  inferInstanceAs (Decidable (∃ d ∈ l, _))

/-- The refresh tokens of the user that should be worth nothing after the reset `r` and the entries
that followed it, latest first: those that were there before it, those that a login granted which
had read the user before it, and those that such a token was exchanged for. -/
def stale (userId : Id) (r : BackendEntry) : List BackendEntry → List Id
  | [] => (r.pre.db.refreshTokens.filter (·.userId = userId)).map (·.id)
  | e :: l =>
    match exchange? e, grantedToken? e with
    | some (old, new), _ =>
    if old ∈ stale userId r l then new :: stale userId r l else stale userId r l
    | none, some (id, user) =>
      if user = userId ∧ ¬HasRead e.pid l then id :: stale userId r l else stale userId r l
    | none, none => stale userId r l

/-- After the reset `r` no such token was exchanged. -/
def EndsSessions (userId : Id) (r : BackendEntry) : List BackendEntry → Prop
  | [] => True
  | e :: l => (∀ x ∈ exchange? e, x.1 ∉ stale userId r l) ∧ EndsSessions userId r l

/-- Every reset ended the sessions before it. -/
def ResetsEndSessions (log : List BackendEntry) : Prop :=
  ∀ n < log.length, ∀ r ∈ log[n]?, ∀ userId ∈ reset? r, EndsSessions userId r (log.take n)

/-- A login inserts its refresh token only if no reset of the user has committed since it read the
user. -/
def InsertsInTime (pid : ℕ) (o : Op) (h : Hist backend Err World) : Prop :=
  match o with
  | .db (.auth (.createRefreshToken data)) =>
    ∀ n < h.log.length, ∀ r ∈ h.log[n]?, reset? r = some data.userId → HasRead pid (h.log.take n)
  | _ => True

/-- The runs in which every login inserts its token in time. -/
def timelyLogins (lib : Lib) (env : Env) : System backend Err (Option AuthResult) World :=
  { authSystem lib env with allow := InsertsInTime }

section

variable {h : Hist backend Err World} {pid : ℕ} {o : Op} {w : World}
  {did seen : Except Err (backend.Res o)}

/-- After every reset the tokens that should be worth nothing are revoked. -/
def StaleRevoked (h : Hist backend Err World) : Prop :=
  ∀ n, ∀ r ∈ h.log[n]?, ∀ userId ∈ reset? r, ∀ id ∈ stale userId r (h.log.take n),
    id < h.world.db.nextId ∧ ∀ t ∈ h.world.db.refreshTokens, t.id = id → t.revokedAt ≠ none

/-- Entries that neither exchange nor grant a token make no other token worthless. -/
theorem stale_cons_none {userId : Id} {r e : BackendEntry} {l : List BackendEntry}
    (hx : exchange? e = none) (hg : grantedToken? e = none) :
    stale userId r (e :: l) = stale userId r l := by
  simp only [stale, hx, hg]

/-- A reset revokes the tokens of the user. -/
theorem revoked_of_reset {userId : Id} (hans : (machine lib).Answer o h.world did seen w)
    (hr : reset? ⟨pid, o, h.world, did, seen, w⟩ = some userId) :
    ∃ now, w.db.refreshTokens = revokeWhere (·.userId = userId) now h.world.db.refreshTokens ∧
      w.db.nextId = h.world.db.nextId := by
  unfold reset? at hr
  split at hr
  · next tokenId userId' passwordHash now w' u seen' w'' heq =>
    cases heq
    obtain rfl := Option.some.inj hr
    obtain ⟨e, he, -⟩ | ⟨r, hok, c, heval⟩ := answer_access hans
    · cases he
    · cases hok
      rcases consumePasswordReset_eq_ok heval with ⟨hnone, -⟩ | ⟨u, -, -, hdb⟩
      · cases hnone
      · exact ⟨now, by rw [hdb], by rw [hdb]⟩
  · cases hr

/-- Only the step that starts a session grants a token. -/
theorem grantedToken?_of_step {e : BackendEntry} {g : Id × Id} (hg : grantedToken? e = some g) :
    exchange? e = none ∧ started? e = some g.1 ∧
      ∃ data, e.op = .db (.auth (.createRefreshToken data)) ∧ data.userId = g.2 := by
  unfold grantedToken? at hg
  split at hg
  · obtain rfl := Option.some.inj hg
    exact ⟨rfl, rfl, _, rfl, rfl⟩
  · cases hg

/-- What a step in time does to the worthless tokens: it exchanges none of them and makes no other
token worthless. -/
theorem stale_step (hk : StaleRevoked h) (ha : InsertsInTime pid o h)
    (hstep : SessionStep ⟨pid, o, h.world, did, seen, w⟩) {n : ℕ} {r : BackendEntry} {userId : Id}
    (hr : r ∈ h.log[n]?) (hreset : reset? r = some userId) :
    (∀ x ∈ exchange? ⟨pid, o, h.world, did, seen, w⟩, x.1 ∉ stale userId r (h.log.take n)) ∧
      stale userId r (⟨pid, o, h.world, did, seen, w⟩ :: h.log.take n) =
        stale userId r (h.log.take n) := by
  have hexchange : ∀ x ∈ exchange? ⟨pid, o, h.world, did, seen, w⟩,
      x.1 ∉ stale userId r (h.log.take n) := by
    intro x hx hmem
    -- A token that is exchanged is unrevoked.
    cases hstep with
    | exchange old t now hx' hold hlive =>
      obtain rfl := Option.some.inj (hx'.symm.trans hx)
      exact (hk n r hr userId hreset _ hmem).2 old hold rfl hlive
    | start t hst hx' => rw [hx] at hx'; cases hx'
    | revoke p now hx' => rw [hx] at hx'; cases hx'
    | keep hx' => rw [hx] at hx'; cases hx'
  refine ⟨hexchange, ?_⟩
  cases hx : exchange? ⟨pid, o, h.world, did, seen, w⟩ with
  | some x =>
    have hnot : x.1 ∉ stale userId r (h.log.take n) := hexchange x hx
    simp only [stale, hx, if_neg hnot]
  | none =>
    cases hg : grantedToken? ⟨pid, o, h.world, did, seen, w⟩ with
    | none => exact stale_cons_none hx hg
    | some g =>
      obtain ⟨-, -, data, rfl, huser⟩ := grantedToken?_of_step hg
      have hnot : ¬(g.2 = userId ∧ ¬HasRead pid (h.log.take n)) := by
        rintro ⟨hgu, hunread⟩
        have hlt : n < h.log.length := (List.getElem?_eq_some_iff.mp hr).1
        exact hunread (ha n hlt r hr (by rw [hreset, huser, hgu]))
      simp only [stale, hx, hg]
      exact if_neg hnot

/-- A token that is revoked stays so. -/
theorem revoked_step (hstep : SessionStep ⟨pid, o, h.world, did, seen, w⟩) {id : Id}
    (hid : id < h.world.db.nextId)
    (hrevoked : ∀ t ∈ h.world.db.refreshTokens, t.id = id → t.revokedAt ≠ none) :
    id < w.db.nextId ∧ ∀ t ∈ w.db.refreshTokens, t.id = id → t.revokedAt ≠ none := by
  obtain ⟨hnext, new, p, now, hpost, hnew⟩ := hstep.rows
  refine ⟨Nat.lt_of_lt_of_le hid hnext, fun t ht htid hlive => ?_⟩
  have ht' : t ∈ new.toList ++ revokeWhere p now h.world.db.refreshTokens := hpost ▸ ht
  rcases List.mem_append.mp ht' with hmem | hmem
  · have hle := (hnew t (Option.mem_toList.mp hmem)).1
    rw [htid] at hle
    exact Nat.not_lt.mpr hle hid
  · exact hrevoked t (live_of_mem_revokeWhere hmem hlive).1 htid hlive

/-- Every step in time keeps the worthless tokens revoked. -/
theorem StaleRevoked.step (hk : StaleRevoked h) (hs : Sessions h) (ha : InsertsInTime pid o h)
    (ho : AuthStep lib (h.own pid) o) (hans : (machine lib).Answer o h.world did seen w) :
    StaleRevoked (h.record pid o did seen w) := by
  have hstep := sessionStep ho.ofAuth pid hans
  intro n r hr userId hreset id hmem
  cases n with
  | zero =>
    obtain rfl := Option.some.inj hr
    -- The reset itself: the tokens of the user were there before it, and it revoked them.
    obtain ⟨x, hx, rfl⟩ := List.mem_map.mp hmem
    obtain ⟨hxmem, hxuser⟩ := List.mem_filter.mp hx
    obtain ⟨now, hpost, hnext⟩ := revoked_of_reset hans hreset
    refine ⟨?_, fun t ht htid hlive => ?_⟩
    · rw [Hist.record_world, hnext]
      exact hs.table.bound x hxmem
    · rw [Hist.record_world, hpost] at ht
      obtain ⟨htmem, htuser⟩ := live_of_mem_revokeWhere ht hlive
      rw [hs.table.eq_of_id htmem hxmem htid, hxuser] at htuser
      cases htuser
  | succ n =>
    have hr' : r ∈ h.log[n]? := hr
    have htake : (h.record pid o did seen w).log.take (n + 1) =
        ⟨pid, o, h.world, did, seen, w⟩ :: h.log.take n := rfl
    rw [htake, (stale_step hk ha hstep hr' hreset).2] at hmem
    obtain ⟨hid, hrevoked⟩ := hk n r hr' userId hreset id hmem
    exact revoked_step hstep hid hrevoked

/-- Every step in time keeps that resets end sessions. -/
theorem resetsEndSessions_step (he : ResetsEndSessions h.log) (hk : StaleRevoked h)
    (ha : InsertsInTime pid o h) (hstep : SessionStep ⟨pid, o, h.world, did, seen, w⟩) :
    ResetsEndSessions (h.record pid o did seen w).log := by
  intro n hn r hr userId hreset
  cases n with
  | zero => trivial
  | succ n =>
    have hr' : r ∈ h.log[n]? := hr
    have hlt : n < h.log.length := (List.getElem?_eq_some_iff.mp hr').1
    exact ⟨(stale_step hk ha hstep hr' hreset).1, he n hlt r hr' userId hreset⟩

end

/-- In every run in which no reset of a user commits between the step in which a login reads the
user and the one in which it inserts its refresh token, a reset ends every session before it. -/
theorem reset_endsSessions {cfg : (timelyLogins lib env).Config}
    (hr : (timelyLogins lib env).Reachable (fun w => SessionTable w.db) cfg) :
    ResetsEndSessions cfg.hist.log := by
  -- Nothing has been reset at the beginning, and time alone revokes nothing.
  have hinit : ∀ w : World, SessionTable w.db →
      Sessions ⟨w, []⟩ ∧ StaleRevoked ⟨w, []⟩ ∧ ResetsEndSessions [] := by
    intro w hw
    refine ⟨sessions_start hw, ?_, ?_⟩
    · intro n r hr
      cases hr
    · intro n hn
      cases hn
  have henv : ∀ (h : Hist backend Err World) (w : World),
      Sessions h ∧ StaleRevoked h ∧ ResetsEndSessions h.log → h.world.Later w →
        Sessions (h.withWorld w) ∧ StaleRevoked (h.withWorld w) ∧ ResetsEndSessions h.log := by
    rintro h w ⟨hs, hk, he⟩ hlater
    refine ⟨hs.later hlater, ?_, he⟩
    obtain ⟨t, -, rfl⟩ := hlater
    exact hk
  obtain ⟨⟨-, -, he⟩, -⟩ := @System.keeps_of_ownLog _ _ _ _ (timelyLogins lib env) _
    (fun _ _ => AuthStep lib) (fun _ c r l => AuthEnd lib c r l)
    (fun h => Sessions h ∧ StaleRevoked h ∧ ResetsEndSessions h.log) (fun pid c _ => authCall_wp c)
    hinit henv
    (fun pid c o h did seen w ho hi ha hans =>
      ⟨hi.1.step ho hans, hi.2.1.step hi.1 ha ho hans,
        resetsEndSessions_step hi.2.2 hi.2.1 ha (sessionStep ho.ofAuth pid hans)⟩) cfg hr
  exact he

instance (lib : Lib) (env : Env) : DecidablePred (timelyLogins lib env).valid :=
  fun _ => isTrue trivial

instance (pid : ℕ) (o : Op) (h : Hist backend Err World) : Decidable (InsertsInTime pid o h) := by
  unfold InsertsInTime
  split <;> infer_instance

instance (lib : Lib) (env : Env) (pid : ℕ) (o : Op) (h : Hist backend Err World) :
    Decidable ((timelyLogins lib env).allow pid o h) :=
  inferInstanceAs (Decidable (InsertsInTime pid o h))

instance (userId : Id) (r : BackendEntry) : DecidablePred (EndsSessions userId r) := fun l => by
  induction l with
  | nil => exact isTrue trivial
  | cons e l ih => exact inferInstanceAs (Decidable (_ ∧ _))

instance : DecidablePred ResetsEndSessions := fun log =>
  inferInstanceAs (Decidable (∀ n < log.length, _))

/-- A user registers and logs in, resets the password, and comes back with the token of the
login. -/
def loginThenReset : List (System.Action (timelyLogins .plain {})) :=
  List.flatten [[.spawn (.register "Ann" "ann@example.com" "password")], System.turns _ 0 {} 10,
    [.spawn (.login "ann@example.com" "password")], System.turns _ 1 {} 5,
    [.spawn (.requestPasswordReset "ann@example.com")], System.turns _ 2 {} 6,
    [.spawn (.resetUserPassword 4 "passw0rd")], System.turns _ 3 {} 4,
    [.spawn (.refresh 3)], System.turns _ 4 {} 1]

/-- A login, and then a reset that ends its session. -/
theorem reset_endsSessions_loginThenReset :
    ∃ cfg : (timelyLogins .plain {}).Config,
      (timelyLogins .plain {}).Reachable (fun w => SessionTable w.db) cfg ∧
        cfg.hist.log.filterMap reset? = [0] ∧ cfg.hist.log.filterMap grantedToken? = [(3, 0)] ∧
        ResetsEndSessions cfg.hist.log := by
  obtain ⟨cfg, hplay, hall, hresets, hgranted⟩ : ∃ cfg,
      (timelyLogins .plain {}).play loginThenReset ((timelyLogins .plain {}).start {}) = some cfg ∧
        (timelyLogins .plain {}).Allowed cfg.hist.log ∧ cfg.hist.log.filterMap reset? = [0] ∧
        cfg.hist.log.filterMap grantedToken? = [(3, 0)] := System.exists_of_play (by decide +kernel)
  have hr : (timelyLogins .plain {}).Reachable (fun w => SessionTable w.db) cfg :=
    System.reachable_of_allowed (.start sessionTable_empty) hplay hall
  exact ⟨cfg, hr, hresets, hgranted, reset_endsSessions hr⟩

/-- The password is reset between the comparison of a login and the insertion of its token, and the
token is good for a refresh. -/
def resetDuringLogin : List (System.Action (authSystem .plain {})) :=
  List.flatten [[.spawn (.register "Ann" "ann@example.com" "password")], System.turns _ 0 {} 10,
    [.spawn (.login "ann@example.com" "password")], System.turns _ 1 {} 2,
    [.spawn (.requestPasswordReset "ann@example.com")], System.turns _ 2 {} 6,
    [.spawn (.resetUserPassword 3 "passw0rd")], System.turns _ 3 {} 4, System.turns _ 1 {} 3,
    [.spawn (.refresh 5)], System.turns _ 4 {} 5]

/-- A login that read the old hash inserts its session after the reset has committed. -/
theorem not_reset_endsSessions :
    ∃ cfg : (authSystem .plain {}).Config,
      (authSystem .plain {}).Reachable (fun w => SessionTable w.db) cfg ∧
        ¬ResetsEndSessions cfg.hist.log := by
  obtain ⟨cfg, hplay, hnot⟩ : ∃ cfg,
      (authSystem .plain {}).play resetDuringLogin ((authSystem .plain {}).start {}) = some cfg ∧
        ¬ResetsEndSessions cfg.hist.log := System.exists_of_play (by decide +kernel)
  exact ⟨cfg, System.reachable_of_play (fun _ _ _ => trivial)
    (.start sessionTable_empty) hplay, hnot⟩

end SplitBill
