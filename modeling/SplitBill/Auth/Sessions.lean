import SplitBill.Auth.Writes
import SplitBill.Interleave.Replay

/-!
# Sessions

A login and a registration start a session with a refresh token, and a refresh exchanges the token
for another one of the same session. In every run of auth calls a token is exchanged at most once,
and a session never has two tokens that are good at the same time.
-/

namespace SplitBill

open Interleave

variable {lib : Lib} {env : Env}

/-! ## What the log says -/

/-- The token with which an entry started a session. -/
def started? : BackendEntry → Option Id
  | ⟨_, .db (.auth (.createRefreshToken _)), pre, .ok _, _, _⟩ => some pre.db.nextId
  | ⟨_, .db (.auth (.createUserWithAuthData _)), pre, .ok _, _, _⟩ => some (pre.db.nextId + 1)
  | _ => none

/-- The session that a refresh token belongs to, named by the session's first token. -/
def sessionOf : List BackendEntry → Id → Id
  | [], id => id
  | e :: log, id =>
    match exchange? e with
    | some (old, new) => if id = new then sessionOf log old else sessionOf log id
    | none => sessionOf log id

/-- What a step does to the refresh tokens: it starts a session, it exchanges a token, it revokes
tokens, or it leaves them alone. -/
inductive SessionStep (e : BackendEntry) : Prop
  | start (t : RefreshToken) (hs : started? e = some t.id) (hx : exchange? e = none)
      (hid : e.pre.db.nextId ≤ t.id) (hnext : t.id < e.post.db.nextId) (hlive : t.revokedAt = none)
      (hhash : ∀ x ∈ e.pre.db.refreshTokens, x.tokenHash ≠ t.tokenHash)
      (hpost : e.post.db.refreshTokens = t :: e.pre.db.refreshTokens)
  | exchange (old t : RefreshToken) (now : Time) (hx : exchange? e = some (old.id, t.id))
      (hold : old ∈ e.pre.db.refreshTokens) (hlive : old.revokedAt = none)
      (hid : e.pre.db.nextId ≤ t.id) (hnext : t.id < e.post.db.nextId)
      (hhash : ∀ x ∈ e.pre.db.refreshTokens, x.tokenHash ≠ t.tokenHash)
      (hpost : e.post.db.refreshTokens =
        t :: revokeWhere (·.id = old.id) now e.pre.db.refreshTokens)
  | revoke (p : RefreshToken → Bool) (now : Time) (hx : exchange? e = none)
      (hnext : e.pre.db.nextId ≤ e.post.db.nextId)
      (hpost : e.post.db.refreshTokens = revokeWhere p now e.pre.db.refreshTokens)
  | keep (hx : exchange? e = none) (hnext : e.pre.db.nextId ≤ e.post.db.nextId)
      (hpost : e.post.db.refreshTokens = e.pre.db.refreshTokens)

/-- The operations of an auth call: those on the database are the auth repository's. -/
def Op.OfAuth : Op → Prop
  | .db (.auth _) => True
  | .db _ => False
  | .redis _ _ => False
  | _ => True

/-- A step of the auth service uses the tables of the auth service. -/
theorem AuthStep.ofAuth {l : List BackendEntry} {o : Op} (h : AuthStep lib l o) : o.OfAuth := by
  cases o with
  | db d => cases d <;> trivial
  | redis caller c => exact h.elim
  | _ => trivial

/-- An operation that fails, or is none on the database, leaves the refresh tokens alone. -/
theorem sessionStep_of_eq {pid : ℕ} {o : Op} {w w' : World} {did seen : Except Err o.Res}
    (hx : exchange? ⟨pid, o, w, did, seen, w'⟩ = none) (hdb : w'.db = w.db) :
    SessionStep ⟨pid, o, w, did, seen, w'⟩ :=
  .keep hx (by rw [hdb]) (by rw [hdb])

/-- Every operation of an auth call is a step of the sessions. -/
theorem sessionStep {o : Op} (ho : o.OfAuth) (pid : ℕ) {w w' : World}
    {did seen : Except Err (backend.Res o)} (hans : (machine lib).Answer o w did seen w') :
    SessionStep ⟨pid, o, w, did, seen, w'⟩ := by
  cases o with
  | db d =>
    cases d with
    | auth a =>
      obtain ⟨e, rfl, hdb⟩ | ⟨r, rfl, hmakes⟩ := answer_access hans
      · -- Nothing is exchanged by an operation that fails, whichever it is.
        cases a <;> exact sessionStep_of_eq rfl hdb
      cases a with
      | findByEmail email => exact sessionStep_of_eq rfl hmakes
      | findById id => exact sessionStep_of_eq rfl hmakes
      | updateExists id => exact sessionStep_of_eq rfl hmakes
      | findRefreshTokenByHash tokenHash => exact sessionStep_of_eq rfl hmakes
      | findAuthTokenByHash tokenHash => exact sessionStep_of_eq rfl hmakes
      | update id data =>
        have hdb := update_makes hmakes
        exact .keep rfl (by rw [hdb]) (by rw [hdb])
      | createRefreshToken data =>
        obtain ⟨hhash, hdb⟩ := createRefreshToken_makes hmakes
        refine .start _ rfl rfl (Nat.le_refl _) ?_ rfl hhash (by rw [hdb])
        rw [hdb]
        exact Nat.lt_succ_self _
      | revokeRefreshTokenById id =>
        have hdb := revokeRefreshTokenById_makes hmakes
        exact .revoke (·.id = id) w.now rfl (by rw [hdb]) (by rw [hdb])
      | rotateRefreshToken oldId data =>
        obtain ⟨c, heval⟩ := hmakes
        rcases rotateRefreshToken_eq_ok heval with ⟨rfl, hdb⟩ |
          ⟨t, old, rfl, hold, rfl, hlive, rfl, hhash, hdb⟩
        · exact sessionStep_of_eq rfl hdb
        · refine .exchange old _ w.now rfl hold hlive (Nat.le_refl _) ?_ hhash (by rw [hdb])
          rw [hdb]
          exact Nat.lt_succ_self _
      | createUserWithAuthData data =>
        obtain ⟨c, heval⟩ := hmakes
        obtain ⟨user, session, token, -, -, rfl, -, hhash, -, hdb⟩ :=
          createUserWithAuthData_eq_ok heval
        refine .start _ rfl rfl (Nat.le_succ _) ?_ rfl hhash (by rw [hdb])
        rw [hdb]
        exact Nat.add_lt_add_left (by decide) _
      | createAuthToken data =>
        obtain ⟨c, heval⟩ := hmakes
        obtain ⟨-, -, hdb⟩ := createAuthToken_eq_ok heval
        refine .keep rfl ?_ (by rw [hdb])
        rw [hdb]
        exact Nat.le_succ _
      | consumeVerificationTokenAndVerifyUser tokenId userId now =>
        obtain ⟨c, heval⟩ := hmakes
        rcases consumeVerification_eq_ok heval with ⟨-, hdb⟩ | ⟨u, -, -, -, hdb⟩
        · exact sessionStep_of_eq rfl hdb
        · exact .keep rfl (by rw [hdb]) (by rw [hdb])
      | consumePasswordResetTokenAndUpdatePassword tokenId userId passwordHash now =>
        obtain ⟨c, heval⟩ := hmakes
        rcases consumePasswordReset_eq_ok heval with ⟨-, tokens, -, hdb⟩ | ⟨u, -, -, hdb⟩
        · exact .keep rfl (by rw [hdb]) (by rw [hdb])
        · exact .revoke (·.userId = userId) now rfl (by rw [hdb]) (by rw [hdb])
    | _ => exact ho.elim
  | _ => exact sessionStep_of_eq rfl (answer_db_eq (by rintro d ⟨⟩) hans)

/-! ## The table -/

/-- The refresh tokens of a table have different ids, all of them drawn, and different digests. -/
structure SessionTable (d : Db) : Prop where
  ids : (d.refreshTokens.map (·.id)).Nodup
  hashes : (d.refreshTokens.map (·.tokenHash)).Nodup
  bound : ∀ t ∈ d.refreshTokens, t.id < d.nextId

/-- The same row but for the time of its revocation. -/
def SameToken (r t : RefreshToken) : Prop :=
  t.id = r.id ∧ t.userId = r.userId ∧ t.tokenHash = r.tokenHash ∧ t.expiresAt = r.expiresAt

section Table

variable {d d' : Db} {e : BackendEntry}

/-- Rows with the same id are the same row. -/
theorem SessionTable.eq_of_id (h : SessionTable d) {s t : RefreshToken} (hs : s ∈ d.refreshTokens)
    (ht : t ∈ d.refreshTokens) (hid : s.id = t.id) : s = t :=
  List.inj_on_of_nodup_map h.ids hs ht hid

/-- Rows with the same digest are the same row. -/
theorem SessionTable.eq_of_hash (h : SessionTable d) {s t : RefreshToken} (hs : s ∈ d.refreshTokens)
    (ht : t ∈ d.refreshTokens) (hhash : s.tokenHash = t.tokenHash) : s = t :=
  List.inj_on_of_nodup_map h.hashes hs ht hhash

/-- To leave the tokens alone is to revoke none. -/
theorem revokeWhere_false (now : Time) (rows : List RefreshToken) :
    revokeWhere (fun _ => false) now rows = rows :=
  revokeWhere_eq_self fun _ _ hp => by cases hp

/-- The rows after a step: perhaps a new one, and the old ones, some of them revoked. -/
theorem SessionStep.rows (h : SessionStep e) :
    e.pre.db.nextId ≤ e.post.db.nextId ∧ ∃ (new : Option RefreshToken) (p : RefreshToken → Bool)
      (now : Time), e.post.db.refreshTokens =
        new.toList ++ revokeWhere p now e.pre.db.refreshTokens ∧
      ∀ t ∈ new, e.pre.db.nextId ≤ t.id ∧ t.id < e.post.db.nextId ∧
        ∀ x ∈ e.pre.db.refreshTokens, x.tokenHash ≠ t.tokenHash := by
  -- Kind by kind: which row is new, and which rows are revoked.
  cases h with
  | start t hs hx hid hnext hlive hhash hpost =>
    refine ⟨Nat.le_trans hid (Nat.le_of_lt hnext), some t, fun _ => false, 0, ?_, ?_⟩
    · rw [hpost, revokeWhere_false]
      rfl
    · rintro _ ⟨⟩
      exact ⟨hid, hnext, hhash⟩
  | exchange old t now hx hold hlive hid hnext hhash hpost =>
    refine ⟨Nat.le_trans hid (Nat.le_of_lt hnext), some t, (·.id = old.id), now, hpost, ?_⟩
    rintro _ ⟨⟩
    exact ⟨hid, hnext, hhash⟩
  | revoke p now hx hnext hpost => exact ⟨hnext, none, p, now, hpost, fun _ h => by cases h⟩
  | keep hx hnext hpost =>
    refine ⟨hnext, none, fun _ => false, 0, ?_, fun _ h => by cases h⟩
    rw [hpost, revokeWhere_false]
    rfl

/-- A row stays, but for its revocation. -/
theorem SessionStep.same (h : SessionStep e) {r : RefreshToken} (hr : r ∈ e.pre.db.refreshTokens) :
    ∃ t ∈ e.post.db.refreshTokens, SameToken r t ∧ (r.revokedAt ≠ none → t.revokedAt ≠ none) := by
  obtain ⟨-, new, p, now, hpost, -⟩ := h.rows
  have hmem : ∀ t, t ∈ revokeWhere p now e.pre.db.refreshTokens → t ∈ e.post.db.refreshTokens := by
    intro t ht
    rw [hpost]
    exact List.mem_append_right _ ht
  by_cases hsel : p r = true ∧ r.revokedAt = none
  · refine ⟨{ r with revokedAt := some now }, hmem _ ?_, ⟨rfl, rfl, rfl, rfl⟩,
      fun _ h => by cases h⟩
    exact mem_revokeWhere.mpr ⟨r, hr, .inl ⟨hsel.1, hsel.2, rfl⟩⟩
  · refine ⟨r, hmem _ ?_, ⟨rfl, rfl, rfl, rfl⟩, id⟩
    exact mem_revokeWhere.mpr ⟨r, hr, .inr ⟨hsel, rfl⟩⟩

/-- A step keeps ids and digests apart. -/
theorem SessionTable.step (h : SessionTable e.pre.db) (hs : SessionStep e) :
    SessionTable e.post.db := by
  obtain ⟨hnext, new, p, now, hpost, hnew⟩ := hs.rows
  have hids : (revokeWhere p now e.pre.db.refreshTokens).map (·.id) =
      e.pre.db.refreshTokens.map (·.id) := map_revokeWhere fun _ => rfl
  have hhashes : (revokeWhere p now e.pre.db.refreshTokens).map (·.tokenHash) =
      e.pre.db.refreshTokens.map (·.tokenHash) := map_revokeWhere fun _ => rfl
  -- The old ids are below the next one, and a revocation changes neither ids nor hashes.
  have hold : ∀ t ∈ revokeWhere p now e.pre.db.refreshTokens, t.id < e.pre.db.nextId :=
    forall_mem_of_map_eq (· < e.pre.db.nextId) hids h.bound
  cases new with
  | none =>
    constructor <;> rw [hpost, Option.toList_none, List.nil_append]
    case ids =>
      rw [hids]
      exact h.ids
    case hashes =>
      rw [hhashes]
      exact h.hashes
    case bound => exact fun t ht => Nat.lt_of_lt_of_le (hold t ht) hnext
  | some n =>
    obtain ⟨hid, hlt, hfresh⟩ := hnew n rfl
    constructor <;> rw [hpost, Option.toList_some, List.singleton_append]
    case ids =>
      refine nodup_map_cons (fun x hx => ?_) (hids ▸ h.ids)
      exact Nat.ne_of_lt (Nat.lt_of_lt_of_le (hold x hx) hid)
    case hashes =>
      refine nodup_map_cons ?_ (hhashes ▸ h.hashes)
      exact forall_mem_of_map_eq (· ≠ n.tokenHash) hhashes hfresh
    case bound =>
      intro t ht
      rcases List.mem_cons.mp ht with rfl | ht
      · exact hlt
      · exact Nat.lt_of_lt_of_le (hold t ht) hnext

end Table

/-! ## The invariant -/

/-- The exchanged token was unrevoked, and the call had read a time before its end first. -/
def ExchangesGood (l : List BackendEntry) (e : BackendEntry) : Prop :=
  ∀ x ∈ exchange? e, ∃ t ∈ e.pre.db.refreshTokens, t.id = x.1 ∧ t.revokedAt = none ∧
    ∃ now, firstTime? (l.filter (·.pid = e.pid)) = some now ∧ now < t.expiresAt

/-- What holds of the refresh tokens at any time. A token that was exchanged is revoked, the session
of a token goes back to an id that was drawn, and unrevoked tokens belong to different sessions.
What a call read of a token is still so, but for its revocation. -/
structure Sessions (h : Hist backend Err World) : Prop where
  table : SessionTable h.world.db
  roots : ∀ t ∈ h.world.db.refreshTokens, sessionOf h.log t.id < h.world.db.nextId
  spent : ∀ e ∈ h.log, ∀ x ∈ exchange? e, ∀ t ∈ h.world.db.refreshTokens, t.id = x.1 →
    t.revokedAt ≠ none
  drawn : ∀ e ∈ h.log, ∀ x ∈ exchange? e, x.1 < h.world.db.nextId ∧ x.2 < h.world.db.nextId
  once : h.log.Pairwise fun a b => ∀ x ∈ exchange? a, ∀ y ∈ exchange? b, x.1 ≠ y.1
  single : ∀ s ∈ h.world.db.refreshTokens, ∀ t ∈ h.world.db.refreshTokens, s.revokedAt = none →
    t.revokedAt = none → sessionOf h.log s.id = sessionOf h.log t.id → s = t
  kept : ∀ e ∈ h.log, ∀ r ∈ readRefreshToken? e, ∃ t ∈ h.world.db.refreshTokens, SameToken r t
  good : ∀ e l, e :: l <:+ h.log → ExchangesGood l e

section Invariant

variable {h : Hist backend Err World} {e : BackendEntry} {log : List BackendEntry} {id : Id}

/-- Without an exchange the sessions stay. -/
theorem sessionOf_cons_none (hx : exchange? e = none) :
    sessionOf (e :: log) id = sessionOf log id := by
  simp only [sessionOf, hx]

/-- An exchange leaves the sessions of the other tokens. -/
theorem sessionOf_cons_of_ne {old new : Id} (hx : exchange? e = some (old, new)) (hne : id ≠ new) :
    sessionOf (e :: log) id = sessionOf log id := by
  simp only [sessionOf, hx, if_neg hne]

/-- A token that replaces another one belongs to the same session. -/
theorem sessionOf_cons_new {old new : Id} (hx : exchange? e = some (old, new)) :
    sessionOf (e :: log) new = sessionOf log old := by
  simp only [sessionOf, hx, if_true]

/-- A token that no entry exchanged for is its own session. -/
theorem sessionOf_eq_self (hnew : ∀ e ∈ log, ∀ x ∈ exchange? e, id ≠ x.2) :
    sessionOf log id = id := by
  induction log with
  | nil => rfl
  | cons e log ih =>
    have hrest := ih fun e he => hnew e (List.mem_cons_of_mem _ he)
    cases hx : exchange? e with
    | none => rw [sessionOf_cons_none hx, hrest]
    | some x => rw [sessionOf_cons_of_ne hx (hnew e List.mem_cons_self x hx), hrest]

/-- The token that an entry read is in the table. -/
theorem readRefreshToken_mem {pid : ℕ} {o : Op} {w w' : World} {did seen : Except Err o.Res}
    (hans : (machine lib).Answer o w did seen w') {r : RefreshToken}
    (hr : readRefreshToken? ⟨pid, o, w, did, seen, w'⟩ = some r) :
    r ∈ w'.db.refreshTokens := by
  unfold readRefreshToken? at hr
  split at hr
  · next tokenHash w did record w' heq =>
    cases heq
    obtain rfl := Option.some.inj hr
    obtain ⟨rfl, ⟨c, hc⟩ | hc⟩ := answer_read
      (o := .auth (.findRefreshTokenByHash tokenHash)) rfl hans
    · obtain ⟨t, ht, rfl⟩ := Option.map_eq_some_iff.mp (Except.ok.inj hc).symm
      exact List.mem_of_find?_eq_some ht
    · cases hc
  · cases hr

/-- Rows of one token are those of one token. -/
theorem SameToken.trans {r s t : RefreshToken} (h₁ : SameToken r s) (h₂ : SameToken s t) :
    SameToken r t :=
  ⟨h₂.1.trans h₁.1, h₂.2.1.trans h₁.2.1, h₂.2.2.1.trans h₁.2.2.1, h₂.2.2.2.trans h₁.2.2.2⟩

/-- Only a rotation exchanges a token. -/
theorem rotation_of_exchange? {e : BackendEntry} {x : Id × Id} (hx : exchange? e = some x) :
    ∃ data, e.op = .db (.auth (.rotateRefreshToken x.1 data)) := by
  unfold exchange? at hx
  split at hx
  · obtain rfl := Option.some.inj hx
    exact ⟨_, rfl⟩
  · cases hx

/-- What an exchange rests on is still so when it is made. -/
theorem Sessions.exchangesGood (hs : Sessions h) {pid : ℕ} {o : Op} {w : World}
    {did seen : Except Err o.Res} (ho : AuthStep lib (h.own pid) o)
    (hstep : SessionStep ⟨pid, o, h.world, did, seen, w⟩) :
    ExchangesGood h.log ⟨pid, o, h.world, did, seen, w⟩ := by
  intro x hx
  obtain ⟨data, rfl⟩ := rotation_of_exchange? hx
  obtain ⟨r, hread, hid, -, -, now, hnow, hlt⟩ := ho
  obtain ⟨e, he, her⟩ := List.mem_filterMap.mp (hread ▸ List.mem_singleton_self r)
  obtain ⟨t, ht, htid, -, -, hexpires⟩ := hs.kept e (Hist.mem_own.mp he).1 r her
  cases hstep with
  | exchange old new _ hx' hold hlive =>
    have hxold : x.1 = old.id := by rw [← Option.some.inj (hx'.symm.trans hx)]
    have heq : t = old := hs.table.eq_of_id ht hold (htid.trans (hid.trans hxold))
    refine ⟨old, hold, hxold.symm, hlive, now, hnow, ?_⟩
    rw [← heq, hexpires]
    exact hlt
  | start t' hs' hx' => rw [hx] at hx'; cases hx'
  | revoke p' now' hx' => rw [hx] at hx'; cases hx'
  | keep hx' => rw [hx] at hx'; cases hx'

/-- What a step changes, row by row. It creates one token at most; every other row was there before,
and if it is unrevoked the step has neither revoked nor exchanged it. -/
structure SessionRows (e : BackendEntry) (new : Option RefreshToken) : Prop where
  next : e.pre.db.nextId ≤ e.post.db.nextId
  fresh : ∀ t ∈ new, e.pre.db.nextId ≤ t.id ∧ t.id < e.post.db.nextId
  row : ∀ s ∈ e.post.db.refreshTokens, s ∈ new ∨ ∃ x ∈ e.pre.db.refreshTokens, x.id = s.id ∧
    (s.revokedAt = none → s = x ∧ ∀ y ∈ exchange? e, s.id ≠ y.1)
  exchanged : ∀ y ∈ exchange? e, (∃ old ∈ e.pre.db.refreshTokens, old.id = y.1 ∧
    old.revokedAt = none) ∧ ∃ t ∈ new, t.id = y.2

/-- A row of a table in which some rows were revoked. -/
theorem row_of_mem_revokeWhere {p : RefreshToken → Bool} {now : Time} {rows : List RefreshToken}
    {s : RefreshToken} (hs : s ∈ revokeWhere p now rows) :
    ∃ x ∈ rows, x.id = s.id ∧ (s.revokedAt = none → s = x ∧ p s = false) := by
  obtain ⟨x, hx, ⟨-, -, rfl⟩ | ⟨-, rfl⟩⟩ := mem_revokeWhere.mp hs
  · exact ⟨x, hx, rfl, fun h => by cases h⟩
  · exact ⟨s, hx, rfl, fun hl => ⟨rfl, (live_of_mem_revokeWhere hs hl).2⟩⟩

/-- What a step of a session does to the rows. -/
theorem SessionStep.sessionRows (h : SessionStep e) : ∃ new, SessionRows e new := by
  -- A step that exchanges nothing.
  have hplain : ∀ new : Option RefreshToken, exchange? e = none →
      e.pre.db.nextId ≤ e.post.db.nextId →
      (∀ t ∈ new, e.pre.db.nextId ≤ t.id ∧ t.id < e.post.db.nextId) →
      (∀ s ∈ e.post.db.refreshTokens, s ∈ new ∨ ∃ x ∈ e.pre.db.refreshTokens, x.id = s.id ∧
        (s.revokedAt = none → s = x)) → SessionRows e new := by
    intro new hx hnext hfresh hrow
    refine ⟨hnext, hfresh, fun s hs => ?_, fun y hy => ?_⟩
    · rcases hrow s hs with hnew | ⟨x, hxmem, hid, hlive⟩
      · exact .inl hnew
      · refine .inr ⟨x, hxmem, hid, fun hl => ⟨hlive hl, fun y hy => ?_⟩⟩
        rw [hx] at hy
        cases hy
    · rw [hx] at hy
      cases hy
  cases h with
  | start t hs hx hid hnext hlive hhash hpost =>
    refine ⟨some t, hplain _ hx (Nat.le_trans hid (Nat.le_of_lt hnext)) ?_ fun s hs => ?_⟩
    · rintro _ ⟨⟩
      exact ⟨hid, hnext⟩
    · rw [hpost] at hs
      rcases List.mem_cons.mp hs with rfl | hs
      · exact .inl rfl
      · exact .inr ⟨s, hs, rfl, fun _ => rfl⟩
  | exchange old t now hx hold hlive hid hnext hhash hpost =>
    refine ⟨some t, Nat.le_trans hid (Nat.le_of_lt hnext), ?_, fun s hs => ?_, fun y hy => ?_⟩
    · rintro _ ⟨⟩
      exact ⟨hid, hnext⟩
    · rw [hpost] at hs
      rcases List.mem_cons.mp hs with rfl | hs
      · exact .inl rfl
      · obtain ⟨x, hxmem, hxid, hrow⟩ := row_of_mem_revokeWhere hs
        refine .inr ⟨x, hxmem, hxid, fun hl => ⟨(hrow hl).1, fun y hy => ?_⟩⟩
        obtain rfl := Option.some.inj (hx.symm.trans hy)
        exact of_decide_eq_false (hrow hl).2
    · obtain rfl := Option.some.inj (hx.symm.trans hy)
      exact ⟨⟨old, hold, rfl, hlive⟩, t, rfl, rfl⟩
  | revoke p now hx hnext hpost =>
    refine ⟨none, hplain _ hx hnext (fun _ h => by cases h) fun s hs => ?_⟩
    obtain ⟨x, hxmem, hxid, hrow⟩ := row_of_mem_revokeWhere (hpost ▸ hs)
    exact .inr ⟨x, hxmem, hxid, fun hl => (hrow hl).1⟩
  | keep hx hnext hpost =>
    refine ⟨none, hplain _ hx hnext (fun _ h => by cases h) fun s hs => ?_⟩
    exact .inr ⟨s, hpost ▸ hs, rfl, fun _ => rfl⟩

section Step

variable {new : Option RefreshToken}

/-- An exchanged token was drawn before. -/
theorem Sessions.exchanged_lt (hs : Sessions ⟨e.pre, log⟩) (h : SessionRows e new)
    {e' : BackendEntry} (he : e' ∈ e :: log) {x : Id × Id} (hx : x ∈ exchange? e') :
    x.1 < e.pre.db.nextId := by
  rcases List.mem_cons.mp he with rfl | he
  · obtain ⟨⟨old, hold, hid, -⟩, -⟩ := h.exchanged x hx
    rw [← hid]
    exact hs.table.bound old hold
  · exact (hs.drawn e' he x hx).1

/-- An old token stays in its session. -/
theorem Sessions.session_old (hs : Sessions ⟨e.pre, log⟩) (h : SessionRows e new)
    {x : RefreshToken} (hxmem : x ∈ e.pre.db.refreshTokens) :
    sessionOf (e :: log) x.id = sessionOf log x.id := by
  cases hx : exchange? e with
  | none => exact sessionOf_cons_none hx
  | some y =>
    obtain ⟨-, t, ht, htid⟩ := h.exchanged y hx
    have hlt : x.id < t.id := Nat.lt_of_lt_of_le (hs.table.bound x hxmem) (h.fresh t ht).1
    exact sessionOf_cons_of_ne hx (htid ▸ Nat.ne_of_lt hlt)

/-- A new token is a session of its own, or it is of the session of the token that it was exchanged
for. -/
theorem Sessions.session_new (hs : Sessions ⟨e.pre, log⟩) (h : SessionRows e new) {t : RefreshToken}
    (ht : t ∈ new) : sessionOf (e :: log) t.id = t.id ∨ ∃ y ∈ exchange? e,
      ∃ old ∈ e.pre.db.refreshTokens, old.id = y.1 ∧ old.revokedAt = none ∧
        sessionOf (e :: log) t.id = sessionOf log old.id := by
  cases hx : exchange? e with
  | none =>
    refine .inl ((sessionOf_cons_none hx).trans (sessionOf_eq_self fun e' he x hex heq => ?_))
    have hlt : x.2 < t.id := Nat.lt_of_lt_of_le (hs.drawn e' he x hex).2 (h.fresh t ht).1
    exact Nat.ne_of_gt hlt heq
  | some y =>
    obtain ⟨⟨old, hold, hid, hlive⟩, t', ht', htid⟩ := h.exchanged y hx
    obtain rfl : t' = t := Option.some.inj (ht'.symm.trans ht)
    refine .inr ⟨y, rfl, old, hold, hid, hlive, ?_⟩
    rw [htid, sessionOf_cons_new hx, hid]

/-- A new token is in another session than the unrevoked old ones. -/
theorem Sessions.session_ne (hs : Sessions ⟨e.pre, log⟩) (h : SessionRows e new) {t : RefreshToken}
    (ht : t ∈ new) {s : RefreshToken} (hmem : s ∈ e.pre.db.refreshTokens) (hl : s.revokedAt = none)
    (hkept : ∀ y ∈ exchange? e, s.id ≠ y.1) :
    sessionOf (e :: log) t.id ≠ sessionOf (e :: log) s.id := by
  intro heq
  rw [hs.session_old h hmem] at heq
  rcases hs.session_new h ht with hself | ⟨y, hy, old, hold, hid, hlive, hsession⟩
  · have hlt : sessionOf log s.id < t.id := Nat.lt_of_lt_of_le (hs.roots s hmem) (h.fresh t ht).1
    exact Nat.ne_of_lt hlt (heq.symm.trans hself)
  · obtain rfl : s = old := hs.single s hmem old hold hl hlive (heq.symm.trans hsession)
    exact hkept y hy hid

/-- The sessions go back to tokens that there were. -/
theorem Sessions.roots_step (hs : Sessions ⟨e.pre, log⟩) (h : SessionRows e new) :
    ∀ t ∈ e.post.db.refreshTokens, sessionOf (e :: log) t.id < e.post.db.nextId := by
  intro t ht
  rcases h.row t ht with hnew | ⟨x, hxmem, hxid, -⟩
  · rcases hs.session_new h hnew with hself | ⟨-, -, old, hold, -, -, hsession⟩
    · rw [hself]
      exact (h.fresh t hnew).2
    · rw [hsession]
      exact Nat.lt_of_lt_of_le (hs.roots old hold) h.next
  · rw [← hxid, hs.session_old h hxmem]
    exact Nat.lt_of_lt_of_le (hs.roots x hxmem) h.next

/-- A token that was exchanged stays revoked. -/
theorem Sessions.spent_step (hs : Sessions ⟨e.pre, log⟩) (h : SessionRows e new) :
    ∀ e' ∈ e :: log, ∀ x ∈ exchange? e', ∀ t ∈ e.post.db.refreshTokens, t.id = x.1 →
      t.revokedAt ≠ none := by
  intro e' he x hx t ht htid hl
  rcases h.row t ht with hnew | ⟨s, hmem, -, hrow⟩
  · have hlt : x.1 < t.id := Nat.lt_of_lt_of_le (hs.exchanged_lt h he hx) (h.fresh t hnew).1
    exact Nat.ne_of_gt hlt htid
  · obtain ⟨rfl, hkept⟩ := hrow hl
    rcases List.mem_cons.mp he with rfl | he
    · exact hkept x hx htid
    · exact hs.spent e' he x hx t hmem htid hl

/-- The tokens of an exchange have ids that have been taken. -/
theorem Sessions.drawn_step (hs : Sessions ⟨e.pre, log⟩) (h : SessionRows e new) :
    ∀ e' ∈ e :: log, ∀ x ∈ exchange? e', x.1 < e.post.db.nextId ∧ x.2 < e.post.db.nextId := by
  intro e' he x hx
  refine ⟨Nat.lt_of_lt_of_le (hs.exchanged_lt h he hx) h.next, ?_⟩
  rcases List.mem_cons.mp he with rfl | he
  · obtain ⟨-, t, ht, htid⟩ := h.exchanged x hx
    rw [← htid]
    exact (h.fresh t ht).2
  · exact Nat.lt_of_lt_of_le (hs.drawn e' he x hx).2 h.next

/-- An exchanged token was unrevoked, and those that had been exchanged were not. -/
theorem Sessions.once_step (hs : Sessions ⟨e.pre, log⟩) (h : SessionRows e new) :
    (e :: log).Pairwise fun a b => ∀ x ∈ exchange? a, ∀ y ∈ exchange? b, x.1 ≠ y.1 := by
  refine List.pairwise_cons.mpr ⟨fun e' he x hx y hy heq => ?_, hs.once⟩
  obtain ⟨⟨old, hold, hid, hlive⟩, -⟩ := h.exchanged x hx
  exact hs.spent e' he y hy old hold (hid.trans heq) hlive

/-- A session has one token that is not revoked. -/
theorem Sessions.single_step (hs : Sessions ⟨e.pre, log⟩) (h : SessionRows e new) :
    ∀ s ∈ e.post.db.refreshTokens, ∀ t ∈ e.post.db.refreshTokens, s.revokedAt = none →
      t.revokedAt = none → sessionOf (e :: log) s.id = sessionOf (e :: log) t.id → s = t := by
  intro s hmem t htmem hsl htl heq
  rcases h.row s hmem with hs' | ⟨x, hxmem, -, hrow⟩
  · rcases h.row t htmem with ht' | ⟨y, hymem, -, hrow⟩
    · exact Option.some.inj (hs'.symm.trans ht')
    · obtain ⟨rfl, hkept⟩ := hrow htl
      exact absurd heq (hs.session_ne h hs' hymem htl hkept)
  · obtain ⟨rfl, hkept⟩ := hrow hsl
    rcases h.row t htmem with ht' | ⟨y, hymem, -, hrow⟩
    · exact absurd heq.symm (hs.session_ne h ht' hxmem hsl hkept)
    · obtain ⟨rfl, -⟩ := hrow htl
      rw [hs.session_old h hxmem, hs.session_old h hymem] at heq
      exact hs.single s hxmem t hymem hsl htl heq

end Step

/-- Every operation of an auth call keeps the sessions. -/
theorem Sessions.step (hs : Sessions h) {pid : ℕ} {o : Op} {w : World}
    {did seen : Except Err (backend.Res o)} (ho : AuthStep lib (h.own pid) o)
    (hans : (machine lib).Answer o h.world did seen w) : Sessions (h.record pid o did seen w) := by
  have hstep := sessionStep ho.ofAuth pid hans
  obtain ⟨new, hrows⟩ := hstep.sessionRows
  have htable : SessionTable w.db := hs.table.step hstep
  have hkept : ∀ e ∈ (h.record pid o did seen w).log, ∀ r ∈ readRefreshToken? e,
      ∃ t ∈ w.db.refreshTokens, SameToken r t := by
    intro e he r hr
    rcases List.mem_cons.mp he with rfl | he
    · exact ⟨r, readRefreshToken_mem hans hr, rfl, rfl, rfl, rfl⟩
    · obtain ⟨t, ht, hsame⟩ := hs.kept e he r hr
      obtain ⟨t', ht', hsame', -⟩ := hstep.same ht
      exact ⟨t', ht', hsame.trans hsame'⟩
  have hgood : ∀ e l, e :: l <:+ (h.record pid o did seen w).log → ExchangesGood l e :=
    forall_suffix_cons.mpr ⟨hs.exchangesGood ho hstep, hs.good⟩
  exact ⟨htable, hs.roots_step hrows, hs.spent_step hrows, hs.drawn_step hrows,
    hs.once_step hrows, hs.single_step hrows, hkept, hgood⟩

end Invariant

/-- In a list without repetition whose elements are all equal there is at most one. -/
theorem length_le_one_of_forall_eq {α : Type} {l : List α} (hnodup : l.Nodup)
    (heq : ∀ a ∈ l, ∀ b ∈ l, a = b) : l.length ≤ 1 := by
  match l, hnodup, heq with
  | [], _, _ => exact Nat.zero_le 1
  | [_], _, _ => exact Nat.le_refl 1
  | a :: b :: _, hnodup, heq =>
    have hab : a = b := heq a List.mem_cons_self b (List.mem_cons_of_mem _ List.mem_cons_self)
    exact absurd (hab ▸ List.mem_cons_self) (List.nodup_cons.mp hnodup).1

/-- Before the first call there are no sessions but those of the tokens that are there. -/
theorem sessions_start {w : World} (hw : SessionTable w.db) : Sessions ⟨w, []⟩ := by
  constructor
  case table =>
    exact hw
  case roots =>
    exact hw.bound
  case spent =>
    exact fun e he => (List.not_mem_nil he).elim
  case drawn =>
    exact fun e he => (List.not_mem_nil he).elim
  case once =>
    exact .nil
  case single =>
    exact fun s hs t ht _ _ heq => hw.eq_of_id hs ht heq
  case kept =>
    exact fun e he => (List.not_mem_nil he).elim
  case good =>
    intro e l hl
    cases List.suffix_nil.mp hl

/-- The passing of time keeps the sessions. -/
theorem Sessions.later {h : Hist backend Err World} {w : World} (hs : Sessions h)
    (hw : h.world.Later w) : Sessions (h.withWorld w) := by
  obtain ⟨t, -, rfl⟩ := hw
  exact ⟨hs.table, hs.roots, hs.spent, hs.drawn, hs.once, hs.single, hs.kept, hs.good⟩

/-- The invariant holds in every run of auth calls, and the calls end as their entries show. -/
theorem sessions_of_reachable {cfg : (authSystem lib env).Config}
    (hr : (authSystem lib env).Reachable (fun w => SessionTable w.db) cfg) :
    Sessions cfg.hist ∧ ∀ pid c a, cfg.procs[pid]? = some (c, .ret a) →
      AuthEnd lib c (.ok a) (cfg.hist.own pid) := by
  exact @System.keeps_of_ownLog _ _ _ _ (authSystem lib env) _ (fun _ _ => AuthStep lib)
    (fun _ c r l => AuthEnd lib c r l) Sessions (fun pid c _ => authCall_wp c)
    (fun _ hw => sessions_start hw) (fun _ _ hs hw => hs.later hw)
    (fun pid c o h did seen w ho hs _ hans => hs.step ho hans) cfg hr

/-- However the calls of the auth service interleave: no two steps exchange the same token, no two
calls refresh with the same token, a session has at most one unrevoked token, what is exchanged was
neither revoked nor over when the call read the time, and a rotation that exchanges nothing changes
nothing. -/
theorem rotation_singleUse {cfg : (authSystem lib env).Config}
    (hr : (authSystem lib env).Reachable (fun w => SessionTable w.db) cfg) :
    (cfg.hist.log.Pairwise fun a b => ∀ x ∈ exchange? a, ∀ y ∈ exchange? b, x.1 ≠ y.1) ∧
      (∀ (p q : ℕ) (token : Id) (a b : AuthResult),
        cfg.procs[p]? = some (AuthCall.refresh token, Prog.ret (some a)) →
        cfg.procs[q]? = some (AuthCall.refresh token, Prog.ret (some b)) → p = q) ∧
      (∀ s, (cfg.hist.world.db.refreshTokens.filter fun t =>
        t.revokedAt = none ∧ sessionOf cfg.hist.log t.id = s).length ≤ 1) ∧
      (∀ e l, e :: l <:+ cfg.hist.log → ExchangesGood l e) ∧
      ∀ e ∈ cfg.hist.log, (∃ oldId data, e.op = .db (.auth (.rotateRefreshToken oldId data))) →
        exchange? e = none → e.post.db = e.pre.db := by
  obtain ⟨hs, hend⟩ := sessions_of_reachable hr
  obtain ⟨⟨w₀, -, hlinked⟩, -, -⟩ := System.replays hr
  refine ⟨hs.once, ?_, ?_, hs.good, ?_⟩
  · intro p q token a b hp hq
    obtain ⟨r, hread, hhash, x, hx, hxr⟩ := hend p _ _ hp
    obtain ⟨r', hread', hhash', y, hy, hyr⟩ := hend q _ _ hq
    obtain ⟨d, hd, hdr⟩ := List.mem_filterMap.mp hread
    obtain ⟨d', hd', hdr'⟩ := List.mem_filterMap.mp hread'
    obtain ⟨t, ht, htid, -, hthash, -⟩ := hs.kept d (Hist.mem_own.mp hd).1 r hdr
    obtain ⟨t', ht', htid', -, hthash', -⟩ := hs.kept d' (Hist.mem_own.mp hd').1 r' hdr'
    -- Both calls read the same row, so they exchanged the same token.
    have hsame : t = t' := hs.table.eq_of_hash ht ht' (by rw [hthash, hthash', hhash, hhash'])
    have hxy : x.1 = y.1 := by rw [hxr, hyr, ← htid, ← htid', hsame]
    obtain ⟨e, he, hex⟩ := List.mem_filterMap.mp hx
    obtain ⟨e', he', hey⟩ := List.mem_filterMap.mp hy
    obtain ⟨helog, hepid⟩ := Hist.mem_own.mp he
    obtain ⟨helog', hepid'⟩ := Hist.mem_own.mp he'
    have hee : e = e' := by
      by_contra hne
      have hsymm : Std.Symm fun a b : BackendEntry =>
          ∀ x ∈ exchange? a, ∀ y ∈ exchange? b, x.1 ≠ y.1 :=
        ⟨fun _ _ hab x hx y hy => (hab y hy x hx).symm⟩
      exact hs.once.forall helog helog' hne x hex y hey hxy
    rw [← hepid, ← hepid', hee]
  · intro s
    apply length_le_one_of_forall_eq
    · exact (List.Nodup.of_map _ hs.table.ids).filter _
    · intro t ht u hu
      obtain ⟨htmem, htsel⟩ := List.mem_filter.mp ht
      obtain ⟨humem, husel⟩ := List.mem_filter.mp hu
      obtain ⟨htl, hts⟩ := of_decide_eq_true htsel
      obtain ⟨hul, hus⟩ := of_decide_eq_true husel
      exact hs.single t htmem u humem htl hul (hts.trans hus.symm)
  · rintro ⟨pid, o, pre, did, seen, post⟩ he ⟨oldId, data, rfl⟩ hx
    obtain ⟨e, rfl, hdb⟩ | ⟨r, rfl, c, heval⟩ := answer_access (hlinked.answer he)
    · exact hdb
    · rcases rotateRefreshToken_eq_ok heval with ⟨-, hdb⟩ | ⟨t, old, rfl, -⟩
      · exact hdb
      · cases hx

/-- Without a token there is no session. -/
theorem sessionTable_empty : SessionTable ({} : World).db :=
  ⟨List.nodup_nil, List.nodup_nil, fun _ ht => (List.not_mem_nil ht).elim⟩

instance (lib : Lib) (env : Env) : DecidablePred (authSystem lib env).valid :=
  fun _ => isTrue trivial

/-- A user registers, and two refreshes with the first token overlap. -/
def overlappingRefreshes : List (System.Action (authSystem .plain {})) :=
  List.flatten [[.spawn (.register "Ann" "ann@example.com" "password")], System.turns _ 0 {} 10,
    [.spawn (.refresh 1), .spawn (.refresh 1)], System.turns _ 1 {} 4, System.turns _ 2 {} 4,
    System.turns _ 1 {} 1, System.turns _ 2 {} 1]

/-- Two overlapping refreshes with one token, of which one is granted. -/
theorem rotation_singleUse_overlapping :
    ∃ cfg : (authSystem .plain {}).Config,
      (authSystem .plain {}).Reachable (fun w => SessionTable w.db) cfg ∧
        cfg.hist.log.filterMap exchange? = [(1, 3)] ∧
        cfg.hist.world.db.refreshTokens.map (fun t => (t.id, t.revokedAt)) =
          [(3, none), (1, some 0)] ∧
        ∀ s, (cfg.hist.world.db.refreshTokens.filter fun t =>
          t.revokedAt = none ∧ sessionOf cfg.hist.log t.id = s).length ≤ 1 := by
  obtain ⟨cfg, hplay, hexchanges, htokens⟩ : ∃ cfg,
      (authSystem .plain {}).play overlappingRefreshes
        ((authSystem .plain {}).start {}) = some cfg ∧
        cfg.hist.log.filterMap exchange? = [(1, 3)] ∧
        cfg.hist.world.db.refreshTokens.map (fun t => (t.id, t.revokedAt)) =
          [(3, none), (1, some 0)] := System.exists_of_play (by decide +kernel)
  have hr : (authSystem .plain {}).Reachable (fun w => SessionTable w.db) cfg :=
    System.reachable_of_play (fun _ _ _ => trivial) (.start sessionTable_empty) hplay
  obtain ⟨-, -, hsingle, -⟩ := rotation_singleUse hr
  exact ⟨cfg, hr, hexchanges, htokens, hsingle⟩

end SplitBill
