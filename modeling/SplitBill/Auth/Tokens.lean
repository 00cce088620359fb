import SplitBill.Auth.Sessions

/-!
# Single-use auth tokens

A registration, a resend and a request for a password reset issue an auth token, and mail it. In
every run of auth calls a token is used at most once, for the user and the purpose that it was
issued for, while it is the latest one of them and not over yet; a call that makes no use of its
token leaves the users and their sessions alone.
-/

namespace SplitBill

open Interleave

variable {lib : Lib} {env : Env}

/-! ## What the log says -/

/-- The auth tokens: those that the log issued, latest first, before those that were there. -/
def tokensOf (d : Db) (log : List BackendEntry) : List AuthToken :=
  log.filterMap issued? ++ d.authTokens

/-- The latest token of a user and a purpose. -/
def latest? (tokens : List AuthToken) (userId : Id) (purpose : AuthTokenPurpose) :
    Option AuthToken :=
  tokens.find? fun t => t.userId = userId ∧ t.purpose = purpose

/-- The raw token that a call presents in order to use it. -/
def AuthCall.presented? : AuthCall → Option Id
  | verifyEmailAddress token => some token
  | resetUserPassword token _ => some token
  | _ => none

/-- The use was made of the latest token of the user and the purpose, which was not consumed before,
and a time before its end was the first that the call had read. -/
def UseGood (d : Db) (l : List BackendEntry) (e : BackendEntry) : Prop :=
  ∀ u ∈ use? e, ∃ t, latest? (tokensOf d l) u.userId u.purpose = some t ∧ t.id = u.tokenId ∧
    t.consumedAt = none ∧ ∃ now, firstTime? (l.filter (·.pid = e.pid)) = some now ∧
      now < t.expiresAt

/-- What a use changes is its user's, and what its purpose is about. -/
structure UseEffect (e : BackendEntry) (u : Use) : Prop where
  users : e.post.db.users.filter (·.id ≠ u.userId) = e.pre.db.users.filter (·.id ≠ u.userId)
  sessions : e.post.db.refreshTokens.filter (·.userId ≠ u.userId) =
    e.pre.db.refreshTokens.filter (·.userId ≠ u.userId)
  verification : u.purpose = .emailVerification →
    e.post.db.users.map (·.passwordHash) = e.pre.db.users.map (·.passwordHash) ∧
      e.post.db.refreshTokens = e.pre.db.refreshTokens
  reset : u.purpose = .passwordReset →
    e.post.db.users.map (·.emailVerifiedAt) = e.pre.db.users.map (·.emailVerifiedAt)

/-- The same row but for the time of its consumption, which is not taken back. -/
def SameAuthToken (i t : AuthToken) : Prop :=
  t.id = i.id ∧ t.userId = i.userId ∧ t.purpose = i.purpose ∧ t.tokenHash = i.tokenHash ∧
    t.expiresAt = i.expiresAt ∧ (t.consumedAt = none → i.consumedAt = none)

/-- What a step does to the auth tokens: it issues one in the place of the previous one of the user
and the purpose, it consumes one, or it leaves them alone. -/
inductive TokenStep (e : BackendEntry) : Prop
  | issue (t : AuthToken) (hi : issued? e = some t) (hu : use? e = none)
      (hid : e.pre.db.nextId ≤ t.id) (hnext : t.id < e.post.db.nextId)
      (hpost : e.post.db.authTokens = t :: e.pre.db.authTokens.filter fun x =>
        ¬(x.userId = t.userId ∧ x.purpose = t.purpose))
  | consume (id : Id) (now : Time) (hi : issued? e = none)
      (hu : ∀ u ∈ use? e, u.tokenId = id ∧
        ∃ t ∈ e.pre.db.authTokens, t.id = id ∧ t.consumedAt = none)
      (hnext : e.pre.db.nextId = e.post.db.nextId)
      (hpost : e.post.db.authTokens = consumeIn id now e.pre.db.authTokens)
  | keep (hi : issued? e = none) (hu : use? e = none) (hnext : e.pre.db.nextId ≤ e.post.db.nextId)
      (hpost : e.post.db.authTokens = e.pre.db.authTokens)

section Log

variable {d : Db} {log : List BackendEntry} {e : BackendEntry} {t : AuthToken}
  {tokens : List AuthToken} {userId : Id} {purpose : AuthTokenPurpose}

/-- A step that issues nothing adds no token. -/
theorem tokensOf_cons_none (h : issued? e = none) : tokensOf d (e :: log) = tokensOf d log := by
  unfold tokensOf
  rw [List.filterMap_cons_none h]

/-- A step that issues a token adds it. -/
theorem tokensOf_cons_some (h : issued? e = some t) :
    tokensOf d (e :: log) = t :: tokensOf d log := by
  unfold tokensOf
  rw [List.filterMap_cons_some h, List.cons_append]

/-- What was issued stays issued. -/
theorem mem_tokensOf_cons (e : BackendEntry) (h : t ∈ tokensOf d log) :
    t ∈ tokensOf d (e :: log) := by
  cases hi : issued? e with
  | none => rwa [tokensOf_cons_none hi]
  | some i =>
    rw [tokensOf_cons_some hi]
    exact List.mem_cons_of_mem _ h

/-- The token that was issued last is the latest one of its user and purpose. -/
theorem latest?_cons_self : latest? (t :: tokens) t.userId t.purpose = some t :=
  List.find?_cons_of_pos (decide_eq_true ⟨rfl, rfl⟩)

/-- It leaves those of other users and purposes. -/
theorem latest?_cons_of_ne (h : ¬(t.userId = userId ∧ t.purpose = purpose)) :
    latest? (t :: tokens) userId purpose = latest? tokens userId purpose :=
  List.find?_cons_of_neg (by simpa using h)

/-- The latest token has been issued. -/
theorem mem_of_latest? (h : latest? tokens userId purpose = some t) : t ∈ tokens :=
  List.mem_of_find?_eq_some h

/-- A row is a row of its token. -/
theorem SameAuthToken.refl (t : AuthToken) : SameAuthToken t t :=
  ⟨rfl, rfl, rfl, rfl, rfl, id⟩

/-- A token that was consumed is still the same. -/
theorem SameAuthToken.consume {i : AuthToken} (h : SameAuthToken i t) (now : Time) :
    SameAuthToken i { t with consumedAt := some now } := by
  obtain ⟨hid, huser, hpurpose, hhash, hend, -⟩ := h
  exact ⟨hid, huser, hpurpose, hhash, hend, fun hnone => by cases hnone⟩

/-- An operation that fails, or is none on the database, leaves the auth tokens alone. -/
theorem tokenStep_of_eq {pid : ℕ} {o : Op} {w w' : World} {did seen : Except Err o.Res}
    (hi : issued? ⟨pid, o, w, did, seen, w'⟩ = none) (hu : use? ⟨pid, o, w, did, seen, w'⟩ = none)
    (hdb : w'.db = w.db) : TokenStep ⟨pid, o, w, did, seen, w'⟩ :=
  .keep hi hu (by rw [hdb]) (by rw [hdb])

/-- Every operation of an auth call is a step of the auth tokens. -/
theorem tokenStep {o : Op} (ho : o.OfAuth) (pid : ℕ) {w w' : World}
    {did seen : Except Err (backend.Res o)} (hans : (machine lib).Answer o w did seen w') :
    TokenStep ⟨pid, o, w, did, seen, w'⟩ := by
  cases o with
  | db d =>
    cases d with
    | auth a =>
      obtain ⟨e, rfl, hdb⟩ | ⟨r, rfl, hmakes⟩ := answer_access hans
      · -- Nothing is issued or used by an operation that fails, whichever it is.
        cases a <;> exact tokenStep_of_eq rfl rfl hdb
      cases a with
      | findByEmail email => exact tokenStep_of_eq rfl rfl hmakes
      | findById id => exact tokenStep_of_eq rfl rfl hmakes
      | updateExists id => exact tokenStep_of_eq rfl rfl hmakes
      | findRefreshTokenByHash tokenHash => exact tokenStep_of_eq rfl rfl hmakes
      | findAuthTokenByHash tokenHash => exact tokenStep_of_eq rfl rfl hmakes
      | update id data =>
        have hdb := update_makes hmakes
        exact .keep rfl rfl (by rw [hdb]) (by rw [hdb])
      | createRefreshToken data =>
        obtain ⟨-, hdb⟩ := createRefreshToken_makes hmakes
        refine .keep rfl rfl ?_ (by rw [hdb])
        rw [hdb]
        exact Nat.le_succ _
      | revokeRefreshTokenById id =>
        have hdb := revokeRefreshTokenById_makes hmakes
        exact .keep rfl rfl (by rw [hdb]) (by rw [hdb])
      | rotateRefreshToken oldId data =>
        obtain ⟨c, heval⟩ := hmakes
        rcases rotateRefreshToken_eq_ok heval with ⟨rfl, hdb⟩ | ⟨t, old, rfl, -, -, -, -, -, hdb⟩
        · exact tokenStep_of_eq rfl rfl hdb
        · refine .keep rfl rfl ?_ (by rw [hdb])
          rw [hdb]
          exact Nat.le_succ _
      | createUserWithAuthData data =>
        obtain ⟨c, heval⟩ := hmakes
        obtain ⟨user, session, token, -, -, -, rfl, -, hnew, hdb⟩ :=
          createUserWithAuthData_eq_ok heval
        refine .issue _ rfl rfl ?_ ?_ ?_
        · exact Nat.le_add_right _ _
        · rw [hdb]
          exact Nat.add_lt_add_left (by decide) _
        · -- The user is new, so there was no token to replace.
          rw [hdb, List.filter_eq_self.mpr]
          intro x hx
          exact decide_eq_true (hnew x hx).2
      | createAuthToken data =>
        obtain ⟨c, heval⟩ := hmakes
        obtain ⟨rfl, -, hdb⟩ := createAuthToken_eq_ok heval
        refine .issue _ rfl rfl (Nat.le_refl _) ?_ (by rw [hdb])
        rw [hdb]
        exact Nat.lt_succ_self _
      | consumeVerificationTokenAndVerifyUser tokenId userId now =>
        obtain ⟨c, heval⟩ := hmakes
        rcases consumeVerification_eq_ok heval with ⟨rfl, hdb⟩ | ⟨u, rfl, hrow, -, hdb⟩
        · exact tokenStep_of_eq rfl rfl hdb
        · refine .consume tokenId now rfl ?_ (by rw [hdb]) (by rw [hdb])
          rintro _ ⟨⟩
          exact ⟨rfl, hrow⟩
      | consumePasswordResetTokenAndUpdatePassword tokenId userId passwordHash now =>
        obtain ⟨c, heval⟩ := hmakes
        rcases consumePasswordReset_eq_ok heval with
          ⟨rfl, tokens, rfl | rfl, hdb⟩ | ⟨u, rfl, hrow, hdb⟩
        · exact tokenStep_of_eq rfl rfl hdb
        · -- The token is consumed, but the user is gone, so it is not used.
          refine .consume tokenId now rfl ?_ (by rw [hdb]) (by rw [hdb])
          rintro _ ⟨⟩
        · refine .consume tokenId now rfl ?_ (by rw [hdb]) (by rw [hdb])
          rintro _ ⟨⟩
          exact ⟨rfl, hrow⟩
    | _ => exact ho.elim
  | _ => exact tokenStep_of_eq rfl rfl (answer_db_eq (by rintro d ⟨⟩) hans)

end Log

/-! ## The table at the start -/

/-- The auth tokens of a world have different ids, all of them drawn, different digests, all of them
of random values that were drawn, and no two are of the same user and purpose. -/
structure TokenTable (lib : Lib) (w : World) : Prop where
  ids : (w.db.authTokens.map (·.id)).Nodup
  hashes : (w.db.authTokens.map (·.tokenHash)).Nodup
  owners : w.db.authTokens.Pairwise fun s t => ¬(t.userId = s.userId ∧ t.purpose = s.purpose)
  bound : ∀ t ∈ w.db.authTokens, t.id < w.db.nextId
  drawn : ∀ t ∈ w.db.authTokens, ∃ x < w.random, t.tokenHash = lib.sha256 x

/-- In a table with one token for each user and purpose, that token is the latest one. -/
theorem latest?_eq_self {tokens : List AuthToken} {t : AuthToken}
    (h : tokens.Pairwise fun s t => ¬(t.userId = s.userId ∧ t.purpose = s.purpose))
    (ht : t ∈ tokens) : latest? tokens t.userId t.purpose = some t := by
  induction tokens with
  | nil => exact (List.not_mem_nil ht).elim
  | cons s tokens ih =>
    obtain ⟨hs, hrest⟩ := List.pairwise_cons.mp h
    rcases List.mem_cons.mp ht with rfl | ht
    · exact latest?_cons_self
    · have hne : ¬(s.userId = t.userId ∧ s.purpose = t.purpose) := by
        rintro ⟨huser, hpurpose⟩
        exact hs t ht ⟨huser.symm, hpurpose.symm⟩
      rw [latest?_cons_of_ne hne]
      exact ih hrest ht

/-! ## The invariant -/

/-- What holds of the auth tokens at any time. A row is the latest issued token of its user and
purpose, but for its consumption, a token that was used is consumed, and what a call read was
issued. The digests are of random values that were drawn, for a token of the log by the call that
issued it. -/
structure Tokens (lib : Lib) (w₀ : World) (h : Hist backend Err World) : Prop where
  distinct : Draws h
  ids : ((tokensOf w₀.db h.log).map (·.id)).Nodup
  bound : ∀ t ∈ tokensOf w₀.db h.log, t.id < h.world.db.nextId
  rows : ∀ t ∈ h.world.db.authTokens, ∃ i,
    latest? (tokensOf w₀.db h.log) t.userId t.purpose = some i ∧
    SameAuthToken i t
  spent : ∀ e ∈ h.log, ∀ u ∈ use? e, ∀ t ∈ h.world.db.authTokens, t.id = u.tokenId →
    t.consumedAt ≠ none
  drawn : ∀ e ∈ h.log, ∀ u ∈ use? e, u.tokenId < h.world.db.nextId
  once : h.log.Pairwise fun a b => ∀ x ∈ use? a, ∀ y ∈ use? b, x.tokenId ≠ y.tokenId
  kept : ∀ e ∈ h.log, ∀ t ∈ readAuthToken? e, ∃ i ∈ tokensOf w₀.db h.log, SameAuthToken i t
  sources : ∀ e ∈ h.log, ∀ t ∈ issued? e,
    ∃ d ∈ draws h.log, d.1 = e.pid ∧ t.tokenHash = lib.sha256 d.2
  single : h.log.Pairwise fun a b =>
    (issued? a).isSome = true → (issued? b).isSome = true → a.pid ≠ b.pid
  later : w₀.random ≤ h.world.random ∧ ∀ d ∈ draws h.log, w₀.random ≤ d.2
  good : ∀ e l, e :: l <:+ h.log → UseGood w₀.db l e

section Invariant

variable {w₀ : World} {h : Hist backend Err World} {pid : ℕ} {o : Op} {w : World}
  {did seen : Except Err (backend.Res o)}

/-- What an entry issued was the first that its call issued, under a digest of a value it drew. -/
theorem firstIssue_of_issued {t : AuthToken} {l : List BackendEntry} (ho : AuthStep lib l o)
    (hans : (machine lib).Answer o h.world did seen w)
    (hi : issued? ⟨pid, o, h.world, did, seen, w⟩ = some t) : FirstIssue lib l t.tokenHash := by
  unfold issued? at hi
  split at hi
  · next data w' t' seen' w'' heq =>
    cases heq
    obtain rfl := Option.some.inj hi
    obtain ⟨e, he, -⟩ | ⟨r, hok, c, heval⟩ := answer_access hans
    · cases he
    · obtain rfl := Except.ok.inj hok
      obtain ⟨rfl, -⟩ := createAuthToken_eq_ok heval
      exact ho.2
  · next data w' u seen' w'' heq =>
    cases heq
    obtain rfl := Option.some.inj hi
    exact ho
  · cases hi

/-- What a call drew by its own entries it drew. -/
theorem mem_draws_own {d : ℕ × Id} (hd : d ∈ draws (h.own pid)) : d ∈ draws h.log ∧ d.1 = pid := by
  obtain ⟨e, he, hed⟩ := List.mem_filterMap.mp hd
  obtain ⟨hmem, hpid⟩ := Hist.mem_own.mp he
  have hdpid : d.1 = e.pid := by
    unfold drawn? at hed
    split at hed
    · obtain rfl := Option.some.inj hed
      rfl
    · cases hed
  exact ⟨List.mem_filterMap.mpr ⟨e, hmem, hed⟩, hdpid.trans hpid⟩

/-- Who used a token had read it. -/
theorem validated_of_use {u : Use} {l : List BackendEntry} (ho : AuthStep lib l o)
    (hu : use? ⟨pid, o, h.world, did, seen, w⟩ = some u) :
    ∃ now, Validated l u.tokenId u.userId u.purpose now := by
  unfold use? at hu
  split at hu
  · next tokenId userId now w' u' seen' w'' heq =>
    cases heq
    obtain rfl := Option.some.inj hu
    exact ⟨now, ho⟩
  · next tokenId userId passwordHash now w' u' seen' w'' heq =>
    cases heq
    obtain rfl := Option.some.inj hu
    exact ⟨now, ho⟩
  · cases hu

/-- What an entry read of an auth token is a row. -/
theorem mem_of_readAuthToken? {t : AuthToken} (hans : (machine lib).Answer o h.world did seen w)
    (ht : readAuthToken? ⟨pid, o, h.world, did, seen, w⟩ = some t) : t ∈ h.world.db.authTokens := by
  unfold readAuthToken? at ht
  split at ht
  · next tokenHash w' did' t' w'' heq =>
    cases heq
    obtain rfl := Option.some.inj ht
    obtain ⟨-, ⟨c, hc⟩ | hc⟩ := answer_read (o := .auth (.findAuthTokenByHash tokenHash)) rfl hans
    · exact List.mem_of_find?_eq_some (Except.ok.inj hc).symm
    · cases hc
  · cases ht

/-- A row was issued. -/
theorem Tokens.exists_of_row (hs : Tokens lib w₀ h) {t : AuthToken}
    (ht : t ∈ h.world.db.authTokens) :
    ∃ i ∈ tokensOf w₀.db h.log, SameAuthToken i t := by
  obtain ⟨i, hi, hsame⟩ := hs.rows t ht
  exact ⟨i, mem_of_latest? hi, hsame⟩

/-- Issued tokens with the same id are the same. -/
theorem Tokens.eq_of_id (hs : Tokens lib w₀ h) {i j : AuthToken} (hi : i ∈ tokensOf w₀.db h.log)
    (hj : j ∈ tokensOf w₀.db h.log) (hid : i.id = j.id) : i = j :=
  List.inj_on_of_nodup_map hs.ids hi hj hid

/-- A use that commits is a good one. -/
theorem Tokens.useGood (hs : Tokens lib w₀ h) (ho : AuthStep lib (h.own pid) o)
    (hstep : TokenStep ⟨pid, o, h.world, did, seen, w⟩) :
    UseGood w₀.db h.log ⟨pid, o, h.world, did, seen, w⟩ := by
  intro u hu
  obtain ⟨now, t, hread, hid, huser, hpurpose, -, hfirst, hend⟩ := validated_of_use ho hu
  obtain ⟨e, he, het⟩ := List.mem_filterMap.mp (hread ▸ List.mem_singleton_self t)
  obtain ⟨i, hi, hsame⟩ := hs.kept e (Hist.mem_own.mp he).1 t het
  -- The row that was consumed is of the same token as the one that was read.
  obtain ⟨r, hr, hrid, hrlive⟩ : ∃ r ∈ h.world.db.authTokens, r.id = u.tokenId ∧
    r.consumedAt = none := by
    cases hstep with
    | issue t hi hu' => rw [hu] at hu'; cases hu'
    | consume id now hi hu' =>
      obtain ⟨rfl, hrow⟩ := hu' u hu
      exact hrow
    | keep hi hu' => rw [hu] at hu'; cases hu'
  obtain ⟨j, hj, hrsame⟩ := hs.rows r hr
  have hji : j = i := by
    apply hs.eq_of_id (mem_of_latest? hj) hi
    rw [← hrsame.1, ← hsame.1, hrid, hid]
  subst hji
  obtain ⟨hrid', hruser, hrpurpose, -, -, hconsumed⟩ := hrsame
  obtain ⟨-, htuser, htpurpose, -, htend, -⟩ := hsame
  refine ⟨j, ?_, by rw [← hrid', hrid], hconsumed hrlive, now, hfirst, by rw [← htend]; exact hend⟩
  have hu₁ : r.userId = u.userId := by rw [hruser, ← htuser, huser]
  have hu₂ : r.purpose = u.purpose := by rw [hrpurpose, ← htpurpose, hpurpose]
  rw [← hu₁, ← hu₂]
  exact hj

/-- The random values of a run are later than those at its start. -/
theorem Tokens.later_step (hs : Tokens lib w₀ h)
    (hans : (machine lib).Answer o h.world did seen w) :
    w₀.random ≤ w.random ∧ ∀ d ∈ draws (h.record pid o did seen w).log, w₀.random ≤ d.2 := by
  refine ⟨Nat.le_trans hs.later.1 (answer_random_le hans), ?_⟩
  rcases drawn?_cases pid hans with hnone | ⟨hsome, -⟩
  · rw [Hist.record_log, draws_cons_none hnone]
    exact hs.later.2
  · rw [Hist.record_log, draws_cons_some hsome]
    exact List.forall_mem_cons.mpr ⟨hs.later.1, hs.later.2⟩

/-- What a call reads was issued. -/
theorem Tokens.kept_step (hs : Tokens lib w₀ h)
    (hans : (machine lib).Answer o h.world did seen w) :
    ∀ e ∈ (h.record pid o did seen w).log, ∀ t ∈ readAuthToken? e,
      ∃ i ∈ tokensOf w₀.db (h.record pid o did seen w).log, SameAuthToken i t := by
  intro e he t ht
  have hold : ∃ i ∈ tokensOf w₀.db h.log, SameAuthToken i t := by
    rcases List.mem_cons.mp he with rfl | he
    · exact hs.exists_of_row (mem_of_readAuthToken? hans ht)
    · exact hs.kept e he t ht
  obtain ⟨i, hi, hsame⟩ := hold
  exact ⟨i, mem_tokensOf_cons _ hi, hsame⟩

/-- What is issued is issued under the digest of a value that the call drew. -/
theorem Tokens.sources_step (hs : Tokens lib w₀ h) (ho : AuthStep lib (h.own pid) o)
    (hans : (machine lib).Answer o h.world did seen w) :
    ∀ e ∈ (h.record pid o did seen w).log, ∀ t ∈ issued? e,
      ∃ d ∈ draws (h.record pid o did seen w).log, d.1 = e.pid ∧ t.tokenHash = lib.sha256 d.2 := by
  intro e he t ht
  rcases List.mem_cons.mp he with rfl | he
  · obtain ⟨-, d, hd, hhash⟩ := firstIssue_of_issued ho hans ht
    obtain ⟨hdmem, hdpid⟩ := mem_draws_own hd
    exact ⟨d, mem_draws_cons _ hdmem, hdpid, hhash⟩
  · obtain ⟨d, hd, hdpid, hhash⟩ := hs.sources e he t ht
    exact ⟨d, mem_draws_cons _ hd, hdpid, hhash⟩

/-- A call issues one token at most. -/
theorem Tokens.single_step (hs : Tokens lib w₀ h) (ho : AuthStep lib (h.own pid) o)
    (hans : (machine lib).Answer o h.world did seen w) :
    (h.record pid o did seen w).log.Pairwise fun a b =>
      (issued? a).isSome = true → (issued? b).isSome = true → a.pid ≠ b.pid := by
  refine List.pairwise_cons.mpr ⟨fun b hb hi hbi heq => ?_, hs.single⟩
  obtain ⟨t, ht⟩ := Option.isSome_iff_exists.mp hi
  obtain ⟨s, hbs⟩ := Option.isSome_iff_exists.mp hbi
  have hnone := (firstIssue_of_issued ho hans ht).1
  have hmem : s ∈ (h.own pid).filterMap issued? :=
    List.mem_filterMap.mpr ⟨b, Hist.mem_own.mpr ⟨hb, heq.symm⟩, hbs⟩
  rw [hnone] at hmem
  exact List.not_mem_nil hmem

/-- What a step changes, row by row. Every row but the one that was issued was there before and is
of another user or another purpose, and if it is not consumed the step has not used it. -/
structure TokenRows (e : BackendEntry) : Prop where
  next : e.pre.db.nextId ≤ e.post.db.nextId
  fresh : ∀ i ∈ issued? e, e.pre.db.nextId ≤ i.id ∧ i.id < e.post.db.nextId
  row : ∀ t ∈ e.post.db.authTokens, t ∈ issued? e ∨ ∃ x ∈ e.pre.db.authTokens,
    SameAuthToken x t ∧ (t.consumedAt = none → ∀ u ∈ use? e, t.id ≠ u.tokenId) ∧
      ∀ i ∈ issued? e, ¬(i.userId = t.userId ∧ i.purpose = t.purpose)
  used : ∀ u ∈ use? e, ∃ t ∈ e.pre.db.authTokens, t.id = u.tokenId ∧ t.consumedAt = none

/-- What a step of a token does to the rows. -/
theorem TokenStep.tokenRows {e : BackendEntry} (h : TokenStep e) : TokenRows e := by
  cases h with
  | issue t hi hu hid hnext hpost =>
    have hnouse : ∀ u, u ∉ use? e := fun u hmem => by rw [hu] at hmem; cases hmem
    refine ⟨Nat.le_trans hid (Nat.le_of_lt hnext), fun i hi' => ?_, fun x hx => ?_, fun u hmem => ?_⟩
    · obtain rfl := Option.some.inj (hi.symm.trans hi')
      exact ⟨hid, hnext⟩
    · rw [hpost] at hx
      rcases List.mem_cons.mp hx with rfl | hx
      · exact .inl hi
      · obtain ⟨hxmem, hsel⟩ := List.mem_filter.mp hx
        refine .inr ⟨x, hxmem, SameAuthToken.refl x, fun _ u hmem => absurd hmem (hnouse u), ?_⟩
        intro i hi' hsame
        obtain rfl := Option.some.inj (hi.symm.trans hi')
        exact of_decide_eq_true hsel ⟨hsame.1.symm, hsame.2.symm⟩
    · exact absurd hmem (hnouse u)
  | consume id now hi hu hnext hpost =>
    have hnone : ∀ i, i ∉ issued? e := fun i hmem => by rw [hi] at hmem; cases hmem
    refine ⟨Nat.le_of_eq hnext, fun i hi' => absurd hi' (hnone i), fun t ht => ?_,
      fun u hmem => ?_⟩
    · rw [hpost] at ht
      obtain ⟨x, hx, ⟨-, -, rfl⟩ | ⟨hsel, rfl⟩⟩ := mem_consumeIn.mp ht
      · exact .inr ⟨x, hx, (SameAuthToken.refl x).consume now, nofun,
          fun i hi' => absurd hi' (hnone i)⟩
      · refine .inr ⟨t, hx, SameAuthToken.refl t, fun hl u hmem htid => hsel ⟨?_, hl⟩,
          fun i hi' => absurd hi' (hnone i)⟩
        rw [htid, (hu u hmem).1]
    · obtain ⟨hid, hrow⟩ := hu u hmem
      rw [hid]
      exact hrow
  | keep hi hu hnext hpost =>
    have hnone : ∀ i, i ∉ issued? e := fun i hmem => by rw [hi] at hmem; cases hmem
    have hnouse : ∀ u, u ∉ use? e := fun u hmem => by rw [hu] at hmem; cases hmem
    refine ⟨hnext, fun i hi' => absurd hi' (hnone i), fun t ht => ?_,
      fun u hmem => absurd hmem (hnouse u)⟩
    exact .inr ⟨t, hpost ▸ ht, SameAuthToken.refl t, fun _ u hmem => absurd hmem (hnouse u),
      fun i hi' => absurd hi' (hnone i)⟩

/-- Rows of one token are those of one token. -/
theorem SameAuthToken.trans {i x t : AuthToken} (h₁ : SameAuthToken i x) (h₂ : SameAuthToken x t) :
    SameAuthToken i t := by
  obtain ⟨hid, huser, hpurpose, hhash, hend, hconsumed⟩ := h₁
  obtain ⟨hid', huser', hpurpose', hhash', hend', hconsumed'⟩ := h₂
  exact ⟨hid'.trans hid, huser'.trans huser, hpurpose'.trans hpurpose, hhash'.trans hhash,
    hend'.trans hend, hconsumed ∘ hconsumed'⟩

section Step

variable {e : BackendEntry} {log : List BackendEntry}

/-- No two tokens have one id. -/
theorem Tokens.ids_step (hs : Tokens lib w₀ ⟨e.pre, log⟩) (h : TokenRows e) :
    ((tokensOf w₀.db (e :: log)).map (·.id)).Nodup := by
  cases hi : issued? e with
  | none =>
    rw [tokensOf_cons_none hi]
    exact hs.ids
  | some t =>
    rw [tokensOf_cons_some hi]
    refine nodup_map_cons (fun x hx => ?_) hs.ids
    exact Nat.ne_of_lt (Nat.lt_of_lt_of_le (hs.bound x hx) (h.fresh t hi).1)

/-- The ids of the tokens have been taken. -/
theorem Tokens.bound_step (hs : Tokens lib w₀ ⟨e.pre, log⟩) (h : TokenRows e) :
    ∀ t ∈ tokensOf w₀.db (e :: log), t.id < e.post.db.nextId := by
  have hold : ∀ t ∈ tokensOf w₀.db log, t.id < e.post.db.nextId :=
    fun t ht => Nat.lt_of_lt_of_le (hs.bound t ht) h.next
  cases hi : issued? e with
  | none =>
    rw [tokensOf_cons_none hi]
    exact hold
  | some t =>
    rw [tokensOf_cons_some hi]
    exact List.forall_mem_cons.mpr ⟨(h.fresh t hi).2, hold⟩

/-- A row is of the latest token of its user and purpose: of the one that was issued, or else of the
one that was the latest before. -/
theorem Tokens.rows_step (hs : Tokens lib w₀ ⟨e.pre, log⟩) (h : TokenRows e) :
    ∀ t ∈ e.post.db.authTokens, ∃ i,
      latest? (tokensOf w₀.db (e :: log)) t.userId t.purpose = some i ∧ SameAuthToken i t := by
  intro t ht
  rcases h.row t ht with hi | ⟨x, hx, hsame, -, hother⟩
  · rw [tokensOf_cons_some hi]
    exact ⟨t, latest?_cons_self, SameAuthToken.refl t⟩
  · obtain ⟨i, hlatest, hix⟩ := hs.rows x hx
    obtain ⟨-, huser, hpurpose, -⟩ := id hsame
    refine ⟨i, ?_, hix.trans hsame⟩
    rw [← huser, ← hpurpose] at hlatest
    cases hi : issued? e with
    | none => rwa [tokensOf_cons_none hi]
    | some j => rwa [tokensOf_cons_some hi, latest?_cons_of_ne (hother j hi)]

/-- A token that is used was drawn before. -/
theorem Tokens.used_lt (hs : Tokens lib w₀ ⟨e.pre, log⟩) (h : TokenRows e) {e' : BackendEntry}
    (he : e' ∈ e :: log) {u : Use} (hu : u ∈ use? e') : u.tokenId < e.pre.db.nextId := by
  rcases List.mem_cons.mp he with rfl | he
  · obtain ⟨t, ht, hid, -⟩ := h.used u hu
    obtain ⟨i, hi, hsame⟩ := hs.exists_of_row ht
    rw [← hid, hsame.1]
    exact hs.bound i hi
  · exact hs.drawn e' he u hu

/-- A token that was used stays consumed. -/
theorem Tokens.spent_step (hs : Tokens lib w₀ ⟨e.pre, log⟩) (h : TokenRows e) :
    ∀ e' ∈ e :: log, ∀ u ∈ use? e', ∀ t ∈ e.post.db.authTokens, t.id = u.tokenId →
      t.consumedAt ≠ none := by
  intro e' he u hu t ht hid hl
  rcases h.row t ht with hi | ⟨x, hx, hsame, hunused, -⟩
  · have hlt : u.tokenId < t.id := Nat.lt_of_lt_of_le (hs.used_lt h he hu) (h.fresh t hi).1
    exact Nat.ne_of_gt hlt hid
  · rcases List.mem_cons.mp he with rfl | he
    · exact hunused hl u hu hid
    · obtain ⟨hxid, -, -, -, -, hlive⟩ := hsame
      exact hs.spent e' he u hu x hx (hxid.symm.trans hid) (hlive hl)

/-- A token that was used has an id that has been taken. -/
theorem Tokens.drawn_step (hs : Tokens lib w₀ ⟨e.pre, log⟩) (h : TokenRows e) :
    ∀ e' ∈ e :: log, ∀ u ∈ use? e', u.tokenId < e.post.db.nextId :=
  fun _ he _ hu => Nat.lt_of_lt_of_le (hs.used_lt h he hu) h.next

/-- A used token was not consumed, and those that had been used were. -/
theorem Tokens.once_step (hs : Tokens lib w₀ ⟨e.pre, log⟩) (h : TokenRows e) :
    (e :: log).Pairwise fun a b => ∀ x ∈ use? a, ∀ y ∈ use? b, x.tokenId ≠ y.tokenId := by
  refine List.pairwise_cons.mpr ⟨fun b hb x hx y hy heq => ?_, hs.once⟩
  obtain ⟨t, ht, hid, hlive⟩ := h.used x hx
  exact hs.spent b hb y hy t ht (hid.trans heq) hlive

end Step

/-- Every step keeps the invariant. -/
theorem Tokens.step (hs : Tokens lib w₀ h) (ho : AuthStep lib (h.own pid) o)
    (hans : (machine lib).Answer o h.world did seen w) :
    Tokens lib w₀ (h.record pid o did seen w) := by
  have hstep : TokenStep ⟨pid, o, h.world, did, seen, w⟩ := tokenStep ho.ofAuth pid hans
  have hrows := hstep.tokenRows
  have hgood : ∀ e l, e :: l <:+ (h.record pid o did seen w).log → UseGood w₀.db l e :=
    forall_suffix_cons.mpr ⟨hs.useGood ho hstep, hs.good⟩
  exact ⟨hs.distinct.record pid hans, hs.ids_step hrows, hs.bound_step hrows, hs.rows_step hrows,
    hs.spent_step hrows, hs.drawn_step hrows, hs.once_step hrows, hs.kept_step hans,
    hs.sources_step ho hans, hs.single_step ho hans, hs.later_step hans, hgood⟩

end Invariant

/-! ## What a use changes -/

section Effect

variable {pid : ℕ} {o : Op} {w w' : World} {did seen : Except Err (backend.Res o)}

/-- A verification changes a user's marker. -/
theorem verificationEffect {tokenId userId : Id} {now : Time} {user : SafeUser}
    (h : (consumeVerificationTokenAndVerifyUser tokenId userId now).eval w.db =
      .ok (some user, w'.db)) :
    UseEffect ⟨pid, o, w, did, seen, w'⟩ ⟨tokenId, userId, .emailVerification⟩ := by
  obtain ⟨hnone, -⟩ | ⟨v, -, -, -, hdb⟩ := consumeVerification_eq_ok h
  · cases hnone
  constructor
  case users =>
    -- The other users are untouched.
    rw [hdb]
    apply filter_updateWhere
    intro x _ hx
    have hid : x.id = userId := of_decide_eq_true hx
    exact ⟨by simp [hid], by simp [Prisma.UserData.applyTo, hid]⟩
  case sessions => rw [hdb]
  case verification =>
    intro _
    rw [hdb]
    constructor
    · apply map_updateWhere
      exact fun x => rfl
    · rfl
  case reset =>
    intro hpurpose
    cases hpurpose

/-- A password reset changes a user's password and sessions. -/
theorem resetEffect {tokenId userId : Id} {now : Time} {passwordHash : String} {user : SafeUser}
    (h : (consumePasswordResetTokenAndUpdatePassword tokenId userId passwordHash now).eval w.db =
      .ok (some user, w'.db)) :
    UseEffect ⟨pid, o, w, did, seen, w'⟩ ⟨tokenId, userId, .passwordReset⟩ := by
  obtain ⟨hnone, -⟩ | ⟨v, -, -, hdb⟩ := consumePasswordReset_eq_ok h
  · cases hnone
  constructor
  case users =>
    -- The other users are untouched.
    rw [hdb]
    apply filter_updateWhere
    intro x _ hx
    have hid : x.id = userId := of_decide_eq_true hx
    exact ⟨by simp [hid], by simp [hid]⟩
  case sessions =>
    -- The sessions of the other users are untouched.
    rw [hdb]
    apply filter_updateWhere
    intro x _ hx
    have huser : x.userId = userId := by simpa using (of_decide_eq_true hx).1
    exact ⟨by simp [huser], by simp [huser]⟩
  case verification =>
    intro hpurpose
    cases hpurpose
  case reset =>
    intro _
    rw [hdb]
    apply map_updateWhere
    exact fun x => rfl

/-- A use changes only what belongs to its user and its purpose. -/
theorem useEffect {u : Use} (hans : (machine lib).Answer o w did seen w')
    (hu : use? ⟨pid, o, w, did, seen, w'⟩ = some u) : UseEffect ⟨pid, o, w, did, seen, w'⟩ u := by
  unfold use? at hu
  split at hu
  · next tokenId userId now w₁ user seen' w₂ heq =>
    cases heq
    obtain rfl := Option.some.inj hu
    obtain ⟨e, he, -⟩ | ⟨r, hok, c, heval⟩ := answer_access hans
    · cases he
    · cases hok
      exact verificationEffect heval
  · next tokenId userId passwordHash now w₁ user seen' w₂ heq =>
    cases heq
    obtain rfl := Option.some.inj hu
    obtain ⟨e, he, -⟩ | ⟨r, hok, c, heval⟩ := answer_access hans
    · cases he
    · cases hok
      exact resetEffect heval
  · cases hu

/-- The operations of the calls that use a token. -/
def Op.UsesToken : Op → Prop
  | .db (.auth (.findAuthTokenByHash _)) => True
  | .db (.auth (.consumeVerificationTokenAndVerifyUser _ _ _)) => True
  | .db (.auth (.consumePasswordResetTokenAndUpdatePassword _ _ _ _)) => True
  | .db _ => False
  | _ => True

/-- An operation of such a call that makes no use of a token leaves users and sessions alone. -/
theorem unused_keeps (ho : o.UsesToken) (hans : (machine lib).Answer o w did seen w')
    (hu : use? ⟨pid, o, w, did, seen, w'⟩ = none) :
    w'.db.users = w.db.users ∧ w'.db.refreshTokens = w.db.refreshTokens := by
  have hkeeps : w'.db = w.db →
      w'.db.users = w.db.users ∧ w'.db.refreshTokens = w.db.refreshTokens :=
    fun hdb => by rw [hdb]; exact ⟨rfl, rfl⟩
  cases o with
  | db d =>
    cases d with
    | auth a =>
      obtain ⟨e, rfl, hdb⟩ | ⟨r, rfl, hmakes⟩ := answer_access hans
      · exact hkeeps hdb
      cases a with
      -- Only the two consumptions write, and neither does without using the token.
      | findAuthTokenByHash tokenHash => exact hkeeps hmakes
      | consumeVerificationTokenAndVerifyUser tokenId userId now =>
        obtain ⟨c, heval⟩ := hmakes
        rcases consumeVerification_eq_ok heval with ⟨-, hdb⟩ | ⟨u, rfl, -⟩
        · exact hkeeps hdb
        · cases hu
      | consumePasswordResetTokenAndUpdatePassword tokenId userId passwordHash now =>
        obtain ⟨c, heval⟩ := hmakes
        rcases consumePasswordReset_eq_ok heval with ⟨-, tokens, -, hdb⟩ | ⟨u, rfl, -⟩
        · rw [hdb]
          exact ⟨rfl, rfl⟩
        · cases hu
      | _ => exact ho.elim
    | _ => exact ho.elim
  | _ => exact hkeeps (answer_db_eq (by rintro d ⟨⟩) hans)

/-- A call that presents a token issues none. -/
theorem issues_presented {c : AuthCall} (h : c.presented?.isSome = true) :
    (c.body env lib).Issues Op.UsesToken := by
  have hop : ∀ {o : Op}, o.UsesToken → (Op.perform o).Issues Op.UsesToken := fun ho =>
    (Prog.issues_perform _ _).mpr ho
  -- Both calls look the token up, check it, and consume it.
  cases c with
  | verifyEmailAddress token =>
    apply Prog.Issues.bind
    · refine .bind (hop trivial) fun found => .bind (hop trivial) fun now => ?_
      refine .bind (Prog.issues_expect _ _ _) fun record =>
        .bind (Prog.issues_ensure _ _ _) fun _ => ?_
      refine .bind (Prog.issues_ensure _ _ _) fun _ => .bind (Prog.issues_ensure _ _ _) fun _ => ?_
      exact .bind (hop trivial) fun verified => .bind (Prog.issues_expect _ _ _) fun _ => trivial
    · exact fun _ => trivial
  | resetUserPassword token newPassword =>
    apply Prog.Issues.bind
    · refine .bind (hop trivial) fun found => .bind (hop trivial) fun now => ?_
      refine .bind (Prog.issues_expect _ _ _) fun record =>
        .bind (Prog.issues_ensure _ _ _) fun _ => ?_
      refine .bind (Prog.issues_ensure _ _ _) fun _ => .bind (Prog.issues_ensure _ _ _) fun _ => ?_
      refine .bind (hop trivial) fun passwordHash => .bind (hop trivial) fun updated => ?_
      exact .bind (Prog.issues_expect _ _ _) fun _ => trivial
    · exact fun _ => trivial
  | _ => cases h

/-- A call that presented a token and was told it succeeded read the token and used it. -/
theorem AuthEnd.of_presented {c : AuthCall} {token : Id} {a : Option AuthResult}
    {l : List BackendEntry} (hend : AuthEnd lib c (.ok a) l) (hc : c.presented? = some token) :
    ∃ t ∈ l.filterMap readAuthToken?, t.tokenHash = lib.sha256 token ∧
      ∃ u ∈ l.filterMap use?, u.tokenId = t.id := by
  cases c with
  | verifyEmailAddress raw =>
    obtain rfl := Option.some.inj hc
    obtain ⟨t, ht, hhash, hu⟩ := hend
    exact ⟨t, ht, hhash, _, hu, rfl⟩
  | resetUserPassword raw newPassword =>
    obtain rfl := Option.some.inj hc
    obtain ⟨t, ht, hhash, hu⟩ := hend
    exact ⟨t, ht, hhash, _, hu, rfl⟩
  | _ => cases hc

end Effect

/-! ## Runs -/

section Runs

variable {w₀ : World}

/-- Before the first call the tokens are those of the table. -/
theorem tokens_start (hw : TokenTable lib w₀) : Tokens lib w₀ ⟨w₀, []⟩ := by
  -- The log is empty, so that only the table says anything.
  constructor
  case distinct =>
    exact ⟨fun d hd => (List.not_mem_nil hd).elim, .nil⟩
  case ids =>
    exact hw.ids
  case bound =>
    exact hw.bound
  case rows =>
    exact fun t ht => ⟨t, latest?_eq_self hw.owners ht, SameAuthToken.refl t⟩
  case spent =>
    exact fun e he => (List.not_mem_nil he).elim
  case drawn =>
    exact fun e he => (List.not_mem_nil he).elim
  case once =>
    exact .nil
  case kept =>
    exact fun e he => (List.not_mem_nil he).elim
  case sources =>
    exact fun e he => (List.not_mem_nil he).elim
  case single =>
    exact .nil
  case later =>
    exact ⟨Nat.le_refl _, fun d hd => (List.not_mem_nil hd).elim⟩
  case good =>
    intro e l hl
    cases List.suffix_nil.mp hl

/-- The passing of time keeps the tokens. -/
theorem Tokens.withWorld {h : Hist backend Err World} {w : World} (hs : Tokens lib w₀ h)
    (hw : h.world.Later w) : Tokens lib w₀ (h.withWorld w) := by
  obtain ⟨t, -, rfl⟩ := hw
  exact ⟨⟨hs.distinct.bound, hs.distinct.distinct⟩, hs.ids, hs.bound, hs.rows, hs.spent, hs.drawn,
    hs.once, hs.kept, hs.sources, hs.single, hs.later, hs.good⟩

/-- The invariant holds in every run of auth calls, and the calls end as their entries show. -/
theorem tokens_of_reachable (hw : TokenTable lib w₀) {cfg : (authSystem lib env).Config}
    (hr : (authSystem lib env).Reachable (fun w => w = w₀) cfg) :
    Tokens lib w₀ cfg.hist ∧ ∀ pid c a, cfg.procs[pid]? = some (c, .ret a) →
      AuthEnd lib c (.ok a) (cfg.hist.own pid) := by
  have hstart : ∀ w : World, w = w₀ → Tokens lib w₀ ⟨w, []⟩ := by
    rintro w rfl
    exact tokens_start hw
  exact @System.keeps_of_ownLog _ _ _ _ (authSystem lib env) _ (fun _ _ => AuthStep lib)
    (fun _ c r l => AuthEnd lib c r l) (Tokens lib w₀) (fun pid c _ => authCall_wp c)
    hstart (fun _ _ hs hw => hs.withWorld hw)
    (fun pid c o h did seen w ho hs _ hans => hs.step ho hans) cfg hr

/-- Tokens with the same digest are the same, if the digest tells raw tokens apart. -/
theorem Tokens.eq_of_hash (hsha : Function.Injective lib.sha256) (hw : TokenTable lib w₀)
    {h : Hist backend Err World} (hs : Tokens lib w₀ h) {s t : AuthToken}
    (hsmem : s ∈ tokensOf w₀.db h.log) (htmem : t ∈ tokensOf w₀.db h.log)
    (hhash : s.tokenHash = t.tokenHash) : s = t := by
  -- A token of the log and one of the table are of random values drawn at different times.
  have hapart : ∀ {i j : AuthToken}, i ∈ h.log.filterMap issued? → j ∈ w₀.db.authTokens →
      i.tokenHash ≠ j.tokenHash := by
    intro i j hi hj heq
    obtain ⟨e, he, hei⟩ := List.mem_filterMap.mp hi
    obtain ⟨d, hd, -, hdhash⟩ := hs.sources e he i hei
    obtain ⟨x, hx, hxhash⟩ := hw.drawn j hj
    have hdx : d.2 = x := hsha (by rw [← hdhash, ← hxhash, heq])
    have hle : w₀.random ≤ x := hdx ▸ hs.later.2 d hd
    exact Nat.not_lt.mpr hle hx
  rcases List.mem_append.mp hsmem with hs' | hs' <;> rcases List.mem_append.mp htmem with ht' | ht'
  · obtain ⟨e, he, hes⟩ := List.mem_filterMap.mp hs'
    obtain ⟨e', he', het⟩ := List.mem_filterMap.mp ht'
    obtain ⟨d, hd, hdpid, hdhash⟩ := hs.sources e he s hes
    obtain ⟨d', hd', hdpid', hdhash'⟩ := hs.sources e' he' t het
    -- The same value was drawn, so the same call issued both, and it issued one only.
    have hdd : d.2 = d'.2 := hsha (by rw [← hdhash, ← hdhash', hhash])
    have hpid : d.1 = d'.1 := hs.distinct.pid_eq hd (q := d'.1) (hdd ▸ hd')
    have hee : e = e' := by
      by_contra hne
      have hsymm : Std.Symm fun a b : BackendEntry =>
          (issued? a).isSome = true → (issued? b).isSome = true → a.pid ≠ b.pid :=
        ⟨fun _ _ hab ha hb => (hab hb ha).symm⟩
      apply hs.single.forall he he' hne
      · exact Option.isSome_iff_exists.mpr ⟨s, hes⟩
      · exact Option.isSome_iff_exists.mpr ⟨t, het⟩
      · rw [← hdpid, ← hdpid', hpid]
    subst hee
    exact Option.some.inj (hes.symm.trans het)
  · exact absurd hhash (hapart hs' ht')
  · exact absurd hhash.symm (hapart ht' hs')
  · exact List.inj_on_of_nodup_map hw.hashes hs' ht' hhash

/-- However the calls of the auth service interleave: no token is used twice, and no two calls that
present the same raw token succeed; a use is made of the latest token of its user and purpose,
before the token's end, and changes only what belongs to them; and a call that makes no use of the
token it presents leaves the users and the sessions alone. -/
theorem tokens_singleUse (hsha : Function.Injective lib.sha256) (hw : TokenTable lib w₀)
    {cfg : (authSystem lib env).Config}
    (hr : (authSystem lib env).Reachable (fun w => w = w₀) cfg) :
    (cfg.hist.log.Pairwise fun a b => ∀ x ∈ use? a, ∀ y ∈ use? b, x.tokenId ≠ y.tokenId) ∧
      (∀ (p q : ℕ) (c c' : AuthCall) (a b : Option AuthResult) (token : Id),
        cfg.procs[p]? = some (c, Prog.ret a) → cfg.procs[q]? = some (c', Prog.ret b) →
        c.presented? = some token → c'.presented? = some token → p = q) ∧
      (∀ e l, e :: l <:+ cfg.hist.log → UseGood w₀.db l e) ∧
      (∀ e ∈ cfg.hist.log, ∀ u ∈ use? e, UseEffect e u) ∧
      ∀ (pid : ℕ) (c : AuthCall) (rest : Act (Option AuthResult)),
        cfg.procs[pid]? = some (c, rest) → c.presented?.isSome = true →
        ∀ e ∈ cfg.hist.own pid, use? e = none →
          e.post.db.users = e.pre.db.users ∧ e.post.db.refreshTokens = e.pre.db.refreshTokens := by
  obtain ⟨hs, hend⟩ := tokens_of_reachable hw hr
  obtain ⟨⟨w₁, -, hlinked⟩, -, hreplay⟩ := System.replays hr
  refine ⟨hs.once, ?_, hs.good, ?_, ?_⟩
  · intro p q c c' a b token hp hq hc hc'
    obtain ⟨t, ht, hhash, u, hu, hut⟩ := (hend p c a hp).of_presented hc
    obtain ⟨t', ht', hhash', u', hu', hut'⟩ := (hend q c' b hq).of_presented hc'
    obtain ⟨d, hd, hdt⟩ := List.mem_filterMap.mp ht
    obtain ⟨d', hd', hdt'⟩ := List.mem_filterMap.mp ht'
    obtain ⟨i, hi, hsame⟩ := hs.kept d (Hist.mem_own.mp hd).1 t hdt
    obtain ⟨i', hi', hsame'⟩ := hs.kept d' (Hist.mem_own.mp hd').1 t' hdt'
    have hii : i = i' := by
      apply hs.eq_of_hash hsha hw hi hi'
      obtain ⟨-, -, -, hh, -⟩ := hsame
      obtain ⟨-, -, -, hh', -⟩ := hsame'
      rw [← hh, ← hh', hhash, hhash']
    have huu : u.tokenId = u'.tokenId := by rw [hut, hut', hsame.1, hsame'.1, hii]
    -- Both calls used the same token, so it is the same step.
    obtain ⟨e, he, heu⟩ := List.mem_filterMap.mp hu
    obtain ⟨e', he', heu'⟩ := List.mem_filterMap.mp hu'
    obtain ⟨helog, hepid⟩ := Hist.mem_own.mp he
    obtain ⟨helog', hepid'⟩ := Hist.mem_own.mp he'
    have hee : e = e' := by
      by_contra hne
      have hsymm : Std.Symm fun a b : BackendEntry =>
          ∀ x ∈ use? a, ∀ y ∈ use? b, x.tokenId ≠ y.tokenId :=
        ⟨fun _ _ hab x hx y hy => (hab y hy x hx).symm⟩
      exact hs.once.forall helog helog' hne u heu u' heu' huu
    rw [← hepid, ← hepid', hee]
  · rintro ⟨pid, o, pre, did, seen, post⟩ he u hu
    exact useEffect (hlinked.answer he) hu
  · intro pid c rest hp hc e he hu
    have hops := (hreplay pid c rest hp).issues (issues_presented hc)
    have ho : e.op.UsesToken := hops e (List.mem_reverse.mpr he)
    have hu' : use? ⟨e.pid, e.op, e.pre, e.did, e.seen, e.post⟩ = none := hu
    exact unused_keeps ho (hlinked.answer (Hist.mem_own.mp he).1) hu'

/-- Without a token the table is in order. -/
theorem tokenTable_empty (lib : Lib) : TokenTable lib {} :=
  ⟨List.nodup_nil, List.nodup_nil, .nil, fun _ ht => (List.not_mem_nil ht).elim,
    fun _ ht => (List.not_mem_nil ht).elim⟩

/-- A user registers and asks for another link; two verifications with the new link overlap, and one
with the old link follows. -/
def overlappingVerifications : List (System.Action (authSystem .plain {})) :=
  List.flatten [[.spawn (.register "Ann" "ann@example.com" "password")], System.turns _ 0 {} 10,
    [.spawn (.resendVerification "ann@example.com")], System.turns _ 1 {} 6,
    [.spawn (.verifyEmailAddress 3), .spawn (.verifyEmailAddress 3)], System.turns _ 2 {} 2,
    System.turns _ 3 {} 2, System.turns _ 2 {} 1, System.turns _ 3 {} 1,
    [.spawn (.verifyEmailAddress 2)], System.turns _ 4 {} 2]

/-- Two overlapping verifications with one token, of which one is granted. -/
theorem tokens_singleUse_overlapping :
    ∃ cfg : (authSystem .plain {}).Config,
      (authSystem .plain {}).Reachable (fun w => w = {}) cfg ∧
        cfg.hist.log.filterMap use? = [⟨3, 0, .emailVerification⟩] ∧
        ∀ e l, e :: l <:+ cfg.hist.log → UseGood {} l e := by
  obtain ⟨cfg, hplay, huses⟩ : ∃ cfg,
      (authSystem .plain {}).play overlappingVerifications
        ((authSystem .plain {}).start {}) = some cfg ∧
        cfg.hist.log.filterMap use? = [⟨3, 0, .emailVerification⟩] :=
    System.exists_of_play (by decide +kernel)
  have hr : (authSystem .plain {}).Reachable (fun w => w = {}) cfg :=
    System.reachable_of_play (fun _ _ _ => trivial) (.start rfl) hplay
  obtain ⟨-, -, hgood, -⟩ :=
    tokens_singleUse Function.injective_id (tokenTable_empty .plain) hr
  exact ⟨cfg, hr, huses, hgood⟩

end Runs

end SplitBill
