import SplitBill.Auth.Calls

/-!
# What the auth repository writes

What each transaction of the auth repository makes of the tables when it commits.
-/

namespace SplitBill

open Interleave
open Prisma

/-- The refresh tokens, with the unrevoked ones among the selected tokens revoked. -/
def revokeWhere (p : RefreshToken → Bool) (revokedAt : Time) (rows : List RefreshToken) :
    List RefreshToken :=
  updateWhere (fun t => p t ∧ t.revokedAt = none) (fun t => { t with revokedAt := some revokedAt })
    rows

/-- The auth tokens, with the token consumed if it was not. -/
def consumeIn (id : Id) (consumedAt : Time) (rows : List AuthToken) : List AuthToken :=
  updateWhere (fun t => t.id = id ∧ t.consumedAt = none)
    (fun t => { t with consumedAt := some consumedAt }) rows

section Rows

variable {p : RefreshToken → Bool} {revokedAt : Time} {rows : List RefreshToken}

/-- A row is revoked, or stays as it was. -/
theorem mem_revokeWhere {t : RefreshToken} : t ∈ revokeWhere p revokedAt rows ↔
    ∃ x ∈ rows, (p x = true ∧ x.revokedAt = none ∧ t = { x with revokedAt := some revokedAt }) ∨
      (¬(p x = true ∧ x.revokedAt = none) ∧ t = x) := by
  unfold revokeWhere
  rw [mem_updateWhere]
  simp only [decide_eq_true_eq, decide_eq_false_iff_not, and_assoc, @eq_comm _ _ t]

/-- Revoking changes no other column. -/
theorem map_revokeWhere {β : Type} {g : RefreshToken → β}
    (h : ∀ x : RefreshToken, g { x with revokedAt := some revokedAt } = g x) :
    (revokeWhere p revokedAt rows).map g = rows.map g :=
  map_updateWhere h rows

/-- If no selected token is unrevoked, nothing is revoked. -/
theorem revokeWhere_eq_self (h : ∀ x ∈ rows, p x = true → x.revokedAt ≠ none) :
    revokeWhere p revokedAt rows = rows := by
  apply updateWhere_eq_self
  intro x hx
  apply decide_eq_false
  exact fun hsel => h x hx hsel.1 hsel.2

/-- An unrevoked token was unrevoked before, and is not among the selected ones. -/
theorem live_of_mem_revokeWhere {t : RefreshToken} (h : t ∈ revokeWhere p revokedAt rows)
    (hlive : t.revokedAt = none) : t ∈ rows ∧ p t = false := by
  obtain ⟨x, hx, ⟨-, -, rfl⟩ | ⟨hsel, rfl⟩⟩ := mem_revokeWhere.mp h
  · cases hlive
  · refine ⟨hx, ?_⟩
    cases hp : p t with
    | false => rfl
    | true => exact absurd ⟨hp, hlive⟩ hsel

variable {id : Id} {consumedAt : Time} {tokens : List AuthToken}

/-- A row is consumed, or stays as it was. -/
theorem mem_consumeIn {t : AuthToken} : t ∈ consumeIn id consumedAt tokens ↔
    ∃ x ∈ tokens, (x.id = id ∧ x.consumedAt = none ∧ t = { x with consumedAt := some consumedAt }) ∨
      (¬(x.id = id ∧ x.consumedAt = none) ∧ t = x) := by
  unfold consumeIn
  rw [mem_updateWhere]
  simp only [decide_eq_true_eq, decide_eq_false_iff_not, and_assoc, @eq_comm _ _ t]

/-- Consuming changes no other column. -/
theorem map_consumeIn {β : Type} {g : AuthToken → β}
    (h : ∀ x : AuthToken, g { x with consumedAt := some consumedAt } = g x) :
    (consumeIn id consumedAt tokens).map g = tokens.map g :=
  map_updateWhere h tokens

/-- If the token is not there or was consumed before, nothing is consumed. -/
theorem consumeIn_eq_self (h : ∀ x ∈ tokens, x.id = id → x.consumedAt ≠ none) :
    consumeIn id consumedAt tokens = tokens := by
  apply updateWhere_eq_self
  intro x hx
  apply decide_eq_false
  exact fun hsel => h x hx hsel.1 hsel.2

end Rows

/-! ## Statements -/

section Statements

variable {now : Time} {d d' : Db}

/-- A user that is created has a new address and the next id. -/
theorem userCreate_eq_ok {name email passwordHash : String} {u : User}
    (h : userCreate name email passwordHash d = .ok (u, d')) :
    (∀ x ∈ d.users, x.email ≠ email) ∧ u = ⟨d.nextId, name, email, some passwordHash, none⟩ ∧
      d' = { d with users := u :: d.users, nextId := d.nextId + 1 } := by
  simp only [userCreate, ite_error_eq_ok, Except.ok.injEq, Prod.mk.injEq, List.any_eq_true,
    decide_eq_true_eq, not_exists, not_and] at h
  obtain ⟨hemail, rfl, rfl⟩ := h
  exact ⟨hemail, rfl, rfl⟩

/-- An update changes the row of one user. -/
theorem userUpdate_eq_ok {id : Id} {data : UserData} {u : User}
    (h : userUpdate id data d = .ok (u, d')) :
    ∃ old, d.user? id = some old ∧ u = data.applyTo old ∧
      d' = { d with users := updateWhere (·.id = id) data.applyTo d.users } := by
  unfold userUpdate at h
  cases hold : d.user? id with
  | none => simp [hold] at h
  | some old =>
    simp only [hold, ite_error_eq_ok, Except.ok.injEq, Prod.mk.injEq] at h
    obtain ⟨-, rfl, rfl⟩ := h
    exact ⟨old, rfl, rfl, rfl⟩

/-- A refresh token that is created has a new digest and the next id. -/
theorem refreshTokenCreate_eq_ok {data : CreateRefreshTokenData} {t : RefreshToken}
    (h : refreshTokenCreate now data d = .ok (t, d')) :
    (∀ x ∈ d.refreshTokens, x.tokenHash ≠ data.tokenHash) ∧
      t = ⟨d.nextId, data.userId, data.tokenHash, data.expiresAt, none, now⟩ ∧
      d' = { d with refreshTokens := t :: d.refreshTokens, nextId := d.nextId + 1 } := by
  simp only [refreshTokenCreate, ite_error_eq_ok, Except.ok.injEq, Prod.mk.injEq, List.any_eq_true,
    decide_eq_true_eq, not_exists, not_and] at h
  obtain ⟨hhash, -, rfl, rfl⟩ := h
  exact ⟨hhash, rfl, rfl⟩

/-- An auth token that is created has a new digest, and is the only one of its user and purpose. -/
theorem authTokenCreate_eq_ok {data : CreateAuthTokenData} {t : AuthToken}
    (h : authTokenCreate now data d = .ok (t, d')) :
    (∀ x ∈ d.authTokens, x.tokenHash ≠ data.tokenHash ∧
        ¬(x.userId = data.userId ∧ x.purpose = data.purpose)) ∧
      t = ⟨d.nextId, data.userId, data.purpose, data.tokenHash, data.expiresAt, none, now⟩ ∧
      d' = { d with authTokens := t :: d.authTokens, nextId := d.nextId + 1 } := by
  simp only [authTokenCreate, ite_error_eq_ok, Except.ok.injEq, Prod.mk.injEq, List.any_eq_true,
    decide_eq_true_eq, not_exists, not_and, not_or] at h
  obtain ⟨hnew, -, rfl, rfl⟩ := h
  exact ⟨fun x hx => ⟨(hnew x hx).1, fun hsame => (hnew x hx).2 hsame.1 hsame.2⟩, rfl, rfl⟩

end Statements

/-! ## Transactions -/

section Transactions

variable {now : Time} {d d' : Db}

/-- A rotation of an unrevoked token revokes it and creates its replacement; of any other token it
does nothing. -/
theorem rotateRefreshToken_eq_ok {oldId : Id} {data : CreateRefreshTokenData}
    {r : Option RefreshToken} (h : (rotateRefreshToken now oldId data).eval d = .ok (r, d')) :
    (r = none ∧ d' = d) ∨
      ∃ token old, r = some token ∧ old ∈ d.refreshTokens ∧ old.id = oldId ∧ old.revokedAt = none ∧
        token = ⟨d.nextId, data.userId, data.tokenHash, data.expiresAt, none, now⟩ ∧
        (∀ x ∈ d.refreshTokens, x.tokenHash ≠ data.tokenHash) ∧
        d' = { d with
          refreshTokens := token :: revokeWhere (·.id = oldId) now d.refreshTokens
          nextId := d.nextId + 1 } := by
  obtain ⟨count, d₁, hrevoke, hrest⟩ := Tx.eval_bind_eq_ok.mp h
  obtain ⟨rfl, rfl⟩ := Prod.mk.inj (Except.ok.inj hrevoke)
  by_cases hzero : (d.refreshTokens.countP fun t =>
      decide (decide (t.id = oldId) = true ∧ t.revokedAt = none)) = 0
  · have hnone : ∀ x ∈ d.refreshTokens, decide (x.id = oldId) = true → x.revokedAt ≠ none := by
      intro x hx hid hlive
      exact List.countP_eq_zero.mp hzero x hx (decide_eq_true ⟨hid, hlive⟩)
    have hsame : revokeWhere (·.id = oldId) now d.refreshTokens = d.refreshTokens :=
      revokeWhere_eq_self hnone
    rw [if_pos hzero] at hrest
    obtain ⟨rfl, rfl⟩ := Prod.mk.inj (Except.ok.inj hrest)
    refine .inl ⟨rfl, ?_⟩
    show { d with refreshTokens := revokeWhere (·.id = oldId) now d.refreshTokens } = d
    rw [hsame]
  · rw [if_neg hzero] at hrest
    obtain ⟨token, d₂, hcreate, hpure⟩ := Tx.eval_bind_eq_ok.mp hrest
    obtain ⟨hhash, htoken, rfl⟩ := refreshTokenCreate_eq_ok hcreate
    obtain ⟨rfl, rfl⟩ := Prod.mk.inj (Except.ok.inj hpure)
    obtain ⟨old, hold, hsel⟩ := List.countP_pos_iff.mp (Nat.pos_of_ne_zero hzero)
    obtain ⟨hid, hlive⟩ := of_decide_eq_true hsel
    refine .inr ⟨token, old, rfl, hold, of_decide_eq_true hid, hlive, htoken, fun x hx => ?_, rfl⟩
    -- Revoking leaves the digests.
    have hmem : x.tokenHash ∈ (revokeWhere (·.id = oldId) now d.refreshTokens).map
      (·.tokenHash) := by
      rw [map_revokeWhere fun _ => rfl]
      exact List.mem_map_of_mem hx
    obtain ⟨y, hy, hxy⟩ := List.mem_map.mp hmem
    rw [← hxy]
    exact hhash y hy

/-- A registration creates the user, a session and a verification token. -/
theorem createUserWithAuthData_eq_ok {data : CreateUserWithAuthData} {r : SafeUser}
    (h : (createUserWithAuthData now data).eval d = .ok (r, d')) :
    ∃ user session token, r = user.safe ∧
      user = ⟨d.nextId, data.name, data.email, some data.passwordHash, none⟩ ∧
      session = ⟨d.nextId + 1, d.nextId, data.refreshTokenHash, data.refreshTokenExpiresAt, none,
        now⟩ ∧
      token = ⟨d.nextId + 2, d.nextId, .emailVerification, data.verificationTokenHash,
        data.verificationTokenExpiresAt, none, now⟩ ∧
      (∀ x ∈ d.refreshTokens, x.tokenHash ≠ data.refreshTokenHash) ∧
      (∀ x ∈ d.authTokens, x.tokenHash ≠ data.verificationTokenHash ∧
        ¬(x.userId = d.nextId ∧ x.purpose = .emailVerification)) ∧
      d' = { d with
        users := user :: d.users
        refreshTokens := session :: d.refreshTokens
        authTokens := token :: d.authTokens
        nextId := d.nextId + 3 } := by
  -- The three rows of the transaction, one after the other.
  obtain ⟨user, d₁, huser, h⟩ := Tx.eval_bind_eq_ok.mp h
  obtain ⟨session, d₂, hsession, h⟩ := Tx.eval_bind_eq_ok.mp h
  obtain ⟨token, d₃, htoken, h⟩ := Tx.eval_bind_eq_ok.mp h
  obtain ⟨-, rfl, rfl⟩ := userCreate_eq_ok huser
  obtain ⟨hhash, rfl, rfl⟩ := refreshTokenCreate_eq_ok hsession
  obtain ⟨hnew, rfl, rfl⟩ := authTokenCreate_eq_ok htoken
  obtain ⟨rfl, rfl⟩ := Prod.mk.inj (Except.ok.inj h)
  exact ⟨_, _, _, rfl, rfl, rfl, rfl, hhash, hnew, rfl⟩

/-- A new auth token takes the place of the user's previous one of the same purpose. -/
theorem createAuthToken_eq_ok {data : CreateAuthTokenData} {r : AuthToken}
    (h : (createAuthToken now data).eval d = .ok (r, d')) :
    r = ⟨d.nextId, data.userId, data.purpose, data.tokenHash, data.expiresAt, none, now⟩ ∧
      (∀ x ∈ d.authTokens, ¬(x.userId = data.userId ∧ x.purpose = data.purpose) →
        x.tokenHash ≠ data.tokenHash) ∧
      d' = { d with
        authTokens := r :: d.authTokens.filter fun t =>
          ¬(t.userId = data.userId ∧ t.purpose = data.purpose)
        nextId := d.nextId + 1 } := by
  obtain ⟨u, d₁, hdelete, h⟩ := Tx.eval_bind_eq_ok.mp h
  obtain ⟨-, rfl⟩ := Prod.mk.inj (Except.ok.inj hdelete)
  obtain ⟨hnew, hr, rfl⟩ := authTokenCreate_eq_ok h
  refine ⟨hr, fun x hx hother => ?_, rfl⟩
  exact (hnew x (List.mem_filter.mpr ⟨hx, decide_eq_true hother⟩)).1

/-- A token is consumed that is there and was not consumed before, or nothing changes. -/
theorem authTokenConsume_cases {id : Id} {consumedAt : Time} {count : ℕ}
    (h : authTokenConsume id consumedAt d = .ok (count, d')) :
    (count = 0 ∧ d' = d) ∨ count ≠ 0 ∧ (∃ t ∈ d.authTokens, t.id = id ∧ t.consumedAt = none) ∧
      d' = { d with authTokens := consumeIn id consumedAt d.authTokens } := by
  obtain ⟨hcount, rfl⟩ := Prod.mk.inj (Except.ok.inj h)
  by_cases hzero : count = 0
  · have hnone : ∀ x ∈ d.authTokens, x.id = id → x.consumedAt ≠ none := by
      intro x hx hid hlive
      rw [hzero] at hcount
      exact List.countP_eq_zero.mp hcount x hx (decide_eq_true ⟨hid, hlive⟩)
    refine .inl ⟨hzero, ?_⟩
    show { d with authTokens := consumeIn id consumedAt d.authTokens } = d
    rw [consumeIn_eq_self hnone]
  · rw [← hcount] at hzero
    obtain ⟨t, ht, hsel⟩ := List.countP_pos_iff.mp (Nat.pos_of_ne_zero hzero)
    exact .inr ⟨hcount ▸ hzero, ⟨t, ht, of_decide_eq_true hsel⟩, rfl⟩

/-- A verification consumes its token and marks the user, or changes nothing. -/
theorem consumeVerification_eq_ok {tokenId userId : Id} {consumedAt : Time} {r : Option SafeUser}
    (h : (consumeVerificationTokenAndVerifyUser tokenId userId consumedAt).eval d = .ok (r, d')) :
    (r = none ∧ d' = d) ∨ ∃ u, r = some u ∧
      (∃ t ∈ d.authTokens, t.id = tokenId ∧ t.consumedAt = none) ∧ (d.user? userId).isSome ∧
      d' = { d with
        authTokens := consumeIn tokenId consumedAt d.authTokens
        users := updateWhere (·.id = userId)
          (UserData.applyTo { emailVerifiedAt := some (some consumedAt) }) d.users } := by
  obtain ⟨count, d₁, hconsume, hrest⟩ := Tx.eval_bind_eq_ok.mp h
  rcases authTokenConsume_cases hconsume with ⟨hzero, rfl⟩ | ⟨hpos, ht, rfl⟩
  · rw [if_pos hzero] at hrest
    obtain ⟨rfl, rfl⟩ := Prod.mk.inj (Except.ok.inj hrest)
    exact .inl ⟨rfl, rfl⟩
  · rw [if_neg hpos] at hrest
    obtain ⟨u, d₂, hupdate, hpure⟩ := Tx.eval_bind_eq_ok.mp hrest
    obtain ⟨old, hold, -, rfl⟩ := userUpdate_eq_ok hupdate
    obtain ⟨rfl, rfl⟩ := Prod.mk.inj (Except.ok.inj hpure)
    refine .inr ⟨_, rfl, ht, ?_, rfl⟩
    exact Option.isSome_iff_exists.mpr ⟨old, hold⟩

/-- A password reset consumes its token, replaces the password and revokes the sessions of the user,
or leaves users and sessions alone. -/
theorem consumePasswordReset_eq_ok {tokenId userId : Id} {passwordHash : String} {resetAt : Time}
    {r : Option SafeUser}
    (h : (consumePasswordResetTokenAndUpdatePassword tokenId userId passwordHash resetAt).eval d =
      .ok (r, d')) :
    (r = none ∧ ∃ tokens, (tokens = d.authTokens ∨ tokens = consumeIn tokenId resetAt d.authTokens) ∧
        d' = { d with authTokens := tokens }) ∨
      ∃ u, r = some u ∧ (∃ t ∈ d.authTokens, t.id = tokenId ∧ t.consumedAt = none) ∧
        d' = { d with
          authTokens := consumeIn tokenId resetAt d.authTokens
          users := updateWhere (·.id = userId)
            (fun u => { u with passwordHash := some passwordHash })
            d.users
          refreshTokens := revokeWhere (·.userId = userId) resetAt d.refreshTokens } := by
  obtain ⟨count, d₁, hconsume, hrest⟩ := Tx.eval_bind_eq_ok.mp h
  rcases authTokenConsume_cases hconsume with ⟨hzero, rfl⟩ | ⟨hpos, ht, rfl⟩
  · rw [if_pos hzero] at hrest
    obtain ⟨rfl, rfl⟩ := Prod.mk.inj (Except.ok.inj hrest)
    exact .inl ⟨rfl, d₁.authTokens, .inl rfl, rfl⟩
  · rw [if_neg hpos] at hrest
    obtain ⟨updated, d₂, hupdate, hrest⟩ := Tx.eval_bind_eq_ok.mp hrest
    obtain ⟨hcount, rfl⟩ := Prod.mk.inj (Except.ok.inj hupdate)
    by_cases hzero : updated = 0
    · -- There is no such user: the token stays consumed, and that is all.
      rw [if_pos hzero] at hrest
      obtain ⟨rfl, rfl⟩ := Prod.mk.inj (Except.ok.inj hrest)
      refine .inl ⟨rfl, consumeIn tokenId resetAt d.authTokens, .inr rfl, ?_⟩
      have hnone : ∀ u ∈ d.users, decide (u.id = userId) = false := by
        intro u hu
        rw [hzero] at hcount
        exact Bool.eq_false_iff.mpr (List.countP_eq_zero.mp hcount u hu)
      show { d with
        authTokens := consumeIn tokenId resetAt d.authTokens
        users := updateWhere (·.id = userId) (fun u => { u with passwordHash := some passwordHash })
          d.users } = _
      rw [updateWhere_eq_self hnone]
    · rw [if_neg hzero] at hrest
      obtain ⟨revoked, d₃, hrevoke, hrest⟩ := Tx.eval_bind_eq_ok.mp hrest
      obtain ⟨-, rfl⟩ := Prod.mk.inj (Except.ok.inj hrevoke)
      obtain ⟨user, d₄, hfind, hpure⟩ := Tx.eval_bind_eq_ok.mp hrest
      obtain ⟨rfl, rfl⟩ := Prod.mk.inj (Except.ok.inj hpure)
      rw [Tx.eval_statement] at hfind
      split at hfind
      · obtain ⟨rfl, rfl⟩ := Prod.mk.inj (Except.ok.inj hfind)
        exact .inr ⟨_, rfl, ht, rfl⟩
      · cases hfind

end Transactions

/-! ## Methods that are a single statement -/

section Methods

variable {now : Time} {d d' : Db}

/-- What `update` makes of the tables. -/
theorem update_makes {id : Id} {data : UserData} {r : SafeUser}
    (h : (AuthOp.update id data).access.Makes now d r d') :
    d' = { d with users := updateWhere (·.id = id) data.applyTo d.users } := by
  obtain ⟨c, heval⟩ := h
  obtain ⟨user, d₁, hupdate, hpure⟩ := Tx.eval_bind_eq_ok.mp heval
  obtain ⟨old, -, -, rfl⟩ := userUpdate_eq_ok hupdate
  exact (Prod.mk.inj (Except.ok.inj hpure)).2.symm

/-- What `createRefreshToken` makes of the tables. -/
theorem createRefreshToken_makes {data : CreateRefreshTokenData} {r : Unit}
    (h : (AuthOp.createRefreshToken data).access.Makes now d r d') :
    (∀ x ∈ d.refreshTokens, x.tokenHash ≠ data.tokenHash) ∧
      d' = { d with
        refreshTokens :=
          ⟨d.nextId, data.userId, data.tokenHash, data.expiresAt, none, now⟩ :: d.refreshTokens
        nextId := d.nextId + 1 } := by
  obtain ⟨c, heval⟩ := h
  obtain ⟨token, d₁, hcreate, hpure⟩ := Tx.eval_bind_eq_ok.mp heval
  obtain ⟨hhash, rfl, rfl⟩ := refreshTokenCreate_eq_ok hcreate
  exact ⟨hhash, (Prod.mk.inj (Except.ok.inj hpure)).2.symm⟩

/-- What `revokeRefreshTokenById` makes of the tables. -/
theorem revokeRefreshTokenById_makes {id : Id} {r : ℕ}
    (h : (AuthOp.revokeRefreshTokenById id).access.Makes now d r d') :
    d' = { d with refreshTokens := revokeWhere (·.id = id) now d.refreshTokens } := by
  obtain ⟨c, heval⟩ := h
  exact (Prod.mk.inj (Except.ok.inj heval)).2.symm

end Methods

end SplitBill
