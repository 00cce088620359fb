import SplitBill.Alone
import SplitBill.Auth.Writes

/-!
# The address that a marker vouches for

`emailVerifiedAt` is set when a verification link is followed, and cleared when the address changes.
A link that was mailed before the change is still good after it, so following it marks an address to
which it never went. As long as nobody does, every marker belongs to the current address.
-/

namespace SplitBill

open Interleave
open Prisma

variable {lib : Lib} {env : Env}

/-- The links that the token opens were mailed to the address, up to case. -/
def MailedTo (lib : Lib) (outbox : List Mail) (t : AuthToken) (email : String) : Prop :=
  ∀ m ∈ outbox, m.operation = .verification → lib.sha256 m.token = t.tokenHash →
    lib.toLowerCase m.recipient = lib.toLowerCase email

/-- The consumed verification token that set the marker of the user. -/
def Marks (t : AuthToken) (u : User) : Prop :=
  t.userId = u.id ∧ t.purpose = .emailVerification ∧ t.consumedAt ≠ none ∧
    t.consumedAt = u.emailVerifiedAt

/-- Every marker was set by a token that was mailed to the current address. -/
def MarkersBelong (lib : Lib) (w : World) : Prop :=
  ∀ u ∈ w.db.users, u.emailVerifiedAt ≠ none → (∃ t ∈ w.db.authTokens, Marks t u) ∧
    ∀ t ∈ w.db.authTokens, Marks t u → MailedTo lib w.outbox t u.email

/-- The calls on addresses and their verification. -/
def AuthCall.OnAddress : AuthCall → Prop
  | register _ _ _ => True
  | resendVerification _ => True
  | updateCurrentUser _ _ _ => True
  | verifyEmailAddress _ => True
  | _ => False

/-- If the call follows a link that is still good, the link was mailed to the current address of its
user. -/
def AuthCall.FollowsCurrent (lib : Lib) (w : World) : AuthCall → Prop
  | verifyEmailAddress token => ∀ t ∈ w.db.authTokens, t.tokenHash = lib.sha256 token →
    t.purpose = .emailVerification → t.consumedAt = none → w.now < t.expiresAt →
      ∀ u ∈ w.db.users, u.id = t.userId → MailedTo lib w.outbox t u.email
  | _ => True

/-- Nobody has registered yet. -/
def Unregistered (w : World) : Prop := w.db.users = [] ∧ w.db.authTokens = []

/-- A new profile keeps the ids. -/
theorem map_id_applyTo {data : UserData} {p : User → Bool} {rows : List User} :
    (updateWhere p data.applyTo rows).map (·.id) = rows.map (·.id) := by
  apply map_updateWhere
  exact fun _ => rfl

/-! ## The invariant -/

/-- What the calls keep: users and tokens have different ids, all of them drawn, no two tokens are
of the same user and purpose, and every marker belongs to the current address. -/
structure Verified (lib : Lib) (w : World) : Prop where
  users : (w.db.users.map (·.id)).Nodup
  userBound : ∀ u ∈ w.db.users, u.id < w.db.nextId
  tokens : (w.db.authTokens.map (·.id)).Nodup
  tokenBound : ∀ t ∈ w.db.authTokens, t.id < w.db.nextId
  owners : w.db.authTokens.Pairwise fun s t => ¬(s.userId = t.userId ∧ s.purpose = t.purpose)
  markers : MarkersBelong lib w

namespace Verified

variable {w w' : World}

/-- While the tables stay, only the mail matters. -/
theorem of_markers (h : Verified lib w) (hdb : w'.db = w.db) (hmarkers : MarkersBelong lib w') :
    Verified lib w' := by
  obtain ⟨husers, hbound, htokens, htbound, howners, -⟩ := h
  rw [← hdb] at husers hbound htokens htbound howners
  exact ⟨husers, hbound, htokens, htbound, howners, hmarkers⟩

/-- What the invariant says of tables and mail. -/
theorem congr (h : Verified lib w) (hdb : w'.db = w.db) (houtbox : w'.outbox = w.outbox) :
    Verified lib w' := by
  refine h.of_markers hdb ?_
  unfold MarkersBelong
  rw [hdb, houtbox]
  exact h.markers

/-- As long as nothing happens the markers are right. -/
theorem idle (h : Verified lib w) (hw : w.Idle w') : Verified lib w' := h.congr hw.db hw.outbox

/-- Users with the same id are the same. -/
theorem eq_of_id (h : Verified lib w) {u v : User} (hu : u ∈ w.db.users) (hv : v ∈ w.db.users)
    (hid : u.id = v.id) : u = v :=
  List.inj_on_of_nodup_map h.users hu hv hid

/-- A mail with a link that opens no consumed token says nothing of a marker. -/
theorem mail (h : Verified lib w) {m : Mail} (hdb : w'.db = w.db)
    (houtbox : w'.outbox = m :: w.outbox)
    (hunused : ∀ t ∈ w.db.authTokens, t.tokenHash = lib.sha256 m.token → t.consumedAt = none) :
    Verified lib w' := by
  refine h.of_markers hdb fun u hu hmarked => ?_
  rw [hdb] at hu ⊢
  obtain ⟨hexists, hmailed⟩ := h.markers u hu hmarked
  refine ⟨hexists, fun t ht hmarks x hx hop hhash => ?_⟩
  rw [houtbox] at hx
  rcases List.mem_cons.mp hx with rfl | hx
  · -- The token of the mail is not consumed, so it set no marker.
    obtain ⟨-, -, hconsumed, -⟩ := hmarks
    exact absurd (hunused t ht hhash.symm) hconsumed
  · exact hmailed t ht hmarks x hx hop hhash

/-- A registration adds a user without a marker, and a token of that user. -/
theorem register (h : Verified lib w) {data : CreateUserWithAuthData} {now : Time} {r : SafeUser}
    (heval : (createUserWithAuthData now data).eval w.db = .ok (r, w'.db))
    (houtbox : w'.outbox = w.outbox) : Verified lib w' ∧
      ∀ t ∈ w'.db.authTokens, t.tokenHash = data.verificationTokenHash → t.consumedAt = none := by
  obtain ⟨user, session, token, -, rfl, -, rfl, -, hnew, hdb⟩ := createUserWithAuthData_eq_ok heval
  have hlt : ∀ n, n < w.db.nextId → n < w.db.nextId + 3 := fun n hn => Nat.lt_add_right 3 hn
  constructor
  · constructor <;> try rw [hdb]
    case users =>
      exact nodup_map_cons (fun u hu => Nat.ne_of_lt (h.userBound u hu)) h.users
    case userBound =>
      exact List.forall_mem_cons.mpr ⟨Nat.lt_add_of_pos_right (by decide),
        fun u hu => hlt _ (h.userBound u hu)⟩
    case tokens =>
      refine nodup_map_cons (fun t ht => ?_) h.tokens
      have htlt : t.id < w.db.nextId + 2 := Nat.lt_add_right 2 (h.tokenBound t ht)
      exact Nat.ne_of_lt htlt
    case tokenBound =>
      exact List.forall_mem_cons.mpr ⟨Nat.add_lt_add_left (by decide) _,
        fun t ht => hlt _ (h.tokenBound t ht)⟩
    case owners =>
      apply List.pairwise_cons.mpr
      exact ⟨fun t ht hsame => (hnew t ht).2 ⟨hsame.1.symm, hsame.2.symm⟩, h.owners⟩
    case markers =>
      intro u hu hmarked
      rw [hdb] at hu ⊢
      rcases List.mem_cons.mp hu with rfl | hu
      · exact absurd rfl hmarked
      · obtain ⟨⟨t, ht, hmarks⟩, hmailed⟩ := h.markers u hu hmarked
        refine ⟨⟨t, List.mem_cons_of_mem _ ht, hmarks⟩, fun s hs hsmarks => ?_⟩
        rw [houtbox]
        rcases List.mem_cons.mp hs with rfl | hs
        · -- The new token is not consumed, so it sets no marker.
          obtain ⟨-, -, hconsumed, -⟩ := hsmarks
          exact absurd rfl hconsumed
        · exact hmailed s hs hsmarks
  · intro t ht hhash
    rw [hdb] at ht
    rcases List.mem_cons.mp ht with rfl | ht
    · rfl
    · exact absurd hhash (hnew t ht).1

/-- A new link for a user without a marker takes the place of the previous one. -/
theorem resend (h : Verified lib w) {u : User} (hu : u ∈ w.db.users)
    (hunmarked : u.emailVerifiedAt = none)
    {tokenHash : Id} {expiresAt now : Time} {r : AuthToken}
    (heval : (createAuthToken now ⟨u.id, .emailVerification, tokenHash, expiresAt⟩).eval w.db =
      .ok (r, w'.db)) (houtbox : w'.outbox = w.outbox) : Verified lib w' ∧
      ∀ t ∈ w'.db.authTokens, t.tokenHash = tokenHash → t.consumedAt = none := by
  obtain ⟨rfl, hnew, hdb⟩ := createAuthToken_eq_ok heval
  have hfilter : ∀ t ∈ w.db.authTokens.filter (fun t =>
      ¬(t.userId = u.id ∧ t.purpose = .emailVerification)), t ∈ w.db.authTokens ∧
        ¬(t.userId = u.id ∧ t.purpose = .emailVerification) := by
    intro t ht
    obtain ⟨hmem, hother⟩ := List.mem_filter.mp ht
    exact ⟨hmem, of_decide_eq_true hother⟩
  constructor
  · constructor <;> try rw [hdb]
    case users => exact h.users
    case userBound => exact fun v hv => Nat.lt_succ_of_lt (h.userBound v hv)
    case tokens =>
      refine nodup_map_cons (fun t ht => ?_) (h.tokens.sublist (List.filter_sublist.map _))
      exact Nat.ne_of_lt (h.tokenBound t (hfilter t ht).1)
    case tokenBound =>
      exact List.forall_mem_cons.mpr ⟨Nat.lt_succ_self _,
        fun t ht => Nat.lt_succ_of_lt (h.tokenBound t (hfilter t ht).1)⟩
    case owners =>
      apply List.pairwise_cons.mpr
      refine ⟨fun t ht hsame => (hfilter t ht).2 ⟨hsame.1.symm, hsame.2.symm⟩, ?_⟩
      exact h.owners.sublist List.filter_sublist
    case markers =>
      intro v hv hmarked
      rw [hdb] at hv ⊢
      obtain ⟨⟨t, ht, hmarks⟩, hmailed⟩ := h.markers v hv hmarked
      -- A user with a marker is another one, so the replaced token is not theirs.
      have hne : v.id ≠ u.id := by
        intro hid
        rw [h.eq_of_id hv hu hid] at hmarked
        exact hmarked hunmarked
      constructor
      · refine ⟨t, List.mem_cons_of_mem _ (List.mem_filter.mpr ⟨ht, ?_⟩), hmarks⟩
        apply decide_eq_true
        exact fun hsame => hne (hmarks.1.symm.trans hsame.1)
      · intro s hs hsmarks
        rw [houtbox]
        rcases List.mem_cons.mp hs with rfl | hs
        · exact absurd hsmarks.1.symm hne
        · exact hmailed s (hfilter s hs).1 hsmarks
  · intro t ht hhash
    rw [hdb] at ht
    rcases List.mem_cons.mp ht with rfl | ht
    · rfl
    · obtain ⟨hmem, hother⟩ := hfilter t ht
      exact absurd hhash (hnew t hmem hother)

/-- A new profile whose marker is cleared if the address changes by more than case. -/
theorem update (h : Verified lib w) {userId : Id} {u : User} (hu : w.db.user? userId = some u)
    {name email : Option String} {r : User}
    (heval : userUpdate userId
      { name, email,
        emailVerifiedAt :=
          if (email.any fun address => lib.toLowerCase address ≠ lib.toLowerCase u.email) = true then
            some none
          else none } w.db = .ok (r, w'.db)) (houtbox : w'.outbox = w.outbox) : Verified lib w' := by
  obtain ⟨old, hold, -, hdb⟩ := userUpdate_eq_ok heval
  obtain rfl : u = old := Option.some.inj (hu.symm.trans hold)
  have humem : u ∈ w.db.users := List.mem_of_find?_eq_some hu
  have huid : u.id = userId := by simpa using List.find?_some hu
  constructor <;> try rw [hdb]
  case users =>
    rw [map_id_applyTo]
    exact h.users
  case userBound => exact forall_mem_of_map_eq (· < w.db.nextId) map_id_applyTo h.userBound
  case tokens => exact h.tokens
  case tokenBound => exact h.tokenBound
  case owners => exact h.owners
  case markers =>
    intro v hv hmarked
    rw [hdb] at hv ⊢
    rw [houtbox]
    obtain ⟨x, hx, ⟨hsel, rfl⟩ | ⟨-, rfl⟩⟩ := mem_updateWhere.mp hv
    · obtain rfl : x = u := h.eq_of_id hx humem (by rw [huid]; exact of_decide_eq_true hsel)
      -- The marker is still there, so the new address is the old one up to case.
      by_cases hchanged : (email.any fun address =>
        lib.toLowerCase address ≠ lib.toLowerCase x.email) = true
      · rw [if_pos hchanged] at hmarked
        exact absurd rfl hmarked
      · rw [if_neg hchanged] at hmarked ⊢
        obtain ⟨hexists, hmailed⟩ := h.markers x humem hmarked
        have hsame : lib.toLowerCase (email.getD x.email) = lib.toLowerCase x.email := by
          cases email with
          | none => rfl
          | some address => simpa using hchanged
        refine ⟨hexists, fun t ht hmarks m hm hop hhash => ?_⟩
        exact (hmailed t ht hmarks m hm hop hhash).trans hsame.symm
    · exact h.markers x hx hmarked

section Consume

variable {t x : AuthToken} {now : Time}

/-- A user has one token of a purpose. -/
theorem eq_of_owner (h : Verified lib w) (ht : t ∈ w.db.authTokens) (hx : x ∈ w.db.authTokens)
    (huser : x.userId = t.userId) (hpurpose : x.purpose = t.purpose) : x = t := by
  by_contra hne
  have hsymm : Std.Symm fun a b : AuthToken => ¬(a.userId = b.userId ∧ a.purpose = b.purpose) :=
    ⟨fun _ _ hab hba => hab ⟨hba.1.symm, hba.2.symm⟩⟩
  exact h.owners.forall hx ht hne ⟨huser, hpurpose⟩

/-- The tokens of another user stay as they were. -/
theorem mem_consumeIn_iff (h : Verified lib w) (ht : t ∈ w.db.authTokens)
    (hother : x.userId ≠ t.userId) :
    x ∈ consumeIn t.id now w.db.authTokens ↔ x ∈ w.db.authTokens := by
  rw [mem_consumeIn]
  constructor
  · rintro ⟨y, hy, ⟨hyid, -, rfl⟩ | ⟨-, rfl⟩⟩
    · obtain rfl : y = t := List.inj_on_of_nodup_map h.tokens hy ht hyid
      exact absurd rfl hother
    · exact hy
  · intro hx
    refine ⟨x, hx, .inr ⟨?_, rfl⟩⟩
    rintro ⟨hxid, -⟩
    obtain rfl : x = t := List.inj_on_of_nodup_map h.tokens hx ht hxid
    exact hother rfl

/-- A link that was mailed to the current address sets a marker that belongs to it. -/
theorem consume (h : Verified lib w) (ht : t ∈ w.db.authTokens)
    (hpurpose : t.purpose = .emailVerification)
    (hcurrent : ∀ u ∈ w.db.users, u.id = t.userId → MailedTo lib w.outbox t u.email)
    {r : Option SafeUser}
    (heval : (consumeVerificationTokenAndVerifyUser t.id t.userId now).eval w.db = .ok (r, w'.db))
    (houtbox : w'.outbox = w.outbox) : Verified lib w' := by
  rcases consumeVerification_eq_ok heval with ⟨-, hdb⟩ | ⟨user, -, ⟨s, hs, hsid, hslive⟩, -, hdb⟩
  · exact h.congr hdb houtbox
  obtain rfl : s = t := List.inj_on_of_nodup_map h.tokens hs ht hsid
  have hids : (consumeIn s.id now w.db.authTokens).map (·.id) = w.db.authTokens.map (·.id) :=
    map_consumeIn fun _ => rfl
  constructor <;> try rw [hdb]
  case users =>
    rw [map_id_applyTo]
    exact h.users
  case userBound => exact forall_mem_of_map_eq (· < w.db.nextId) map_id_applyTo h.userBound
  case tokens =>
    rw [hids]
    exact h.tokens
  case tokenBound => exact forall_mem_of_map_eq (· < w.db.nextId) hids h.tokenBound
  case owners =>
    apply List.pairwise_map.mpr
    refine h.owners.imp fun {a b} hab => ?_
    split <;> split <;> exact hab
  case markers =>
    intro v hv hmarked
    rw [hdb] at hv ⊢
    rw [houtbox]
    obtain ⟨x, hx, ⟨hsel, rfl⟩ | ⟨hsel, rfl⟩⟩ := mem_updateWhere.mp hv
    -- The user whom the transaction marks: the marker comes from the token that it has consumed.
    · have hxid : x.id = s.userId := of_decide_eq_true hsel
      constructor
      · refine ⟨{ s with consumedAt := some now }, ?_, hxid.symm, hpurpose, by simp, rfl⟩
        exact mem_consumeIn.mpr ⟨s, hs, .inl ⟨rfl, hslive, rfl⟩⟩
      · intro y hy hmarks
        obtain ⟨z, hz, ⟨hzid, -, rfl⟩ | ⟨hother, rfl⟩⟩ := mem_consumeIn.mp hy
        · obtain rfl : z = s := List.inj_on_of_nodup_map h.tokens hz hs hzid
          exact hcurrent x hx hxid
        · obtain rfl : y = s :=
            h.eq_of_owner hs hz (hmarks.1.trans hxid) (hmarks.2.1.trans hpurpose.symm)
          exact absurd ⟨rfl, hslive⟩ hother
    -- The other users have the tokens that they had.
    · have hxid : x.id ≠ s.userId := of_decide_eq_false hsel
      obtain ⟨⟨y, hy, hmarks⟩, hmailed⟩ := h.markers x hx hmarked
      have hother : ∀ {z : AuthToken}, z.userId = x.id → z.userId ≠ s.userId :=
        fun hzuser hsame => hxid (hzuser.symm.trans hsame)
      constructor
      · exact ⟨y, (h.mem_consumeIn_iff hs (hother hmarks.1)).mpr hy, hmarks⟩
      · exact fun z hz hzmarks =>
          hmailed z ((h.mem_consumeIn_iff hs (hother hzmarks.1)).mp hz) hzmarks

end Consume

end Verified

/-! ## What each call keeps -/

section Calls

variable {w : World}

/-- A part of a call that writes and sends nothing. -/
theorem Verified.rest (h : Verified lib w) {α : Type} {p : Act α} (hp : p.Issues Op.Idle) :
    wp (alone lib) (fun _ y => Verified lib y) p w :=
  alone_idle_of_issues hp fun _ _ hy => h.idle hy

/-- A mail with the link of a token that is not consumed. -/
theorem mail_verified (h : Verified lib w) {m : Mail} {Q : Except Err Unit → World → Prop}
    (hunused : ∀ t ∈ w.db.authTokens, t.tokenHash = lib.sha256 m.token → t.consumedAt = none)
    (hQ : ∀ r y, Verified lib y → Q r y) : wp (alone lib) Q (Op.perform (.mail m)) w := by
  apply alone_mail
  · exact fun r y hdb houtbox => hQ r y (h.mail hdb houtbox hunused)
  · exact fun r y hy => hQ r y (h.idle hy)

/-- A mail with a token that nobody has used may go anywhere. -/
theorem trySend_verified (h : Verified lib w) {operation : EmailOperation} {user : SafeUser}
    {rawToken : Id}
    (hunused : ∀ t ∈ w.db.authTokens, t.tokenHash = lib.sha256 rawToken → t.consumedAt = none) :
    wp (alone lib) (fun _ y => Verified lib y) (AuthService.trySend operation user rawToken) w := by
  have hdispatch : wp (alone lib) (fun _ y => Verified lib y)
      (EmailService.dispatch ⟨operation, user.email, rawToken, user.name⟩) w := by
    apply wp_bind.mpr
    apply wp_attempt.mpr
    apply mail_verified h hunused
    intro r y hy
    apply hy.rest
    cases r with
    | ok _ => exact (Prog.issues_perform _ _).mpr trivial
    | error _ => exact .bind ((Prog.issues_perform _ _).mpr trivial) fun _ => trivial
  apply wp_bind.mpr
  apply wp_attempt.mpr
  exact wp_mono (fun r y hy => hy) hdispatch

/-- Who registers is not verified yet. -/
theorem register_verified (h : Verified lib w) (name email password : String) :
    wp (alone lib) (fun _ y => Verified lib y) (AuthService.register env lib name email password)
      w := by
  apply wp_bind.mpr
  refine alone_read (.auth (.findByEmail email)) rfl (fun c x₁ h₁ => ?_) fun _ _ hy => h.idle hy
  refine wp_ensure_bind.mpr ⟨fun _ => ?_, fun _ => h.idle h₁⟩
  -- Up to the transaction nothing is written.
  have hbefore : ∀ (o : Op) (_ : o.Idle) {α : Type} {g : o.Res → Act α} {x : World}, w.Idle x →
      (∀ a y, w.Idle y → wp (alone lib) (fun _ z => Verified lib z) (g a) y) →
      wp (alone lib) (fun _ z => Verified lib z) ((Op.perform o).bind g) x := by
    intro o ho α g x hx hg
    apply wp_bind.mpr
    apply alone_idle o ho
    rintro (e | a) y hy
    · exact h.idle (hx.trans hy)
    · exact hg a y (hx.trans hy)
  refine hbefore (.bcryptHash password) trivial h₁ fun passwordHash x₂ h₂ => ?_
  refine hbefore .random trivial h₂ fun refreshToken x₃ h₃ => ?_
  refine hbefore .random trivial h₃ fun verificationToken x₄ h₄ => ?_
  apply wp_bind.mpr
  apply wp_bind.mpr
  refine alone_newDate fun now x₅ _ h₅ => ?_
  apply wp_bind.mpr
  apply wp_bind.mpr
  refine alone_newDate fun later x₆ _ h₆' => ?_
  have h₆ : w.Idle x₆ := (h₄.trans h₅).trans h₆'
  apply wp_bind.mpr
  refine alone_write (.auth (.createUserWithAuthData _)) rfl
    (fun c now user x₇ heval hredis houtbox hnow => ?_)
    fun _ _ hy => (h.idle h₆).idle hy
  obtain ⟨hverified, hunused⟩ := (h.idle h₆).register heval houtbox
  refine ⟨?_, fun _ => hverified⟩
  apply wp_bind.mpr
  apply alone_idle (.metric .usersRegisteredTotal) trivial
  rintro (e | a) x₈ h₈
  · exact hverified.idle h₈
  · apply wp_bind.mpr
    refine wp_mono ?_ (trySend_verified (hverified.idle h₈) ?_)
    · rintro (e | a) y hy
      · exact hy
      · exact hy
    · rw [h₈.db]
      exact hunused

/-- Another mail goes to the current address. -/
theorem resendVerification_verified (h : Verified lib w) (email : String) :
    wp (alone lib) (fun _ y => Verified lib y)
      (AuthService.resendVerification env lib email) w := by
  apply wp_bind.mpr
  refine alone_read (.auth (.findByEmail email)) rfl (fun c x₁ h₁ => ?_) fun _ _ hy => h.idle hy
  cases hfind : w.db.users.find? (·.email = email) with
  | none =>
    -- Without an account only the dummy work is done.
    refine (h.idle h₁).rest ?_
    refine .bind ?_ fun _ => trivial
    exact .bind ((Prog.issues_perform _ _).mpr trivial) fun _ =>
      .bind ((Prog.issues_perform _ _).mpr trivial) fun _ => trivial
  | some u =>
    have hu : u ∈ w.db.users := List.mem_of_find?_eq_some hfind
    show wp _ _ (if _ then _ else _) _
    split
    · exact h.idle h₁
    · next hmarked =>
      apply wp_bind.mpr
      apply alone_idle .random trivial
      rintro (e | token) x₂ h₂
      · exact h.idle (h₁.trans h₂)
      apply wp_bind.mpr
      apply wp_bind.mpr
      refine alone_newDate fun now x₃ _ h₃ => ?_
      apply wp_bind.mpr
      have hidle : w.Idle x₃ := (h₁.trans h₂).trans h₃
      refine alone_write (.auth (.createAuthToken _)) rfl
        (fun c at' t x₄ heval hredis houtbox hnow => ?_)
        fun _ _ hy => h.idle (hidle.trans hy)
      have hu' : u ∈ x₃.db.users := hidle.db ▸ hu
      have hunmarked : u.emailVerifiedAt = none := by simpa using hmarked
      -- The new token takes the place of the old one, and nothing has been mailed with it yet.
      obtain ⟨hverified, hunused⟩ := (h.idle hidle).resend hu' hunmarked heval houtbox
      refine ⟨?_, fun _ => hverified⟩
      apply wp_bind.mpr
      refine wp_mono ?_ (trySend_verified hverified hunused)
      rintro (e | a) y hy
      · exact hy
      · exact hy

/-- A new address is not verified, unless it differs in case only. -/
theorem updateCurrentUser_verified (h : Verified lib w) (userId : Id) (name email : Option String) :
    wp (alone lib) (fun _ y => Verified lib y) (AuthService.updateCurrentUser lib userId name email)
      w := by
  apply wp_bind.mpr
  refine alone_read (.auth (.findById userId)) rfl (fun c x₁ h₁ => ?_) fun _ _ hy => h.idle hy
  refine wp_expect_bind.mpr ⟨fun u hu => ?_, fun _ => h.idle h₁⟩
  have hfree : (AuthService.assertEmailFree userId email).Issues Op.Idle := by
    cases email with
    | none => trivial
    | some address =>
      refine .bind ((Prog.issues_perform _ _).mpr ?_) fun _ => Prog.issues_ensure _ _ _
      exact ⟨_, rfl⟩
  apply wp_bind.mpr
  apply alone_idle_of_issues hfree
  rintro (e | a) x₂ h₂
  · exact h.idle (h₁.trans h₂)
  apply wp_bind.mpr
  apply wp_bind.mpr
  have hidle : w.Idle x₂ := h₁.trans h₂
  refine alone_read (.auth (.updateExists userId)) rfl (fun c x₃ h₃ => ?_)
    fun _ _ hy => h.idle (hidle.trans hy)
  show wp _ _ (if _ then _ else _) _
  split
  · have hidle₃ : w.Idle x₃ := hidle.trans h₃
    apply wp_bind.mpr
    refine alone_write (.auth (.update userId _)) rfl
      (fun c now r x₄ heval hredis houtbox hnow => ?_)
      fun _ _ hy => h.idle (hidle₃.trans hy)
    -- The address and its marker change in one statement.
    obtain ⟨updated, d₁, hupdate, hpure⟩ := Tx.eval_bind_eq_ok.mp heval
    obtain ⟨-, rfl⟩ := Prod.mk.inj (Except.ok.inj hpure)
    have hverified : Verified lib x₄ := by
      apply (h.idle hidle₃).update (u := u) ?_ hupdate houtbox
      rw [hidle₃.db]
      exact hu
    exact ⟨hverified, fun _ => hverified⟩
  · exact h.idle (hidle.trans h₃)

/-- A link that was mailed to the current address verifies it. -/
theorem verifyEmailAddress_verified (h : Verified lib w) {token : Id}
    (hcurrent : AuthCall.FollowsCurrent lib w (.verifyEmailAddress token)) :
    wp (alone lib) (fun _ y => Verified lib y) (AuthService.verifyEmailAddress lib token) w := by
  apply wp_bind.mpr
  refine alone_read (.auth (.findAuthTokenByHash _)) rfl (fun c x₁ h₁ => ?_) fun _ _ hy => h.idle hy
  apply wp_bind.mpr
  refine alone_newDate fun now x₂ hnow h₂ => ?_
  have hidle : w.Idle x₂ := h₁.trans h₂
  refine wp_expect_bind.mpr ⟨fun t ht => ?_, fun _ => h.idle hidle⟩
  refine wp_ensure_bind.mpr ⟨fun hpurpose => ?_, fun _ => h.idle hidle⟩
  refine wp_ensure_bind.mpr ⟨fun hlive => ?_, fun _ => h.idle hidle⟩
  refine wp_ensure_bind.mpr ⟨fun hend => ?_, fun _ => h.idle hidle⟩
  -- The token is in the table, unexpired, and mailed to the address that its user has.
  have htmem : t ∈ w.db.authTokens := List.mem_of_find?_eq_some ht
  have hhash : t.tokenHash = lib.sha256 token := by simpa using List.find?_some ht
  have htime : w.now < t.expiresAt := Nat.lt_of_le_of_lt (Nat.le_trans h₁.now hnow) hend
  apply wp_bind.mpr
  refine alone_write (.auth (.consumeVerificationTokenAndVerifyUser _ _ _)) rfl
    (fun c at' r x₃ heval hredis houtbox hnow' => ?_) fun _ _ hy => h.idle (hidle.trans hy)
  have hverified : Verified lib x₃ := by
    apply (h.idle hidle).consume (t := t) ?_ hpurpose ?_ heval houtbox
    · rw [hidle.db]
      exact htmem
    · rw [hidle.db, hidle.outbox]
      exact hcurrent t htmem hhash hpurpose hlive htime
  refine ⟨?_, fun _ => hverified⟩
  exact hverified.rest (.bind (Prog.issues_expect _ _ _) fun _ => trivial)

/-- Every call keeps the invariant, unless it follows a link that was mailed to a former address. -/
theorem onAddress_verified (h : Verified lib w) {c : AuthCall} (hc : c.OnAddress)
    (hcurrent : c.FollowsCurrent lib w) :
    wp (alone lib) (fun _ y => Verified lib y) (c.body env lib) w := by
  have hforget : ∀ {α : Type} {p : Act α} {g : α → Option AuthResult},
      wp (alone lib) (fun _ y => Verified lib y) p w →
      wp (alone lib) (fun _ y => Verified lib y) (p.bind fun a => .ret (g a)) w := by
    intro α p g hp
    refine wp_bind.mpr (wp_mono ?_ hp)
    rintro (e | a) y hy
    · exact hy
    · exact hy
  cases c with
  | register name email password => exact hforget (register_verified h name email password)
  | resendVerification email => exact hforget (resendVerification_verified h email)
  | updateCurrentUser userId name email =>
    exact hforget (updateCurrentUser_verified h userId name email)
  | verifyEmailAddress token => exact hforget (verifyEmailAddress_verified h hcurrent)
  | _ => exact hc.elim

end Calls

/-! ## Runs -/

/-- As long as nobody has registered nobody is verified. -/
theorem verified_of_unregistered {w : World} (h : Unregistered w) : Verified lib w := by
  obtain ⟨husers, htokens⟩ := h
  -- There are no users and no tokens.
  constructor
  case users =>
    rw [husers]
    exact List.nodup_nil
  case userBound =>
    rw [husers]
    exact fun u hu => (List.not_mem_nil hu).elim
  case tokens =>
    rw [htokens]
    exact List.nodup_nil
  case tokenBound =>
    rw [htokens]
    exact fun t ht => (List.not_mem_nil ht).elim
  case owners =>
    rw [htokens]
    exact .nil
  case markers =>
    intro u hu
    rw [husers] at hu
    exact (List.not_mem_nil hu).elim

/-- In every run of registrations, resends, updates of the profile and verifications in which no
link is followed that was mailed to a former address of its user, every marker belongs to the
current address. -/
theorem markers_belong {w : World}
    (h : Sequence (machine lib) World.Later (AuthCall.body env lib)
      (fun c w => c.OnAddress ∧ c.FollowsCurrent lib w) Unregistered w) : MarkersBelong lib w := by
  have hverified : Verified lib w := by
    apply Sequence.invariant (Verified lib) (fun _ hw => verified_of_unregistered hw) ?_ ?_ h
    · exact fun w w' hw hlater => hw.idle hlater.idle
    · exact fun c w hw hc => onAddress_verified hw hc.1 hc.2
  exact hverified.markers

instance : DecidablePred AuthCall.OnAddress := fun c => by
  cases c <;> simp only [AuthCall.OnAddress] <;> infer_instance

instance (outbox : List Mail) (t : AuthToken) (email : String) :
    Decidable (MailedTo lib outbox t email) :=
  inferInstanceAs (Decidable (∀ m ∈ outbox, _))

instance (w : World) (c : AuthCall) : Decidable (c.FollowsCurrent lib w) := by
  cases c with
  | verifyEmailAddress token =>
    exact inferInstanceAs (Decidable (∀ t ∈ w.db.authTokens, _ → _ → _ → _ → ∀ u ∈ w.db.users, _))
  | _ => exact isTrue trivial

instance (t : AuthToken) (u : User) : Decidable (Marks t u) :=
  inferInstanceAs (Decidable (_ ∧ _ ∧ _ ∧ _))

instance : DecidablePred (MarkersBelong lib) := fun w =>
  inferInstanceAs (Decidable (∀ u ∈ w.db.users, _ → _ ∧ ∀ t ∈ w.db.authTokens, _))

/-- A user registers, writes the address in capitals, and follows the link. -/
def verifiedInCapitals : List AuthCall :=
  [.register "Ann" "ann@example.com" "password", .updateCurrentUser 0 none (some "ANN@example.com"),
    .verifyEmailAddress 2]

/-- A user who changes the address in case only verifies it by the old mail. -/
theorem markers_belong_verifiedInCapitals : ∃ w,
    (machine .plain).runAll (AuthCall.body {} .plain)
      (fun c w => c.OnAddress ∧ c.FollowsCurrent .plain w) {} verifiedInCapitals {} = some w ∧
    w.db.users.map (fun u => (u.email, u.emailVerifiedAt)) = [("ANN@example.com", some 0)] ∧
    w.outbox = [⟨.verification, "ann@example.com", 2, "Ann"⟩] ∧ MarkersBelong .plain w := by
  have hrun : ((machine .plain).runAll (AuthCall.body {} .plain)
      (fun c w => c.OnAddress ∧ c.FollowsCurrent .plain w) {} verifiedInCapitals {}).map (fun w =>
        (w.db.users.map (fun u => (u.email, u.emailVerifiedAt)), w.outbox)) =
      some ([("ANN@example.com", some 0)], [⟨.verification, "ann@example.com", 2, "Ann"⟩]) := by
    decide +kernel
  obtain ⟨w, h, hw⟩ := Option.map_eq_some_iff.mp hrun
  obtain ⟨husers, houtbox⟩ := Prod.mk.inj hw
  exact ⟨w, h, husers, houtbox,
    markers_belong (.of_runAll World.later_refl (.start ⟨rfl, rfl⟩) h)⟩

/-- A user registers, changes the address, and follows the link that was mailed before. -/
def verifiedByFormerLink : List AuthCall :=
  [.register "Ann" "ann@example.com" "password", .updateCurrentUser 0 none (some "eve@example.com"),
    .verifyEmailAddress 2]

/-- The link that was mailed to the former address marks the new one. -/
theorem not_markers_belong : ∃ w,
    Sequence (machine .plain) World.Later (AuthCall.body {} .plain) (fun c _ => c.OnAddress)
      Unregistered w ∧
    w.db.users.map (fun u => (u.email, u.emailVerifiedAt)) = [("eve@example.com", some 0)] ∧
    w.outbox = [⟨.verification, "ann@example.com", 2, "Ann"⟩] ∧ ¬MarkersBelong .plain w := by
  have hrun : ((machine .plain).runAll (AuthCall.body {} .plain) (fun c _ => c.OnAddress) {}
      verifiedByFormerLink {}).map (fun w =>
        (w.db.users.map (fun u => (u.email, u.emailVerifiedAt)), w.outbox,
          decide (MarkersBelong .plain w))) =
      some ([("eve@example.com", some 0)], [⟨.verification, "ann@example.com", 2, "Ann"⟩],
        false) := by
    decide +kernel
  obtain ⟨w, h, hw⟩ := Option.map_eq_some_iff.mp hrun
  obtain ⟨husers, hrest⟩ := Prod.mk.inj hw
  obtain ⟨houtbox, hnot⟩ := Prod.mk.inj hrest
  exact ⟨w, .of_runAll World.later_refl (.start ⟨rfl, rfl⟩) h, husers, houtbox,
    of_decide_eq_false hnot⟩

end SplitBill
