import SplitBill.Auth.Authority
import SplitBill.Interleave.Replay

/-!
# What the responses tell about accounts

`resendVerification` and `requestPasswordReset` answer every address alike, whether an account
belongs to it or not. Only with an account do they write: `createAuthToken` deletes the tokens of
the user and the purpose and inserts a new one, at READ COMMITTED. A deletion does not see what
another transaction has yet to commit, so its two statements are two operations here. If another
token of the pair is committed between them, the insertion violates the unique constraint, and the
error reaches the client.
-/

namespace SplitBill.Enumeration

open Interleave
open Prisma (CreateAuthTokenData)
open AuthService

/-! ## The code -/

/-- The operations of a request: those of the backend, and the two statements of `createAuthToken`,
the second one with the commit. -/
inductive RequestOp
  | backend (o : Op)
  | deleteMany (userId : Id) (purpose : AuthTokenPurpose)
  | createAndCommit (data : CreateAuthTokenData) (deleted : List AuthToken)

/-- What an operation answers. `deleteMany` answers the rows that it deletes. -/
abbrev RequestOp.Res : RequestOp → Type
  | backend o => o.Res
  | deleteMany _ _ => List AuthToken
  | createAndCommit _ _ => AuthToken

/-- The interface of the requests. -/
abbrev requests : Interface := ⟨RequestOp, RequestOp.Res⟩

/-- `createAuthToken`. -/
def createAuthToken (data : CreateAuthTokenData) : Prog requests Err AuthToken := do
  let deleted ← @Prog.perform requests Err (.deleteMany data.userId data.purpose)
  @Prog.perform requests Err (.createAndCommit data deleted)

/-- What the backend does for an operation of `AuthService`. -/
def statements : (o : Op) → Prog requests Err o.Res
  | .db (.auth (.createAuthToken data)) => createAuthToken data
  | o => @Prog.perform requests Err (.backend o)

/-- A call of `AuthService`, with the statements of `createAuthToken` one by one. -/
abbrev split {α : Type} (p : Act α) : Prog requests Err α := Prog.expand (S := backend) statements p

/-- A request. -/
inductive Request
  | resendVerification (email : String)
  | requestPasswordReset (email : String)
  deriving DecidableEq

namespace Request

/-- The message that answers every request of the kind. -/
def message : Request → String
  | resendVerification _ => genericVerificationMessage
  | requestPasswordReset _ => genericResetMessage

/-- The program of a request. -/
def body (env : Env) (lib : Lib) : Request → Prog requests Err String
  | resendVerification email => split (AuthService.resendVerification env lib email)
  | requestPasswordReset email => split (AuthService.requestPasswordReset env lib email)

end Request

/-- What a client is told. -/
structure Response where
  status : ℕ
  message : String
  deriving DecidableEq

/-- The response of the controller, or else of `errorHandler`. -/
def respond : Except Err String → Response
  | .ok message => ⟨200, message⟩
  | .error (.app e) => ⟨e.statusCode, e.message⟩
  | .error _ => ⟨500, "Something went wrong on our side. Please try again later."⟩

/-! ## The machine -/

/-- The tables without some tokens. -/
def without (db : Db) (deleted : List AuthToken) : Db :=
  { db with authTokens := db.authTokens.filter fun t => t ∉ deleted }

/-- The answer and the effect of an operation. -/
def RequestOp.exec (lib : Lib) : (o : RequestOp) → Choice → World → Except Err o.Res × World
  | backend o, c, w => o.exec lib c w
  | deleteMany userId purpose, _, w =>
    (.ok (w.db.authTokens.filter fun t => t.userId = userId ∧ t.purpose = purpose), w)
  | createAndCommit data deleted, _, w =>
    match Prisma.authTokenCreate w.now data (without w.db deleted) with
    | .ok (token, db) => (.ok token, { w with db })
    | .error e => (.error e, w)

/-- The mail provider fails, or a mail is sent although it seems to have failed. -/
def RequestOp.Faulty (o : RequestOp) (e : Err) : Prop := ∃ m, o = .backend (.mail m) ∧ e = .mail

/-- The machine of the requests. The database answers. -/
def requestMachine (lib : Lib) : Machine requests Err World where
  Choice := Choice
  exec := RequestOp.exec lib
  fails := RequestOp.Faulty
  loses := RequestOp.Faulty

/-- Any number of requests side by side. -/
def system (env : Env) (lib : Lib) : System requests Err String World where
  machine := requestMachine lib
  Call := Request
  body := Request.body env lib
  valid _ := True
  env := World.Later

variable {env : Env} {lib : Lib} {w w' : World}

/-- But for `createAuthToken`, an operation is that of the backend. -/
theorem statements_eq {o : Op} (h : ∀ data, o ≠ .db (.auth (.createAuthToken data))) :
    statements o = @Prog.perform requests Err (.backend o) := by
  unfold statements
  split
  · exact absurd rfl (h _)
  · rfl

/-- An operation other than `createAuthToken` is followed by what follows it in the backend. -/
theorem split_call {α : Type} {o : Op} (h : ∀ data, o ≠ .db (.auth (.createAuthToken data)))
    (k : Except Err o.Res → Act α) :
    split (.call o k) = .call (.backend o) fun r => split (k r) := by
  show (statements o).attempt.bind (fun r => split (k r)) = _
  rw [statements_eq h]
  exact Prog.attempt_perform_bind _

/-- A sequence is split part by part. -/
theorem split_bind {α β : Type} (p : Act α) (g : α → Act β) :
    split (p.bind g) = (split p).bind fun a => split (g a) := Prog.expand_bind _ p g

/-- The transaction of the repository is its statements. -/
theorem split_createAuthToken (data : CreateAuthTokenData) :
    split (AuthRepository.createAuthToken data) = createAuthToken data :=
  Prog.expand_perform _ _

/-- The lookup with which the requests begin. -/
theorem split_findByEmail (email : String) : split (AuthRepository.findByEmail email) =
    @Prog.perform requests Err (.backend (.db (.auth (.findByEmail email)))) :=
  Prog.expand_perform _ _

/-- What a transaction deletes are the tokens of the pair. -/
theorem without_pair (db : Db) (P : AuthToken → Prop) [DecidablePred P] :
    without db (db.authTokens.filter fun t => P t) =
      { db with authTokens := db.authTokens.filter fun t => ¬P t } := by
  unfold without
  congr 1
  refine List.filter_congr fun t ht => ?_
  simp [ht]

/-- Without company `createAuthToken` is the transaction of the repository. -/
theorem createAuthToken_alone (data : CreateAuthTokenData) (w : World) :
    (requestMachine lib).run ({} : Choice) (createAuthToken data) w =
      (Op.db (.auth (.createAuthToken data))).exec lib {} w := by
  -- Alone, the insertion finds the tables as the deletion left them.
  have hdeleted := without_pair w.db fun t => t.userId = data.userId ∧ t.purpose = data.purpose
  have hrun : (requestMachine lib).run ({} : Choice) (createAuthToken data) w =
      (RequestOp.createAndCommit data (w.db.authTokens.filter fun t =>
        t.userId = data.userId ∧ t.purpose = data.purpose)).exec lib {} w :=
    (requestMachine lib).run_perform {} _ w
  have htx : (Op.db (.auth (.createAuthToken data))).exec lib {} w =
      (Access.write fun _ now => SplitBill.createAuthToken now data).exec {} w := rfl
  rw [hrun, htx]
  unfold RequestOp.exec
  simp only [hdeleted]
  have heval : (SplitBill.createAuthToken w.now data).eval w.db = Prisma.authTokenCreate w.now data
      { w.db with authTokens := w.db.authTokens.filter fun t =>
        ¬(t.userId = data.userId ∧ t.purpose = data.purpose) } := rfl
  have hnotes : Mark.notes ((SplitBill.createAuthToken w.now data).marks w.db) = [] := rfl
  simp only [Access.exec, Tx.run, heval, hnotes]
  cases hcreate : Prisma.authTokenCreate w.now data
    { w.db with authTokens := w.db.authTokens.filter fun t =>
      ¬(t.userId = data.userId ∧ t.purpose = data.purpose) } with
  | error e => rfl
  | ok r => rfl

/-- An operation of the backend is answered as by the backend's machine, and only a mail fails. -/
theorem answer_backend {o : Op} (ho : ∀ d, o = .db d → ∃ f, d.access = .read f)
    {did seen : Except Err (requests.Res (.backend o))}
    (h : (requestMachine lib).Answer (.backend o) w did seen w') :
    (machine lib).Answer o w did seen w' ∧
      ((∃ a, seen = .ok a) ∨ (∃ m, o = .mail m) ∧ seen = .error .mail) := by
  -- Of the backend's operations only a mail may fail here.
  have hfault : ∀ e, RequestOp.Faulty (.backend o) e → o.fault = some e ∧ (∃ m, o = .mail m) ∧
      e = .mail := by
    rintro e ⟨m, hm, rfl⟩
    obtain rfl := RequestOp.backend.inj hm
    exact ⟨rfl, ⟨m, rfl⟩, rfl⟩
  cases h with
  | done c =>
    refine ⟨@Machine.Answer.done _ _ _ (machine lib) o w c, .inl ?_⟩
    cases o with
    | db d =>
      obtain ⟨f, hf⟩ := ho d rfl
      refine ⟨f c w.db, ?_⟩
      show (d.access.exec c w).1 = _
      rw [hf]
      rfl
    | _ => exact ⟨_, rfl⟩
  | failed e h =>
    obtain ⟨hf, hmail, rfl⟩ := hfault e h
    exact ⟨@Machine.Answer.failed _ _ _ (machine lib) o w .mail hf, .inr ⟨hmail, rfl⟩⟩
  | lost e c h =>
    obtain ⟨hf, hmail, rfl⟩ := hfault e h
    exact ⟨@Machine.Answer.lost _ _ _ (machine lib) o w .mail c hf, .inr ⟨hmail, rfl⟩⟩

/-! ## What a request does -/

/-- The tables hold no token of the data's user and purpose but those that are deleted, and none
with its digest. -/
def Clear (db : Db) (data : CreateAuthTokenData) (deleted : List AuthToken) : Prop :=
  ∀ t ∈ db.authTokens, t ∉ deleted →
    ¬(t.tokenHash = data.tokenHash ∨ t.userId = data.userId ∧ t.purpose = data.purpose)

/-- When an insertion commits, nothing stands in its way. -/
def Undisturbed (e : Entry requests Err World) : Prop :=
  match e.op with
  | .createAndCommit data deleted => Clear e.pre.db data deleted
  | _ => True

instance (db : Db) (data : CreateAuthTokenData) (deleted : List AuthToken) :
    Decidable (Clear db data deleted) :=
  inferInstanceAs (Decidable (∀ t ∈ db.authTokens, t ∉ deleted →
    ¬(t.tokenHash = data.tokenHash ∨ t.userId = data.userId ∧ t.purpose = data.purpose)))

instance : DecidablePred Undisturbed
  | ⟨_, .createAndCommit data deleted, pre, _, _, _⟩ =>
    inferInstanceAs (Decidable (Clear pre.db data deleted))
  | ⟨_, .backend _, _, _, _, _⟩ => isTrue trivial
  | ⟨_, .deleteMany _ _, _, _, _, _⟩ => isTrue trivial

/-- The error with which an insertion was refused. -/
def refused? : Entry requests Err World → Option Err
  | ⟨_, .createAndCommit _ _, _, _, .error err, _⟩ => some err
  | _ => none

/-- The user whom a request found. -/
def found? : Entry requests Err World → Option Id
  | ⟨_, .backend (.db (.auth (.findByEmail _))), _, _, .ok (some user), _⟩ => some user.id
  | _ => none

/-- The unique constraints refuse a token exactly if something stands in its way. -/
theorem any_conflict_iff (db : Db) (data : CreateAuthTokenData) (deleted : List AuthToken) :
    ((without db deleted).authTokens.any fun t => t.tokenHash = data.tokenHash ∨
      t.userId = data.userId ∧ t.purpose = data.purpose) = true ↔ ¬Clear db data deleted := by
  unfold without Clear
  simp only [List.any_eq_true, List.mem_filter, decide_eq_true_eq, not_forall, not_not]
  constructor
  · rintro ⟨t, ⟨ht, hnot⟩, hconflict⟩
    exact ⟨t, ht, hnot, hconflict⟩
  · rintro ⟨t, ht, hnot, hconflict⟩
    exact ⟨t, ⟨ht, hnot⟩, hconflict⟩

/-- The insertion of a user's token is refused exactly if it is disturbed. -/
theorem exec_createAndCommit {data : CreateAuthTokenData} {deleted : List AuthToken} {c : Choice}
    (huser : (w.db.user? data.userId).isSome = true) :
    (Clear w.db data deleted ∧ ∃ token db, db.users = w.db.users ∧
      (RequestOp.createAndCommit data deleted).exec lib c w = (.ok token, { w with db })) ∨
    ¬Clear w.db data deleted ∧ (RequestOp.createAndCommit data deleted).exec lib c w =
      (.error (.prisma .uniqueConstraint), w) := by
  have hany := any_conflict_iff w.db data deleted
  by_cases hclear : Clear w.db data deleted
  · have huser' : ((without w.db deleted).user? data.userId).isNone = false := by
      have heq : (without w.db deleted).user? data.userId = w.db.user? data.userId := rfl
      rw [heq, ← Option.not_isSome, huser]
      rfl
    -- Nothing conflicts, so that the row is inserted.
    have hcreate : ∃ token db, db.users = w.db.users ∧
        Prisma.authTokenCreate w.now data (without w.db deleted) = .ok (token, db) := by
      unfold Prisma.authTokenCreate
      rw [if_neg fun h => hany.mp h hclear, huser', if_neg Bool.false_ne_true]
      refine ⟨_, _, ?_, rfl⟩
      rfl
    obtain ⟨token, db, husers, hcreate⟩ := hcreate
    refine .inl ⟨hclear, token, db, husers, ?_⟩
    simp only [RequestOp.exec, hcreate]
  · have hcreate : Prisma.authTokenCreate w.now data (without w.db deleted) =
        .error (.prisma .uniqueConstraint) := by
      unfold Prisma.authTokenCreate
      rw [if_pos (hany.mpr hclear)]
    refine .inr ⟨hclear, ?_⟩
    simp only [RequestOp.exec, hcreate]

/-- Code that returns: it reads and writes no table and no key, and of its operations only a mail
fails, after which it goes on. -/
def Returns {α : Type} : Act α → Prop
  | .ret _ => True
  | .throw _ => False
  | .call o k => (∀ d, o ≠ .db d) ∧ (∀ a, Returns (k (.ok a))) ∧
      ((∃ m, o = .mail m) → Returns (k (.error .mail)))

/-- Random bytes are drawn without an error. -/
theorem returns_randomId : Returns randomId := ⟨nofun, fun _ => trivial, nofun⟩

/-- The expiry of a verification token is computed without an error. -/
theorem returns_verificationTokenExpiry : Returns (verificationTokenExpiry env) :=
  ⟨nofun, fun _ => trivial, nofun⟩

/-- The expiry of a reset token is computed without an error. -/
theorem returns_passwordResetTokenExpiry : Returns (passwordResetTokenExpiry env) :=
  ⟨nofun, fun _ => trivial, nofun⟩

/-- The work for an unknown address is done without an error. -/
theorem returns_dummyAuthWork : Returns (dummyAuthWork lib) :=
  ⟨nofun, fun _ => ⟨nofun, fun _ => trivial, nofun⟩, nofun⟩

/-- A mail that fails is no error of the request. -/
theorem returns_trySend (operation : EmailOperation) (user : SafeUser) (rawToken : Id) :
    Returns (trySend operation user rawToken) :=
  ⟨nofun, fun _ => ⟨nofun, fun _ => trivial, nofun⟩,
    fun _ => ⟨nofun, fun _ => trivial, nofun⟩⟩

section OwnLog

variable {pid : ℕ} {A : List (Entry requests Err World) → RequestOp → Prop}

/-- Such code returns within a request, and keeps what operations of the backend keep. -/
theorem wp_split {α : Type} {K : List (Entry requests Err World) → Prop}
    (hK : ∀ l e, K l → (∃ o, e.op = .backend o) → K (e :: l))
    (hA : ∀ l o, (∀ d, o ≠ .db d) → A l (.backend o)) {p : Act α} (hp : Returns p)
    {l : List (Entry requests Err World)} (hl : K l) :
    wp ((requestMachine lib).ownLog pid A) (fun r l => (∃ a, r = .ok a) ∧ K l) (split p) l := by
  induction p generalizing l with
  | ret a => exact ⟨⟨a, rfl⟩, hl⟩
  | throw e => exact hp.elim
  | call o k ih =>
    obtain ⟨hdb, hok, hmail⟩ := hp
    rw [split_call fun _ => hdb _]
    rintro l₁ hl₁ r _ ⟨w, did, w', hans, rfl⟩
    have hl' : K (⟨pid, .backend o, w, did, r, w'⟩ :: l₁) := hK _ _ (hl₁ ▸ hl) ⟨o, rfl⟩
    refine ⟨fun e he => ?_, ?_⟩
    · rw [← (List.cons.inj he).1]
      exact hA _ o hdb
    · obtain ⟨-, ⟨a, rfl⟩ | ⟨hm, rfl⟩⟩ := answer_backend (fun d hd => absurd hd (hdb d)) hans
      · exact ih (.ok a) (hok a) hl'
      · exact ih (.error .mail) (hmail hm) hl'

end OwnLog

/-- What the earlier entries of a request say of its next operation: it writes no table but that of
the tokens, and inserts a token only for the user whom it found. -/
def Follows (l : List (Entry requests Err World)) : RequestOp → Prop
  | .backend o => ∀ d, o = .db d → ∃ email, d = .auth (.findByEmail email)
  | .deleteMany _ _ => True
  | .createAndCommit data _ => ∃ e ∈ l, found? e = some data.userId

/-- A request ends with its message, or with the error of a refused insertion. -/
def Ends (message : String) : Except Err String → List (Entry requests Err World) → Prop
  | .ok m, l => m = message ∧ ∀ e ∈ l, refused? e = none
  | .error err, l => ∃ e ∈ l, refused? e = some err

/-- What the backend does is no refused insertion. -/
theorem refused_backend {e : Entry requests Err World} (h : ∃ o, e.op = .backend o) :
    refused? e = none := by
  obtain ⟨o, ho⟩ := h
  cases e
  subst ho
  rfl

/-- Something that the backend does is not refused either. -/
theorem not_refused_cons (l : List (Entry requests Err World)) (e : Entry requests Err World)
    (h : ∀ e ∈ l, refused? e = none) (he : ∃ o, e.op = .backend o) :
    ∀ e' ∈ e :: l, refused? e' = none :=
  List.forall_mem_cons.mpr ⟨refused_backend he, h⟩

section OwnLog

variable {pid : ℕ} {l : List (Entry requests Err World)} {message : String}

/-- A part of a request that returns goes on to the rest. -/
theorem wp_split_bind {α : Type} {userId : Id} {p : Act α} (hp : Returns p)
    {g : α → Act String} (hl : ∀ e ∈ l, refused? e = none)
    (hfound : ∃ e ∈ l, found? e = some userId)
    (hg : ∀ a l, (∀ e ∈ l, refused? e = none) → (∃ e ∈ l, found? e = some userId) →
      wp ((requestMachine lib).ownLog pid Follows) (Ends message) (split (g a)) l) :
    wp ((requestMachine lib).ownLog pid Follows) (Ends message) (split (p.bind g)) l := by
  have hK : ∀ (l : List (Entry requests Err World)) e,
      ((∀ e ∈ l, refused? e = none) ∧ ∃ e ∈ l, found? e = some userId) →
      (∃ o, e.op = .backend o) →
      (∀ e' ∈ e :: l, refused? e' = none) ∧ ∃ e' ∈ e :: l, found? e' = some userId := by
    rintro l e ⟨hl, x, hx, hfound⟩ he
    exact ⟨not_refused_cons l e hl he, x, List.mem_cons_of_mem _ hx, hfound⟩
  rw [split_bind]
  refine wp_bind.mpr (wp_mono ?_ (wp_split hK (fun _ o ho d hd => absurd hd (ho d)) hp ⟨hl, hfound⟩))
  rintro r l ⟨⟨a, rfl⟩, hl, hfound⟩
  exact hg a l hl hfound

/-- A request that issues a token ends as it should. -/
theorem wp_issue {data : CreateAuthTokenData} {operation : EmailOperation} {user : SafeUser}
    {token : Id} (hl : ∀ e ∈ l, refused? e = none)
    (hfound : ∃ e ∈ l, found? e = some data.userId) :
    wp ((requestMachine lib).ownLog pid Follows) (Ends message)
      (split ((AuthRepository.createAuthToken data).bind fun _ =>
        (trySend operation user token).bind fun _ => .ret message)) l := by
  rw [split_bind, split_createAuthToken]
  unfold createAuthToken
  rw [Prog.bind_eq, Prog.bind_assoc]
  refine wp_bind.mpr (wp_ownLog_perform trivial fun w did r w' hans => ?_)
  -- The deletion does not fail.
  obtain ⟨rows, rfl⟩ : ∃ rows, r = .ok rows := by
    cases hans with
    | done c => exact ⟨_, rfl⟩
    | failed e h => obtain ⟨m, hm, -⟩ := h; cases hm
    | lost e c h => obtain ⟨m, hm, -⟩ := h; cases hm
  obtain ⟨x, hx, hfound⟩ := hfound
  refine wp_bind.mpr (wp_ownLog_perform ⟨x, List.mem_cons_of_mem _ hx, hfound⟩ ?_)
  intro w₁ did₁ r w₁' _
  cases r with
  -- The insertion was refused, or the mail follows, which cannot fail the request.
  | error err => exact ⟨_, List.mem_cons_self, rfl⟩
  | ok row =>
    have hl' : ∀ e ∈ ⟨pid, .createAndCommit data rows, w₁, did₁, .ok row, w₁'⟩ ::
        ⟨pid, .deleteMany data.userId data.purpose, w, did, .ok rows, w'⟩ :: l,
        refused? e = none :=
      List.forall_mem_cons.mpr ⟨rfl, List.forall_mem_cons.mpr ⟨rfl, hl⟩⟩
    exact wp_split_bind (returns_trySend operation user token) hl'
      ⟨x, List.mem_cons_of_mem _ (List.mem_cons_of_mem _ hx), hfound⟩ fun _ l hl _ => ⟨rfl, hl⟩

/-- A request that finds no account ends with its message. -/
theorem wp_absent (hl : ∀ e ∈ l, refused? e = none) :
    wp ((requestMachine lib).ownLog pid Follows) (Ends message)
      (split ((dummyAuthWork lib).bind fun _ => .ret message)) l := by
  rw [split_bind]
  refine wp_bind.mpr (wp_mono ?_ (wp_split not_refused_cons
    (fun _ o ho d hd => absurd hd (ho d)) returns_dummyAuthWork hl))
  rintro r l ⟨⟨a, rfl⟩, hl⟩
  exact ⟨rfl, hl⟩

/-- The lookup with which a request begins. -/
theorem wp_find {email : String} {g : Option User → Act String}
    (hnone : ∀ l, (∀ e ∈ l, refused? e = none) →
      wp ((requestMachine lib).ownLog pid Follows) (Ends message) (split (g none)) l)
    (hsome : ∀ (user : User) l, (∀ e ∈ l, refused? e = none) →
      (∃ e ∈ l, found? e = some user.id) →
      wp ((requestMachine lib).ownLog pid Follows) (Ends message) (split (g (some user))) l) :
    wp ((requestMachine lib).ownLog pid Follows) (Ends message)
      (split ((AuthRepository.findByEmail email).bind g)) [] := by
  have hread : ∀ d, Op.db (.auth (.findByEmail email)) = .db d → ∃ f, d.access = .read f := by
    rintro d ⟨⟩
    exact ⟨_, rfl⟩
  rw [split_bind, split_findByEmail]
  refine wp_bind.mpr (wp_ownLog_perform ?_ fun w did r w' hans => ?_)
  · rintro d ⟨⟩
    exact ⟨email, rfl⟩
  obtain ⟨-, ⟨found, rfl⟩ | ⟨⟨m, hm⟩, -⟩⟩ := answer_backend hread hans
  · cases found with
    | none => exact hnone _ (List.forall_mem_singleton.mpr rfl)
    | some user =>
      exact hsome user _ (List.forall_mem_singleton.mpr rfl) ⟨_, List.mem_singleton_self _, rfl⟩
  · cases hm

/-- Every request ends as it should. -/
theorem wp_body (env : Env) (lib : Lib) (pid : ℕ) (c : Request) :
    wp ((requestMachine lib).ownLog pid Follows) (Ends c.message) (c.body env lib) [] := by
  cases c with
  | resendVerification email =>
    refine wp_find (fun l hl => wp_absent hl) fun user l hl hfound => ?_
    simp only
    split_ifs with hverified
    · exact ⟨rfl, hl⟩
    · exact wp_split_bind returns_randomId hl hfound fun token l hl hfound =>
        wp_split_bind returns_verificationTokenExpiry hl hfound fun expiresAt l hl hfound =>
          wp_issue hl hfound
  | requestPasswordReset email =>
    refine wp_find (fun l hl => wp_absent hl) fun user l hl hfound => ?_
    exact wp_split_bind returns_randomId hl hfound fun token l hl hfound =>
      wp_split_bind returns_passwordResetTokenExpiry hl hfound fun expiresAt l hl hfound =>
        wp_issue hl hfound

end OwnLog

/-! ## What a run does -/

/-- Whom a request found has an account, and an insertion was refused exactly if it was
disturbed. -/
structure Sound (h : Hist requests Err World) : Prop where
  found : ∀ e ∈ h.log, ∀ userId ∈ found? e, (h.world.db.user? userId).isSome = true
  settled : ∀ e ∈ h.log, (Undisturbed e ∧ refused? e = none) ∨
    ¬Undisturbed e ∧ refused? e = some (.prisma .uniqueConstraint)

section Run

variable {h : Hist requests Err World} {pid : ℕ}

/-- A step that keeps the accounts. -/
theorem Sound.record (hs : Sound h) {o : RequestOp} {did seen : Except Err (requests.Res o)}
    (husers : w.db.users = h.world.db.users)
    (hfound : ∀ userId ∈ found? ⟨pid, o, h.world, did, seen, w⟩,
      (h.world.db.user? userId).isSome = true)
    (hsettled : (Undisturbed ⟨pid, o, h.world, did, seen, w⟩ ∧
        refused? ⟨pid, o, h.world, did, seen, w⟩ = none) ∨
      ¬Undisturbed ⟨pid, o, h.world, did, seen, w⟩ ∧
        refused? ⟨pid, o, h.world, did, seen, w⟩ = some (.prisma .uniqueConstraint)) :
    Sound (h.record pid o did seen w) := by
  have huser : ∀ userId, w.db.user? userId = h.world.db.user? userId := by
    intro userId
    unfold Db.user?
    rw [husers]
  constructor
  · intro e he userId hid
    rw [Hist.record_world, huser]
    rcases List.mem_cons.mp he with rfl | he
    · exact hfound userId hid
    · exact hs.found e he userId hid
  · intro e he
    rcases List.mem_cons.mp he with rfl | he
    · exact hsettled
    · exact hs.settled e he

/-- What a lookup answers is a row of the table. -/
theorem user_of_findByEmail {email : String} {user : User} {did : Except Err (Option User)}
    (hans : (machine lib).Answer (.db (.auth (.findByEmail email))) w did (.ok (some user)) w') :
    (w.db.user? user.id).isSome = true := by
  obtain ⟨-, ⟨c, hseen⟩ | hseen⟩ := answer_read (f := fun _ db => db.users.find? (·.email = email))
    rfl hans
  · have hmem := List.mem_of_find?_eq_some (Except.ok.inj hseen).symm
    unfold Db.user?
    rw [List.find?_isSome]
    exact ⟨user, hmem, decide_eq_true rfl⟩
  · cases hseen

/-- An operation of the backend looks accounts up at most. -/
theorem Sound.backend (hs : Sound h) {o : Op}
    (ho : ∀ d, o = .db d → ∃ email, d = .auth (.findByEmail email))
    {did seen : Except Err (requests.Res (.backend o))}
    (hans : (requestMachine lib).Answer (.backend o) h.world did seen w) :
    Sound (h.record pid (.backend o) did seen w) := by
  have hread : ∀ d, o = .db d → ∃ f, d.access = .read f := by
    intro d hd
    obtain ⟨email, rfl⟩ := ho d hd
    exact ⟨_, rfl⟩
  -- The backend's operation is a read, so that the tables are the same before and after.
  obtain ⟨hback, -⟩ := answer_backend hread hans
  have hdb : w.db = h.world.db := by
    cases o with
    | db d =>
      obtain ⟨f, hf⟩ := hread d rfl
      rw [(answer_read hf hback).1]
    | _ => exact answer_db_eq (by rintro d ⟨⟩) hback
  refine hs.record (by rw [hdb]) ?_ (.inl ⟨trivial, refused_backend ⟨o, rfl⟩⟩)
  intro userId hid
  cases o with
  | db d =>
    obtain ⟨email, rfl⟩ := ho d rfl
    cases seen with
    | error e => cases hid
    | ok user? =>
      cases user? with
      | none => cases hid
      | some user =>
        obtain rfl : user.id = userId := Option.some.inj hid
        exact user_of_findByEmail hback
  | _ => cases hid

/-- A deletion changes nothing before its transaction commits. -/
theorem Sound.deleteMany (hs : Sound h) {userId : Id} {purpose : AuthTokenPurpose}
    {did seen : Except Err (requests.Res (.deleteMany userId purpose))}
    (hans : (requestMachine lib).Answer (.deleteMany userId purpose) h.world did seen w) :
    Sound (h.record pid (.deleteMany userId purpose) did seen w) := by
  have hw : w = h.world := by
    cases hans with
    | done c => rfl
    | failed e hf => rfl
    | lost e c hl => rfl
  refine hs.record (by rw [hw]) (fun _ hid => ?_) (.inl ⟨trivial, rfl⟩)
  cases hid

/-- An insertion for a user that its request found. -/
theorem Sound.createAndCommit (hs : Sound h) {data : CreateAuthTokenData} {deleted : List AuthToken}
    (huser : (h.world.db.user? data.userId).isSome = true)
    {did seen : Except Err (requests.Res (.createAndCommit data deleted))}
    (hans : (requestMachine lib).Answer (.createAndCommit data deleted) h.world did seen w) :
    Sound (h.record pid (.createAndCommit data deleted) did seen w) := by
  -- Neither statement of the pair fails by itself.
  have hno : ∀ e, ¬RequestOp.Faulty (.createAndCommit data deleted) e := by
    rintro e ⟨m, hm, -⟩
    cases hm
  cases hans with
  | done c =>
    have hexec : (requestMachine lib).exec (.createAndCommit data deleted) c h.world =
      (RequestOp.createAndCommit data deleted).exec lib c h.world := rfl
    rcases @exec_createAndCommit lib h.world data deleted c huser with
      ⟨hclear, token, db, husers, hok⟩ | ⟨hdisturbed, herror⟩
    · rw [hexec, hok]
      refine hs.record husers (fun _ hid => ?_) (.inl ⟨hclear, rfl⟩)
      cases hid
    · rw [hexec, herror]
      refine hs.record rfl (fun _ hid => ?_) (.inr ⟨hdisturbed, rfl⟩)
      cases hid
  | failed e hf => exact absurd hf (hno e)
  | lost e c hl => exact absurd hl (hno e)

/-- Every operation of a request keeps the run sound. -/
theorem Sound.op (hs : Sound h) {o : RequestOp} (ho : Follows (h.own pid) o)
    {did seen : Except Err (requests.Res o)}
    (hans : (requestMachine lib).Answer o h.world did seen w) :
    Sound (h.record pid o did seen w) := by
  cases o with
  | backend o => exact hs.backend ho hans
  | deleteMany userId purpose => exact hs.deleteMany hans
  | createAndCommit data deleted =>
    obtain ⟨x, hx, hfound⟩ := ho
    exact hs.createAndCommit (hs.found x (Hist.mem_own.mp hx).1 data.userId hfound) hans

/-- Every run is sound, and a request that has ended has done so as it should. -/
theorem sound {init : World → Prop} {cfg : (system env lib).Config}
    (hr : (system env lib).Reachable init cfg) :
    Sound cfg.hist ∧ ∀ pid c r, cfg.procs[pid]? = some (c, .ofExcept r) →
      Ends (Request.message c) r (cfg.hist.own pid) := by
  refine @System.ends_of_ownLog _ _ _ _ (system env lib) init (fun _ _ => Follows)
    (fun _ c => Ends (Request.message c)) Sound (fun pid c _ => wp_body env lib pid c) ?_ ?_ ?_ _ hr
  · intro w _
    exact ⟨fun e he => (List.not_mem_nil he).elim, fun e he => (List.not_mem_nil he).elim⟩
  · rintro h w hs ⟨t, -, rfl⟩
    exact ⟨hs.found, hs.settled⟩
  · intro pid c o h did seen w ho hs _ hans
    exact hs.op ho hans

/-- An insertion. -/
def IsInsertion (o : RequestOp) : Prop := ∃ data deleted, o = .createAndCommit data deleted

/-- Code of the backend that leaves the database alone inserts nothing. -/
theorem endsAt_split_of_offDb {α : Type} {p : Act α} (hp : p.Issues Op.OffDb) :
    (split p).EndsAt IsInsertion := by
  refine .of_issues ?_
  induction p with
  | ret a => trivial
  | throw e => trivial
  | call o k ih =>
    have ho : ∀ data, o ≠ .db (.auth (.createAuthToken data)) := by
      rintro data rfl
      exact hp.1
    rw [split_call ho]
    refine ⟨?_, fun r => ih r (hp.2 r)⟩
    rintro ⟨data, deleted, ⟨⟩⟩

/-- An insertion of a part ends the request, and so does one of the rest. -/
theorem endsAt_split_bind {α β : Type} {p : Act α} {g : α → Act β}
    (hp : (split p).EndsAt IsInsertion) (hg : ∀ a, (split (g a)).EndsAt IsInsertion) :
    (split (p.bind g)).EndsAt IsInsertion := by
  rw [split_bind]
  exact .bind hp hg

/-- A request that issues a token ends with a refused insertion. -/
theorem endsAt_issue {expiry : Act Time} (hexpiry : expiry.Issues Op.OffDb)
    {data : Id → Time → CreateAuthTokenData} {operation : EmailOperation} {user : SafeUser}
    {message : String} :
    (split (randomId.bind fun token => expiry.bind fun expiresAt =>
      (AuthRepository.createAuthToken (data token expiresAt)).bind fun _ =>
        (trySend operation user token).bind fun _ => .ret message)).EndsAt IsInsertion := by
  have hcreate : ∀ data, (split (AuthRepository.createAuthToken data)).EndsAt IsInsertion := by
    intro data
    rw [split_createAuthToken]
    exact .bind (.perform _ _) fun deleted => .perform _ _
  exact endsAt_split_bind (endsAt_split_of_offDb (issues_op trivial)) fun token =>
    endsAt_split_bind (endsAt_split_of_offDb hexpiry) fun expiresAt =>
      endsAt_split_bind (hcreate _) fun _ =>
        endsAt_split_bind (endsAt_split_of_offDb (quiet_trySend _ _ _)) fun _ => trivial

/-- A refused insertion ends the request. -/
theorem endsAt_body (env : Env) (lib : Lib) (c : Request) :
    (c.body env lib).EndsAt IsInsertion := by
  -- Neither the lookup nor the dummy work inserts a token.
  have hfind : ∀ email, (split (AuthRepository.findByEmail email)).EndsAt IsInsertion := by
    intro email
    rw [split_findByEmail]
    exact .perform _ _
  have habsent : ∀ message : String, (split ((dummyAuthWork lib).bind fun _ => .ret message)).EndsAt
      IsInsertion := fun message =>
    endsAt_split_bind (endsAt_split_of_offDb quiet_dummyAuthWork) fun _ => trivial
  have hverification : (verificationTokenExpiry env).Issues Op.OffDb :=
    .bind (issues_op trivial) fun _ => trivial
  have hreset : (passwordResetTokenExpiry env).Issues Op.OffDb :=
    .bind (issues_op trivial) fun _ => trivial
  cases c with
  | resendVerification email =>
    refine endsAt_split_bind (hfind email) fun found => ?_
    cases found with
    | none => exact habsent _
    | some user =>
      simp only
      split_ifs
      · trivial
      · exact endsAt_issue hverification
  | requestPasswordReset email =>
    refine endsAt_split_bind (hfind email) fun found => ?_
    cases found with
    | none => exact habsent _
    | some user => exact endsAt_issue hreset

/-- A request that has ended. -/
def Ended (cfg : (system env lib).Config) (c : Request) (r : Except Err String) : Prop :=
  ∃ pid : ℕ, cfg.procs[pid]? = some (c, Prog.ofExcept r)

/-- Every request that has ended was answered with the message of its kind. -/
def Generic (cfg : (system env lib).Config) : Prop :=
  ∀ c r, Ended cfg c r → respond r = ⟨200, c.message⟩

/-- Requests that have ended in both runs, and are the same, were answered alike. -/
def Agree (cfg₁ cfg₂ : (system env lib).Config) : Prop :=
  ∀ c r₁ r₂, Ended cfg₁ c r₁ → Ended cfg₂ c r₂ → respond r₁ = respond r₂

/-- What a refused insertion is. -/
theorem insertion_of_refused {e : Entry requests Err World} {err : Err}
    (h : refused? e = some err) : IsInsertion e.op ∧ e.seen = .error err := by
  unfold refused? at h
  split at h
  · obtain rfl := Option.some.inj h
    exact ⟨⟨_, _, rfl⟩, rfl⟩
  · cases h

/-- In a run all responses are those messages exactly if no insertion is disturbed. -/
theorem generic_iff {init : World → Prop} {cfg : (system env lib).Config}
    (hr : (system env lib).Reachable init cfg) :
    Generic cfg ↔ ∀ e ∈ cfg.hist.log, Undisturbed e := by
  obtain ⟨hs, hends⟩ := sound hr
  constructor
  · intro hgeneric e he
    by_contra hdisturbed
    obtain ⟨hclear, -⟩ | ⟨-, hrefused⟩ := hs.settled e he
    · exact hdisturbed hclear
    obtain ⟨-, hpids, hreplays⟩ := System.replays hr
    obtain ⟨⟨c, p⟩, hp⟩ : ∃ x, cfg.procs[e.pid]? = some x :=
      ⟨_, List.getElem?_eq_getElem (hpids e he)⟩
    -- The refused insertion was the last operation of its request.
    have hown : e ∈ (cfg.hist.own e.pid).reverse :=
      List.mem_reverse.mpr (Hist.mem_own.mpr ⟨he, rfl⟩)
    obtain ⟨hop, hseen⟩ := insertion_of_refused hrefused
    have hthrow : p = .throw (.prisma .uniqueConstraint) :=
      (hreplays e.pid c p hp).of_endsAt (endsAt_body env lib c) hown hop hseen
    have hresponse := hgeneric c (.error (.prisma .uniqueConstraint)) ⟨e.pid, by
      rw [hp, hthrow]
      rfl⟩
    cases hresponse
  · rintro hall c r ⟨pid, hp⟩
    have hend := hends pid c r hp
    cases r with
    | ok m =>
      obtain ⟨hm, -⟩ := hend
      rw [hm]
      rfl
    | error err =>
      obtain ⟨e, he, hrefused⟩ := hend
      have hlog := (Hist.mem_own.mp he).1
      obtain ⟨-, hnone⟩ | ⟨hdisturbed, -⟩ := hs.settled e hlog
      · rw [hnone] at hrefused
        cases hrefused
      · exact absurd (hall e hlog) hdisturbed

end Run

/-- From any two states, whatever the mail provider does and however the requests interleave: if no
insertion is disturbed, both runs answer a request alike. The responses of a run are all those of an
address without an account exactly if none of its insertions is disturbed. -/
theorem responses_agree {env : Env} {lib : Lib} {w₁ w₂ : World}
    {cfg₁ cfg₂ : (system env lib).Config} (h₁ : (system env lib).Reachable (· = w₁) cfg₁)
    (h₂ : (system env lib).Reachable (· = w₂) cfg₂) :
    ((∀ e ∈ cfg₁.hist.log, Undisturbed e) → (∀ e ∈ cfg₂.hist.log, Undisturbed e) →
      Agree cfg₁ cfg₂) ∧
    (Generic cfg₁ ↔ ∀ e ∈ cfg₁.hist.log, Undisturbed e) ∧
    (Generic cfg₂ ↔ ∀ e ∈ cfg₂.hist.log, Undisturbed e) := by
  refine ⟨fun hall₁ hall₂ => ?_, generic_iff h₁, generic_iff h₂⟩
  have hgeneric₁ := (generic_iff h₁).mpr hall₁
  have hgeneric₂ := (generic_iff h₂).mpr hall₂
  intro c r₁ r₂ hended₁ hended₂
  rw [hgeneric₁ c r₁ hended₁, hgeneric₂ c r₂ hended₂]

instance (env : Env) (lib : Lib) : DecidablePred (system env lib).valid := fun _ => isTrue trivial

/-- A state in which nobody has an account. -/
def nobody : World := {}

/-- A state in which Ann has one, which she has not verified. -/
def unverified : World :=
  { db := { users := [⟨0, "Ann", "ann@example.com", none, none⟩], nextId := 1 } }

/-- A request for Ann's address. -/
def resend : Request := .resendVerification "ann@example.com"

/-- A request on its own, with `n` operations. -/
def single (n : ℕ) : List (System.Action (system {} .plain)) :=
  .spawn resend :: System.turns _ 0 ({} : Choice) n

/-- Two requests, the second of which deletes its tokens before the first one has inserted its
own. -/
def overlapping : List (System.Action (system {} .plain)) :=
  List.flatten [[.spawn resend, .spawn resend], System.turns _ 0 ({} : Choice) 4,
    System.turns _ 1 ({} : Choice) 4, System.turns _ 0 ({} : Choice) 3,
    System.turns _ 1 ({} : Choice) 1]

/-- What the request number `pid` was answered. -/
def answer? (cfg : (system {} .plain).Config) (pid : ℕ) : Option (Request × Option Response) :=
  (cfg.procs[pid]?).map fun p => (p.1, p.2.outcome?.map respond)

/-- A request with an answer has ended with it. -/
theorem ended_of_answer? {cfg : (system {} .plain).Config} {pid : ℕ} {c : Request} {a : Response}
    (h : answer? cfg pid = some (c, some a)) : ∃ r, Ended cfg c r ∧ respond r = a := by
  obtain ⟨⟨c', p⟩, hp, heq⟩ := Option.map_eq_some_iff.mp h
  obtain ⟨rfl, ha⟩ := Prod.mk.inj heq
  obtain ⟨r, hr, rfl⟩ := Option.map_eq_some_iff.mp ha
  refine ⟨r, ⟨pid, hp.trans ?_⟩, rfl⟩
  cases p with
  | ret m => rw [← Option.some.inj hr]; rfl
  | throw e => rw [← Option.some.inj hr]; rfl
  | call o k => cases hr

/-- While two requests for Ann's address overlap, one is answered with an error, and without an
account with the message. -/
theorem responses_reveal_account : ∃ cfg₁ cfg₂ : (system {} .plain).Config,
    (system {} .plain).Reachable (· = unverified) cfg₁ ∧
    (system {} .plain).Reachable (· = nobody) cfg₂ ∧ ¬Agree cfg₁ cfg₂ := by
  obtain ⟨cfg₁, hplay₁, hanswer₁⟩ : ∃ cfg₁,
      (system {} .plain).play overlapping ((system {} .plain).start unverified) = some cfg₁ ∧
      answer? cfg₁ 1 = some (resend, some
        ⟨500, "Something went wrong on our side. Please try again later."⟩) :=
    System.exists_of_play (by decide +kernel)
  obtain ⟨cfg₂, hplay₂, hanswer₂⟩ : ∃ cfg₂,
      (system {} .plain).play (single 3) ((system {} .plain).start nobody) = some cfg₂ ∧
      answer? cfg₂ 0 = some (resend, some ⟨200, genericVerificationMessage⟩) :=
    System.exists_of_play (by decide +kernel)
  refine ⟨cfg₁, cfg₂, System.reachable_of_play (fun _ _ _ => trivial) (.start rfl) hplay₁,
    System.reachable_of_play (fun _ _ _ => trivial) (.start rfl) hplay₂, fun hagree => ?_⟩
  obtain ⟨r₁, hended₁, hrespond₁⟩ := ended_of_answer? hanswer₁
  obtain ⟨r₂, hended₂, hrespond₂⟩ := ended_of_answer? hanswer₂
  have hsame : respond r₁ = respond r₂ := hagree resend r₁ r₂ hended₁ hended₂
  rw [hrespond₁, hrespond₂] at hsame
  have hstatus : 500 = 200 := congrArg Response.status hsame
  omega

/-- One request for Ann's address, in both states. -/
theorem responses_agree_single : ∃ cfg₁ cfg₂ : (system {} .plain).Config,
    answer? cfg₁ 0 = some (resend, some ⟨200, genericVerificationMessage⟩) ∧
    answer? cfg₂ 0 = some (resend, some ⟨200, genericVerificationMessage⟩) ∧
    Agree cfg₁ cfg₂ := by
  obtain ⟨cfg₁, hplay₁, hanswer₁, hall₁⟩ : ∃ cfg₁,
      (system {} .plain).play (single 7) ((system {} .plain).start unverified) = some cfg₁ ∧
      answer? cfg₁ 0 = some (resend, some ⟨200, genericVerificationMessage⟩) ∧
      ∀ e ∈ cfg₁.hist.log, Undisturbed e :=
    System.exists_of_play (by decide +kernel)
  obtain ⟨cfg₂, hplay₂, hanswer₂, hall₂⟩ : ∃ cfg₂,
      (system {} .plain).play (single 3) ((system {} .plain).start nobody) = some cfg₂ ∧
      answer? cfg₂ 0 = some (resend, some ⟨200, genericVerificationMessage⟩) ∧
      ∀ e ∈ cfg₂.hist.log, Undisturbed e :=
    System.exists_of_play (by decide +kernel)
  have hr₁ : (system {} .plain).Reachable (· = unverified) cfg₁ :=
    System.reachable_of_play (fun _ _ _ => trivial) (.start rfl) hplay₁
  have hr₂ : (system {} .plain).Reachable (· = nobody) cfg₂ :=
    System.reachable_of_play (fun _ _ _ => trivial) (.start rfl) hplay₂
  exact ⟨cfg₁, cfg₂, hanswer₁, hanswer₂, (responses_agree hr₁ hr₂).1 hall₁ hall₂⟩

end SplitBill.Enumeration
