import Mathlib.Data.Rat.Defs
import SplitBill.Errors
import SplitBill.Redis
import SplitBill.Schema

/-!
# The world of the backend

What the server processes and the worker processes share: PostgreSQL, Redis, the clock, the mail
that was sent, and the counters of `src/metrics/registry.ts`. `Env` is the configuration of
`src/config/env.ts`, and `Lib` stands for functions of the platform and of third-party packages.
-/

namespace SplitBill

/-! ## Configuration -/

/-- The values of `src/config/env.ts` that the modelled code reads. -/
structure Env where
  refreshTokenTtlDays : ℕ := 30
  emailVerificationTokenTtlMinutes : ℕ := 1440
  passwordResetTokenTtlMinutes : ℕ := 60
  cacheGroupTtlSeconds : ℕ := 300
  distributedLockTtlMs : ℕ := 10000
  jobQueueMaxAttempts : ℕ := 5
  jobQueueBaseBackoffMs : ℕ := 2000
  jobQueueMaxBackoffMs : ℕ := 60000
  jobQueueLeaseMs : ℕ := 30000
  jobQueuePayloadTtlMs : ℕ := 86400000

/-! ## JSON -/

/-- The text of a JSON string: an identifier, the `toISOString` of an instant, or another text. -/
inductive Text
  | id (n : Id)
  | iso (t : Time)
  | lit (s : String)
  deriving DecidableEq

/-- A JSON value. -/
inductive Json
  | null
  | bool (b : Bool)
  | num (q : ℚ)
  | str (t : Text)
  | arr (items : List Json)
  | obj (fields : List (String × Json))

mutual

/-- Two JSON values have the same text. -/
def Json.same : Json → Json → Bool
  | .null, .null => true
  | .bool a, .bool b => a == b
  | .num a, .num b => a == b
  | .str a, .str b => a == b
  | .arr a, .arr b => Json.sameItems a b
  | .obj a, .obj b => Json.sameFields a b
  | _, _ => false

/-- Two arrays have the same text. -/
def Json.sameItems : List Json → List Json → Bool
  | [], [] => true
  | a :: as, b :: bs => Json.same a b && Json.sameItems as bs
  | _, _ => false

/-- Two objects have the same text. -/
def Json.sameFields : List (String × Json) → List (String × Json) → Bool
  | [], [] => true
  | (k, a) :: as, (l, b) :: bs => k == l && Json.same a b && Json.sameFields as bs
  | _, _ => false

end

instance : BEq Json := ⟨Json.same⟩

/-- Equality with a string. -/
theorem Json.beq_str {j : Json} {t : Text} : (j == .str t) = true ↔ j = .str t := by
  cases j with
  | str s =>
    show (s == t) = true ↔ _
    simp
  | _ =>
    refine ⟨fun h => ?_, by rintro ⟨⟩⟩
    have hfalse : false = true := h
    cases hfalse

/-- The value of a property. `JSON.parse` keeps the last one of several with the same name, and a
value that is no object has none. -/
def Json.get? (j : Json) (key : String) : Option Json :=
  match j with
  | obj fields => (fields.reverse.find? (·.1 = key)).map (·.2)
  | _ => none

/-- A string in Redis: the text of a JSON value, a random token, or a text that is neither. -/
inductive Stored
  | json (j : Json)
  | token (n : Id)
  | other (s : String)
  deriving BEq

/-- `JSON.parse`, without a value where it throws. -/
def Stored.parse : Stored → Option Json
  | json j => some j
  | token _ => none
  | other _ => none

/-! ## Library functions -/

/-- The functions that the code takes from Node and from `bcryptjs`. -/
structure Lib where
  /-- `createHash("sha256")` of a token, in hex. -/
  sha256 : Id → Id
  /-- `bcrypt.hash`, with the salt that it draws. -/
  bcryptHash : String → Id → String
  /-- `bcrypt.compare`. -/
  bcryptCompare : String → String → Bool
  /-- `new Date` of a text that no `toISOString` wrote. -/
  parseDate : Text → Option Time
  /-- The characters of a text. -/
  characters : Text → String
  /-- The identifier that a text is compared with. -/
  identifier : Text → Id
  /-- `toLowerCase`, which goes by the tables of Unicode. -/
  toLowerCase : String → String

/-- Functions to run the code with: digests that are the secrets themselves, and ASCII letters. -/
def Lib.plain : Lib where
  sha256 := id
  bcryptHash password _ := password
  bcryptCompare password hash := password = hash
  parseDate _ := none
  characters _ := ""
  identifier _ := 0
  toLowerCase s := String.ofList (s.toList.map Char.toLower)

/-! ## Redis keys -/

/-- `JOB_TYPES`. -/
inductive JobType
  | groupSummaryRecompute
  deriving DecidableEq

/-- The Redis keys, one constructor for each template. -/
inductive Key
  /-- `job:queue:{type}`. -/
  | jobQueue (type : JobType)
  /-- `job:data:{jobId}`. -/
  | jobData (jobId : Id)
  /-- `job:inflight:{jobId}`. -/
  | jobInflight (jobId : Id)
  /-- `cache:group:{groupId}`. -/
  | cacheGroup (groupId : Id)
  /-- `lock:settlement:group:{groupId}`. -/
  | lockSettlementGroup (groupId : Id)
  deriving DecidableEq

/-! ## Mail and metrics -/

/-- `EMAIL_OPERATION`. -/
inductive EmailOperation
  | verification
  | passwordReset
  deriving DecidableEq

/-- A mail with an action link. -/
structure Mail where
  operation : EmailOperation
  recipient : String
  /-- The token in the link. -/
  token : Id
  userName : String
  deriving DecidableEq

/-- The counters that the modelled code increments, with their labels. -/
inductive Metric
  | usersRegisteredTotal
  | groupsCreatedTotal
  | expensesCreatedTotal
  | expensesUpdatedTotal
  | expensesDeletedTotal
  | settlementsCreatedTotal
  | activityEventsCreatedTotal (type : ActivityType)
  | backgroundJobsSucceededTotal (type : JobType)
  | backgroundJobsFailedTotal (type : JobType)
  | backgroundJobsRetriedTotal (type : JobType)
  | backgroundJobsDiscardedTotal (type : JobType)
  | cacheFailuresTotal (operation : String)
  | queueFailuresTotal
  | emailsSentTotal (operation : EmailOperation)
  | emailSendFailuresTotal (operation : EmailOperation)
  deriving DecidableEq

/-! ## The world -/

/-- The shared state. -/
structure World where
  db : Db := {}
  redis : Redis Key Stored := {}
  /-- The clock. The processes and the stores read one clock. -/
  now : Time := 0
  /-- The next random value that a process draws. -/
  random : Id := 0
  /-- The mail that was sent, latest first. -/
  outbox : List Mail := []
  /-- The increments of the counters, latest first. -/
  metrics : List Metric := []

/-- Time passes. -/
def World.Later (w w' : World) : Prop := ∃ t, w.now ≤ t ∧ w' = { w with now := t }

/-- The world after `ms` milliseconds. -/
def World.wait (ms : ℕ) (w : World) : World := { w with now := w.now + ms }

/-- Now is not earlier than now. -/
theorem World.later_refl (w : World) : w.Later w := ⟨w.now, le_rfl, rfl⟩

/-- A wait ends later. -/
theorem World.later_wait (ms : ℕ) (w : World) : w.Later (w.wait ms) :=
  ⟨_, Nat.le_add_right _ _, rfl⟩

/-- Later than later is later. -/
theorem World.Later.trans {a b c : World} (h₁ : a.Later b) (h₂ : b.Later c) : a.Later c := by
  obtain ⟨t₁, ht₁, rfl⟩ := h₁
  obtain ⟨t₂, ht₂, rfl⟩ := h₂
  exact ⟨t₂, le_trans ht₁ ht₂, rfl⟩

end SplitBill
