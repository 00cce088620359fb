import Mathlib.Data.Int.Notation
import Mathlib.Data.Nat.Notation
import Mathlib.Data.List.Basic

/-!
# The tables

The rows of `prisma/schema.prisma` and the database as a whole. An identifier stands for a UUID or
another random string that the server draws; `Db.nextId` is the next one to be drawn, so that a
drawn value is always new. Instants and durations are in milliseconds, and money is in minor units.
The split rows of an expense live and die with it, so they are kept in its row.
-/

namespace SplitBill

/-- A UUID or another random value that the server draws. -/
abbrev Id := ℕ

/-- An instant or a duration in milliseconds. -/
abbrev Time := ℕ

/-- A row of `User`. -/
structure User where
  id : Id
  name : String
  email : String
  passwordHash : Option String
  emailVerifiedAt : Option Time
  deriving DecidableEq

/-- The columns of a user that other members of a group may see. -/
structure SafeUser where
  id : Id
  name : String
  email : String
  deriving DecidableEq

/-- The columns that `safeUserSelect` selects. -/
def User.safe (u : User) : SafeUser := ⟨u.id, u.name, u.email⟩

/-- A row of `Group`. -/
structure Group where
  id : Id
  name : String
  createdById : Id
  createdAt : Time
  updatedAt : Time
  deriving DecidableEq

/-- A row of `GroupMember`. -/
structure GroupMember where
  id : Id
  groupId : Id
  userId : Id
  createdAt : Time
  deriving DecidableEq

/-- How an expense is divided. -/
inductive SplitType
  | equal
  | exact
  deriving DecidableEq

/-- A row of `ExpenseSplit`, within its expense. -/
structure ExpenseSplit where
  id : Id
  userId : Id
  amountMinorUnits : ℤ
  createdAt : Time
  deriving DecidableEq

/-- A row of `Expense` with its split rows. -/
structure Expense where
  id : Id
  groupId : Id
  paidById : Id
  description : String
  amountMinorUnits : ℤ
  currencyCode : String
  splitType : SplitType
  expenseDate : Time
  splits : List ExpenseSplit
  createdAt : Time
  updatedAt : Time
  deriving DecidableEq

/-- A row of `Settlement`. -/
structure Settlement where
  id : Id
  groupId : Id
  payerId : Id
  payeeId : Id
  amountMinorUnits : ℤ
  currencyCode : String
  settledAt : Time
  createdAt : Time
  updatedAt : Time
  deriving DecidableEq

/-- The kinds of activity events. -/
inductive ActivityType
  | expenseAdded
  | expenseUpdated
  | expenseDeleted
  | settlementAdded
  | groupCreated
  | groupUpdated
  | memberAdded
  | memberRemoved
  deriving DecidableEq

/-- A row of `ActivityEvent`. -/
structure ActivityEvent where
  id : Id
  groupId : Id
  userId : Id
  type : ActivityType
  message : String
  amountMinorUnits : Option ℤ
  currencyCode : Option String
  occurredAt : Time
  createdAt : Time
  deriving DecidableEq

/-- The event says that something of this type happened in this group. -/
def ActivityEvent.Records (event : ActivityEvent) (groupId : Id) (type : ActivityType) : Prop :=
  event.groupId = groupId ∧ event.type = type

/-- A row of `GroupSummary`. -/
structure GroupSummary where
  id : Id
  groupId : Id
  totalSpentMinorUnits : ℤ
  expenseCount : ℕ
  settlementCount : ℕ
  memberCount : ℕ
  currencyCode : String
  computedAt : Time
  deriving DecidableEq

/-- A row of `RefreshToken`. -/
structure RefreshToken where
  id : Id
  userId : Id
  tokenHash : Id
  expiresAt : Time
  revokedAt : Option Time
  createdAt : Time
  deriving DecidableEq

/-- What an `AuthToken` is good for. -/
inductive AuthTokenPurpose
  | emailVerification
  | passwordReset
  deriving DecidableEq

/-- A row of `AuthToken`. -/
structure AuthToken where
  id : Id
  userId : Id
  purpose : AuthTokenPurpose
  tokenHash : Id
  expiresAt : Time
  consumedAt : Option Time
  createdAt : Time
  deriving DecidableEq

/-- The state of an idempotency record. -/
inductive IdempotencyStatus
  | pending
  | completed
  deriving DecidableEq

/-- The operations of `IDEMPOTENCY_OPERATIONS`. -/
inductive IdempotencyOperation
  | settlementCreate
  deriving DecidableEq

/-- A row of `IdempotencyRecord`. -/
structure IdempotencyRecord where
  id : Id
  key : String
  userId : Id
  requestHash : String
  status : IdempotencyStatus
  operation : IdempotencyOperation
  scope : Option Id
  resourceId : Option Id
  createdAt : Time
  expiresAt : Time
  deriving DecidableEq

/-- The database. -/
structure Db where
  users : List User := []
  groups : List Group := []
  groupMembers : List GroupMember := []
  expenses : List Expense := []
  settlements : List Settlement := []
  activityEvents : List ActivityEvent := []
  groupSummaries : List GroupSummary := []
  refreshTokens : List RefreshToken := []
  authTokens : List AuthToken := []
  idempotencyRecords : List IdempotencyRecord := []
  /-- The next identifier to be drawn. -/
  nextId : Id := 0
  deriving DecidableEq

namespace Db

/-- The group with this id. -/
def group? (db : Db) (id : Id) : Option Group := db.groups.find? (·.id = id)

/-- The user with this id. -/
def user? (db : Db) (id : Id) : Option User := db.users.find? (·.id = id)

/-- The membership row of a user in a group. -/
def member? (db : Db) (groupId userId : Id) : Option GroupMember :=
  db.groupMembers.find? fun m => m.groupId = groupId ∧ m.userId = userId

/-- The expense with this id. -/
def expense? (db : Db) (id : Id) : Option Expense := db.expenses.find? (·.id = id)

/-- The settlement with this id. -/
def settlement? (db : Db) (id : Id) : Option Settlement := db.settlements.find? (·.id = id)

/-- The membership rows of a group. -/
def membersOf (db : Db) (groupId : Id) : List GroupMember :=
  db.groupMembers.filter (·.groupId = groupId)

/-- The users who are members of a group. -/
def memberIds (db : Db) (groupId : Id) : List Id := (db.membersOf groupId).map (·.userId)

/-- A member of a group has a row for it. -/
theorem mem_memberIds {db : Db} {groupId userId : Id} : userId ∈ db.memberIds groupId ↔
    ∃ m ∈ db.groupMembers, m.groupId = groupId ∧ m.userId = userId := by
  simp only [memberIds, membersOf, List.mem_map, List.mem_filter, decide_eq_true_eq, and_assoc]

/-- A user is a member when there is a membership row. -/
theorem isSome_member? {db : Db} {groupId userId : Id} :
    (db.member? groupId userId).isSome ↔ userId ∈ db.memberIds groupId := by
  simp only [member?, List.find?_isSome, decide_eq_true_eq, memberIds, membersOf, List.mem_map,
    List.mem_filter]
  constructor
  · rintro ⟨m, hm, hg, hu⟩
    exact ⟨m, ⟨hm, hg⟩, hu⟩
  · rintro ⟨m, ⟨hm, hg⟩, hu⟩
    exact ⟨m, hm, hg, hu⟩

/-- No row is found for those who are not members. -/
theorem member?_eq_none {db : Db} {groupId userId : Id} :
    db.member? groupId userId = none ↔ userId ∉ db.memberIds groupId := by
  rw [← isSome_member?, Option.not_isSome_iff_eq_none]

/-- The expenses of a group. -/
def expensesOf (db : Db) (groupId : Id) : List Expense := db.expenses.filter (·.groupId = groupId)

/-- The settlements of a group. -/
def settlementsOf (db : Db) (groupId : Id) : List Settlement :=
  db.settlements.filter (·.groupId = groupId)

/-- The columns of a user that are joined to another row. A foreign key names an existing user, so
the last case does not arise. -/
def safeUser (db : Db) (id : Id) : SafeUser :=
  match db.user? id with
  | some u => u.safe
  | none => ⟨id, "", ""⟩

end Db

end SplitBill
