import Mathlib.Algebra.BigOperators.Group.List.Basic
import Mathlib.Algebra.Ring.Int.Defs
import SplitBill.Prisma

/-!
# The summary repository

`src/modules/summary/summary.repository.ts`. `aggregateGroup` sends its four queries at once, and
the database answers them in any order, so each of them is an operation of its own.
-/

namespace SplitBill

/-- `GroupSummaryMetrics`. -/
structure GroupSummaryMetrics where
  totalSpentMinorUnits : ℤ := 0
  expenseCount : ℕ := 0
  settlementCount : ℕ := 0
  memberCount : ℕ := 0
  deriving DecidableEq

/-- The queries of `aggregateGroup`. -/
inductive Aggregate
  | totalSpent
  | expenseCount
  | settlementCount
  | memberCount
  deriving DecidableEq

/-- The metrics with the answer of one query filled in. -/
def Aggregate.fill (db : Db) (groupId : Id) (m : GroupSummaryMetrics) :
    Aggregate → GroupSummaryMetrics
  | totalSpent =>
    { m with totalSpentMinorUnits := ((db.expensesOf groupId).map (·.amountMinorUnits)).sum }
  | expenseCount => { m with expenseCount := (db.expensesOf groupId).length }
  | settlementCount => { m with settlementCount := (db.settlementsOf groupId).length }
  | memberCount => { m with memberCount := (db.membersOf groupId).length }

namespace Prisma

/-- `groupSummary.upsert`. -/
def groupSummaryUpsert (groupId : Id) (m : GroupSummaryMetrics) (computedAt : Time) (db : Db) :
    Except Err (GroupSummary × Db) :=
  let set : GroupSummary → GroupSummary := fun s =>
    { s with
      totalSpentMinorUnits := m.totalSpentMinorUnits
      expenseCount := m.expenseCount
      settlementCount := m.settlementCount
      memberCount := m.memberCount
      computedAt }
  match db.groupSummaries.find? (·.groupId = groupId) with
  | some summary =>
    .ok (set summary, { db with
      groupSummaries := updateWhere (·.groupId = groupId) set db.groupSummaries })
  | none =>
    if (db.group? groupId).isNone then .error (.prisma .foreignKey)
    else
      let summary := set ⟨db.nextId, groupId, 0, 0, 0, 0, "PKR", computedAt⟩
      .ok (summary, { db with
        groupSummaries := summary :: db.groupSummaries
        nextId := db.nextId + 1 })

end Prisma

/-- The metrics that a row holds. -/
def GroupSummary.metrics (s : GroupSummary) : GroupSummaryMetrics where
  totalSpentMinorUnits := s.totalSpentMinorUnits
  expenseCount := s.expenseCount
  settlementCount := s.settlementCount
  memberCount := s.memberCount

/-- The summary of a group. -/
def Db.summary? (db : Db) (groupId : Id) : Option GroupSummary :=
  db.groupSummaries.find? (·.groupId = groupId)

/-- What `groupSummary.upsert` does: the group's summary holds the metrics, and those of other
groups stay as they are. -/
structure Upserts (groupId : Id) (m : GroupSummaryMetrics) (s : GroupSummary) (db db' : Db) :
    Prop where
  metrics : s.metrics = m
  row : db'.summary? groupId = some s
  others : ∀ g, g ≠ groupId → db'.summary? g = db.summary? g
  rows : ∀ x ∈ db'.groupSummaries, x ∈ db.groupSummaries ∨ x.metrics = m
  frame : ∃ summaries nextId, db.nextId ≤ nextId ∧
    db' = { db with groupSummaries := summaries, nextId := nextId }

/-- An upsert writes the one row of its group. -/
theorem Prisma.groupSummaryUpsert_eq_ok {groupId : Id} {m : GroupSummaryMetrics}
    {computedAt : Time} {db db' : Db} {s : GroupSummary}
    (h : groupSummaryUpsert groupId m computedAt db = .ok (s, db')) :
    Upserts groupId m s db db' := by
  let set : GroupSummary → GroupSummary := fun x =>
    { x with
      totalSpentMinorUnits := m.totalSpentMinorUnits
      expenseCount := m.expenseCount
      settlementCount := m.settlementCount
      memberCount := m.memberCount
      computedAt }
  unfold groupSummaryUpsert at h
  cases hfind : db.groupSummaries.find? (·.groupId = groupId) with
  | some summary =>
    rw [hfind] at h
    obtain ⟨rfl, rfl⟩ := Prod.mk.inj (Except.ok.inj h)
    -- The group has a row, which is updated.
    have hgroup : summary.groupId = groupId := by simpa using List.find?_some hfind
    have hkeeps : ∀ g x, decide ((set x).groupId = g) = decide (x.groupId = g) := fun _ _ => rfl
    constructor
    · rfl
    · refine (find?_updateWhere (hkeeps groupId) db.groupSummaries).trans ?_
      rw [hfind, Option.map_some, if_pos (decide_eq_true hgroup)]
    · intro g hg
      refine (find?_updateWhere (hkeeps g) db.groupSummaries).trans ?_
      show Option.map _ (db.summary? g) = _
      cases hother : db.summary? g with
      | none => rfl
      | some x =>
        have hx : x.groupId = g := by simpa using List.find?_some hother
        rw [Option.map_some, if_neg]
        simpa [hx] using hg
    · intro x hx
      obtain ⟨y, hy, ⟨-, rfl⟩ | ⟨-, rfl⟩⟩ := mem_updateWhere.mp hx
      · exact .inr rfl
      · exact .inl hy
    · exact ⟨_, db.nextId, le_rfl, rfl⟩
  | none =>
    rw [hfind, ite_error_eq_ok] at h
    -- The group has no row, and one is inserted.
    obtain ⟨rfl, rfl⟩ := Prod.mk.inj (Except.ok.inj h.2)
    constructor
    · rfl
    · exact List.find?_cons_of_pos (decide_eq_true rfl)
    · intro g hg
      exact List.find?_cons_of_neg (by simpa using hg.symm)
    · intro x hx
      rcases List.mem_cons.mp hx with rfl | hx
      · exact .inr rfl
      · exact .inl hx
    · exact ⟨_, _, Nat.le_succ _, rfl⟩

/-- The methods of `SummaryRepository`. -/
inductive SummaryOp
  | findGroupById (id : Id)
  | isGroupMember (groupId userId : Id)
  | aggregate (groupId : Id) (m : GroupSummaryMetrics) (query : Aggregate)
  | upsertSummary (groupId : Id) (m : GroupSummaryMetrics) (computedAt : Time)
  | findSummaryByGroupId (groupId : Id)

namespace SummaryOp

/-- What a method answers. -/
abbrev Res : SummaryOp → Type
  | findGroupById _ => Option Group
  | isGroupMember _ _ => Bool
  | aggregate _ _ _ => GroupSummaryMetrics
  | upsertSummary _ _ _ => GroupSummary
  | findSummaryByGroupId _ => Option GroupSummary

/-- What a method does. -/
def access : (o : SummaryOp) → Access o.Res
  | findGroupById id => .read fun _ db => db.group? id
  | isGroupMember groupId userId => .read fun _ db => (db.member? groupId userId).isSome
  | aggregate groupId m query => .read fun _ db => query.fill db groupId m
  | upsertSummary groupId m computedAt =>
    .write fun _ _ => Tx.statement (Prisma.groupSummaryUpsert groupId m computedAt)
  | findSummaryByGroupId groupId => .read fun _ db =>
    db.groupSummaries.find? (·.groupId = groupId)

end SummaryOp

end SplitBill
