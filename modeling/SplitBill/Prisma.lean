import SplitBill.Access

/-!
# Statements

The statements of the Prisma client that the repositories use, on one table each (`expense.create`
and `expense.update` also write the split rows that are nested in them), with the constraints of
`prisma/schema.prisma`: a unique constraint is checked before the foreign keys, and a group takes
the rows that belong to it along when it is deleted. A statement runs at the instant `now`, which
the columns with `@default(now())` and `@updatedAt` take.
-/

namespace SplitBill

/-- Rewrites the rows that a filter selects. -/
def updateWhere {α : Type} (p : α → Bool) (f : α → α) (rows : List α) : List α :=
  rows.map fun r => if p r then f r else r

/-- A row after an update is an old one, updated or kept. -/
theorem mem_updateWhere {α : Type} {p : α → Bool} {f : α → α} {rows : List α} {r : α} :
    r ∈ updateWhere p f rows ↔ ∃ x ∈ rows, (p x = true ∧ f x = r) ∨ (p x = false ∧ x = r) := by
  simp only [updateWhere, List.mem_map]
  refine exists_congr fun x => and_congr_right fun _ => ?_
  cases hp : p x <;> simp

/-- A row is left alone, or it is selected and replaced. -/
theorem updateWhere_cases {α : Type} {p : α → Bool} (f : α → α) {rows : List α} {a : α}
    (ha : a ∈ rows) :
    a ∈ updateWhere p f rows ∨ p a = true ∧ f a ∈ updateWhere p f rows := by
  cases hp : p a with
  | true => exact .inr ⟨rfl, mem_updateWhere.mpr ⟨a, ha, .inl ⟨hp, rfl⟩⟩⟩
  | false => exact .inl (mem_updateWhere.mpr ⟨a, ha, .inr ⟨hp, rfl⟩⟩)

/-- An update that selects no row. -/
theorem updateWhere_eq_self {α : Type} {p : α → Bool} {f : α → α} {rows : List α}
    (h : ∀ r ∈ rows, p r = false) : updateWhere p f rows = rows := by
  unfold updateWhere
  calc rows.map (fun r => if p r then f r else r)
      = rows.map id := List.map_congr_left fun r hr => by simp [h r hr]
    _ = rows := List.map_id rows

/-- An update that selects one row only. -/
theorem updateWhere_middle {α : Type} {p : α → Bool} {f : α → α} {x : α} {xs ys : List α}
    (hx : p x = true) (h : ∀ r ∈ xs ++ ys, p r = false) :
    updateWhere p f (xs ++ x :: ys) = xs ++ f x :: ys := by
  have happend : updateWhere p f (xs ++ x :: ys) =
      updateWhere p f xs ++ (if p x then f x else x) :: updateWhere p f ys := by
    unfold updateWhere
    rw [List.map_append, List.map_cons]
  rw [happend, if_pos hx, updateWhere_eq_self fun r hr => h r (List.mem_append_left _ hr),
    updateWhere_eq_self fun r hr => h r (List.mem_append_right _ hr)]

/-- An update that selects the first row only. -/
theorem updateWhere_cons {α : Type} {p : α → Bool} {f : α → α} {x : α} {rows : List α}
    (hx : p x = true) (h : ∀ r ∈ rows, p r = false) :
    updateWhere p f (x :: rows) = f x :: rows :=
  @updateWhere_middle α p f x [] rows hx h

/-- A column that no update of the rows touches reads the same afterwards. -/
theorem map_updateWhere {α β : Type} {p : α → Bool} {f : α → α} {g : α → β}
    (h : ∀ x, g (f x) = g x) (rows : List α) : (updateWhere p f rows).map g = rows.map g := by
  simp only [updateWhere, List.map_map]
  refine List.map_congr_left fun x _ => ?_
  show g (if p x then f x else x) = g x
  split
  · exact h x
  · rfl

/-- A search finds the row that it found before, as the update rewrote it. -/
theorem find?_updateWhere {α : Type} {p q : α → Bool} {f : α → α} (h : ∀ x, q (f x) = q x)
    (rows : List α) :
    (updateWhere p f rows).find? q = (rows.find? q).map fun r => if p r then f r else r := by
  have hq : (q ∘ fun r => if p r then f r else r) = q := by
    funext x
    show q (if p x then f x else x) = q x
    split
    · exact h x
    · rfl
  rw [updateWhere, List.find?_map, hq]

/-- An update of rows that a filter leaves out, and goes on leaving out. -/
theorem filter_updateWhere {α : Type} {p q : α → Bool} {f : α → α} {rows : List α}
    (h : ∀ x ∈ rows, p x = true → q x = false ∧ q (f x) = false) :
    (updateWhere p f rows).filter q = rows.filter q := by
  induction rows with
  | nil => rfl
  | cons x rows ih =>
    have ih := ih fun y hy => h y (List.mem_cons_of_mem _ hy)
    show ((if p x then f x else x) :: updateWhere p f rows).filter q = _
    by_cases hp : p x = true
    · obtain ⟨hx, hfx⟩ := h x List.mem_cons_self hp
      rw [if_pos hp, List.filter_cons_of_neg (by simp [hfx]),
        List.filter_cons_of_neg (by simp [hx]), ih]
    · rw [if_neg hp, List.filter_cons, List.filter_cons, ih]

/-- A property of a column carries over to rows with the same column. -/
theorem forall_mem_of_map_eq {α β : Type} {f : α → β} (P : β → Prop) {rows rows' : List α}
    (hmap : rows'.map f = rows.map f) (h : ∀ x ∈ rows, P (f x)) : ∀ x ∈ rows', P (f x) := by
  rw [← List.forall_mem_map] at h ⊢
  rwa [hmap]

/-- A new row with an entry of its own in a unique column. -/
theorem nodup_map_cons {α β : Type} {f : α → β} {x : α} {rows : List α}
    (hnew : ∀ y ∈ rows, f y ≠ f x) (h : (rows.map f).Nodup) : ((x :: rows).map f).Nodup := by
  rw [List.map_cons, List.nodup_cons]
  refine ⟨fun hmem => ?_, h⟩
  obtain ⟨y, hy, heq⟩ := List.mem_map.mp hmem
  exact hnew y hy heq

/-- A guard that passed. -/
@[simp] theorem ite_error_eq_ok {ε α : Type} {p : Prop} [Decidable p] {e : ε} {x : Except ε α}
    {a : α} : (if p then .error e else x) = .ok a ↔ ¬p ∧ x = .ok a := by
  by_cases h : p <;> simp [h]

namespace Prisma

variable (now : Time)

/-! ## Groups and memberships -/

/-- `group.create`. -/
def groupCreate (name : String) (createdById : Id) (db : Db) : Except Err (Group × Db) :=
  if (db.user? createdById).isNone then .error (.prisma .foreignKey)
  else
    let group : Group := ⟨db.nextId, name, createdById, now, now⟩
    .ok (group, { db with groups := group :: db.groups, nextId := db.nextId + 1 })

/-- `group.update` of the name. -/
def groupUpdate (id : Id) (name : String) (db : Db) : Except Err (Group × Db) :=
  match db.group? id with
  | none => .error (.prisma .recordNotFound)
  | some group =>
    let rename : Group → Group := fun g => { g with name, updatedAt := now }
    .ok (rename group, { db with groups := updateWhere (·.id = id) rename db.groups })

/-- `group.delete`, which cascades to everything that belongs to the group. -/
def groupDelete (id : Id) (db : Db) : Except Err (Unit × Db) :=
  if (db.group? id).isNone then .error (.prisma .recordNotFound)
  else .ok ((), { db with
    groups := db.groups.filter (·.id ≠ id)
    groupMembers := db.groupMembers.filter (·.groupId ≠ id)
    expenses := db.expenses.filter (·.groupId ≠ id)
    settlements := db.settlements.filter (·.groupId ≠ id)
    activityEvents := db.activityEvents.filter (·.groupId ≠ id)
    groupSummaries := db.groupSummaries.filter (·.groupId ≠ id) })

/-- `groupMember.create`. -/
def groupMemberCreate (groupId userId : Id) (db : Db) : Except Err (GroupMember × Db) :=
  if (db.member? groupId userId).isSome then .error (.prisma .uniqueConstraint)
  else if (db.group? groupId).isNone ∨ (db.user? userId).isNone then .error (.prisma .foreignKey)
  else
    let member : GroupMember := ⟨db.nextId, groupId, userId, now⟩
    .ok (member, { db with groupMembers := member :: db.groupMembers, nextId := db.nextId + 1 })

/-- `groupMember.delete`. -/
def groupMemberDelete (groupId userId : Id) (db : Db) : Except Err (Unit × Db) :=
  if (db.member? groupId userId).isNone then .error (.prisma .recordNotFound)
  else .ok ((), { db with
    groupMembers := db.groupMembers.filter fun m => ¬(m.groupId = groupId ∧ m.userId = userId) })

/-- When `group.create` is successful, and what it does. -/
theorem groupCreate_eq_ok {now : Time} {name : String} {createdById : Id} {db db' : Db} {g : Group}
    (h : groupCreate now name createdById db = .ok (g, db')) :
    g = ⟨db.nextId, name, createdById, now, now⟩ ∧
      db' = { db with groups := g :: db.groups, nextId := db.nextId + 1 } := by
  simp only [groupCreate, ite_error_eq_ok, Except.ok.injEq, Prod.mk.injEq] at h
  obtain ⟨-, rfl, rfl⟩ := h
  exact ⟨rfl, rfl⟩

/-- When `group.update` is successful, and what it does. -/
theorem groupUpdate_eq_ok {now : Time} {id : Id} {name : String} {db db' : Db} {g : Group}
    (h : groupUpdate now id name db = .ok (g, db')) :
    ∃ old, db.group? id = some old ∧ g = { old with name, updatedAt := now } ∧
      db' = { db with
        groups := updateWhere (·.id = id) (fun g => { g with name, updatedAt := now })
          db.groups } := by
  unfold groupUpdate at h
  cases hid : db.group? id with
  | none => simp [hid] at h
  | some old =>
    simp only [hid, Except.ok.injEq, Prod.mk.injEq] at h
    obtain ⟨rfl, rfl⟩ := h
    exact ⟨old, rfl, rfl, rfl⟩

/-- When `group.delete` is successful, and what it does. -/
theorem groupDelete_eq_ok {id : Id} {db db' : Db} {r : Unit}
    (h : groupDelete id db = .ok (r, db')) :
    db' = { db with
      groups := db.groups.filter (·.id ≠ id)
      groupMembers := db.groupMembers.filter (·.groupId ≠ id)
      expenses := db.expenses.filter (·.groupId ≠ id)
      settlements := db.settlements.filter (·.groupId ≠ id)
      activityEvents := db.activityEvents.filter (·.groupId ≠ id)
      groupSummaries := db.groupSummaries.filter (·.groupId ≠ id) } := by
  simp only [groupDelete, ite_error_eq_ok, Except.ok.injEq, Prod.mk.injEq] at h
  exact h.2.2.symm

/-- A group that was deleted was there. -/
theorem groupDelete_isSome {id : Id} {db db' : Db} {r : Unit}
    (h : groupDelete id db = .ok (r, db')) : (db.group? id).isSome := by
  simp only [groupDelete, ite_error_eq_ok, Option.isNone_iff_eq_none] at h
  exact Option.isSome_iff_ne_none.mpr h.1

/-- When `groupMember.create` is successful, and what it does. -/
theorem groupMemberCreate_eq_ok {now : Time} {groupId userId : Id} {db db' : Db} {m : GroupMember}
    (h : groupMemberCreate now groupId userId db = .ok (m, db')) :
    db.member? groupId userId = none ∧ (db.group? groupId).isSome ∧
      m = ⟨db.nextId, groupId, userId, now⟩ ∧
      db' = { db with groupMembers := m :: db.groupMembers, nextId := db.nextId + 1 } := by
  simp only [groupMemberCreate, ite_error_eq_ok, not_or, Bool.not_eq_true,
    Option.isSome_eq_false_iff, Option.isNone_iff_eq_none, Except.ok.injEq, Prod.mk.injEq] at h
  obtain ⟨hnone, ⟨hg, -⟩, rfl, rfl⟩ := h
  exact ⟨hnone, Option.isSome_iff_ne_none.mpr hg, rfl, rfl⟩

/-- When `groupMember.delete` is successful, and what it does. -/
theorem groupMemberDelete_eq_ok {groupId userId : Id} {db db' : Db} {r : Unit}
    (h : groupMemberDelete groupId userId db = .ok (r, db')) :
    (db.member? groupId userId).isSome ∧ db' = { db with
      groupMembers :=
        db.groupMembers.filter fun m => ¬(m.groupId = groupId ∧ m.userId = userId) } := by
  simp only [groupMemberDelete, ite_error_eq_ok, Option.isNone_iff_eq_none, Except.ok.injEq,
    Prod.mk.injEq] at h
  exact ⟨Option.isSome_iff_ne_none.mpr h.1, h.2.2.symm⟩

/-! ## Expenses -/

/-- `ExpenseCreateSplit`, which is also the `SplitAmount` of `split.util.ts`. -/
structure SplitAmount where
  userId : Id
  amountMinorUnits : ℤ
  deriving DecidableEq

/-- `CreateExpenseData`. -/
structure CreateExpenseData where
  groupId : Id
  paidById : Id
  description : String
  amountMinorUnits : ℤ
  currencyCode : String
  splitType : SplitType
  expenseDate : Time
  splits : List SplitAmount
  deriving DecidableEq

/-- The columns that an update of an expense sets. -/
structure UpdateExpenseData where
  paidById : Id
  description : String
  amountMinorUnits : ℤ
  splitType : SplitType
  expenseDate : Time
  splits : List SplitAmount
  deriving DecidableEq

/-- The nested `create` of split rows, which draws their ids from `firstId` on. -/
def newSplits (firstId : Id) : List SplitAmount → List ExpenseSplit
  | [] => []
  | s :: ss => ⟨firstId, s.userId, s.amountMinorUnits, now⟩ :: newSplits (firstId + 1) ss

/-- Split rows that the constraints admit: one row for each user, and every user exists. -/
def checkSplits (db : Db) (splits : List SplitAmount) : Except Err Unit :=
  if ¬(splits.map (·.userId)).Nodup then .error (.prisma .uniqueConstraint)
  else if splits.any fun s => (db.user? s.userId).isNone then .error (.prisma .foreignKey)
  else .ok ()

/-- `expense.create` with its nested split rows. -/
def expenseCreate (data : CreateExpenseData) (db : Db) : Except Err (Expense × Db) :=
  if (db.group? data.groupId).isNone ∨ (db.user? data.paidById).isNone then
    .error (.prisma .foreignKey)
  else
    match checkSplits db data.splits with
    | .error e => .error e
    | .ok () =>
      let expense : Expense :=
        { id := db.nextId
          groupId := data.groupId
          paidById := data.paidById
          description := data.description
          amountMinorUnits := data.amountMinorUnits
          currencyCode := data.currencyCode
          splitType := data.splitType
          expenseDate := data.expenseDate
          splits := newSplits now (db.nextId + 1) data.splits
          createdAt := now
          updatedAt := now }
      .ok (expense, { db with
        expenses := expense :: db.expenses
        nextId := db.nextId + 1 + data.splits.length })

/-- An expense whose columns and split rows are replaced. -/
def UpdateExpenseData.applyTo (data : UpdateExpenseData) (firstId : Id) (expense : Expense) :
    Expense :=
  { expense with
    paidById := data.paidById
    description := data.description
    amountMinorUnits := data.amountMinorUnits
    splitType := data.splitType
    expenseDate := data.expenseDate
    splits := newSplits now firstId data.splits
    updatedAt := now }

/-- `expense.update` with `splits: { deleteMany: {}, create }`. -/
def expenseUpdate (id : Id) (data : UpdateExpenseData) (db : Db) : Except Err (Expense × Db) :=
  match db.expense? id with
  | none => .error (.prisma .recordNotFound)
  | some expense =>
    if (db.user? data.paidById).isNone then .error (.prisma .foreignKey)
    else
      match checkSplits db data.splits with
      | .error e => .error e
      | .ok () =>
        .ok (data.applyTo now db.nextId expense, { db with
          expenses := updateWhere (·.id = id) (data.applyTo now db.nextId) db.expenses
          nextId := db.nextId + data.splits.length })

/-- `expense.delete`, which cascades to its split rows. -/
def expenseDelete (id : Id) (db : Db) : Except Err (Expense × Db) :=
  match db.expense? id with
  | none => .error (.prisma .recordNotFound)
  | some expense => .ok (expense, { db with expenses := db.expenses.filter (·.id ≠ id) })

/-- When `expense.create` is successful, and what it does. -/
theorem expenseCreate_eq_ok {now : Time} {data : CreateExpenseData} {db db' : Db} {e : Expense}
    (h : expenseCreate now data db = .ok (e, db')) :
    ((db.group? data.groupId).isSome ∧ (db.user? data.paidById).isSome ∧
      checkSplits db data.splits = .ok ()) ∧
    e = { id := db.nextId, groupId := data.groupId, paidById := data.paidById,
          description := data.description, amountMinorUnits := data.amountMinorUnits,
          currencyCode := data.currencyCode, splitType := data.splitType,
          expenseDate := data.expenseDate,
          splits := newSplits now (db.nextId + 1) data.splits,
          createdAt := now, updatedAt := now } ∧
    db' = { db with
      expenses := e :: db.expenses, nextId := db.nextId + 1 + data.splits.length } := by
  simp only [expenseCreate, ite_error_eq_ok, not_or, Option.isNone_iff_eq_none] at h
  obtain ⟨⟨hg, hp⟩, h⟩ := h
  cases hc : checkSplits db data.splits with
  | error err => simp [hc] at h
  | ok u =>
    simp only [hc, Except.ok.injEq, Prod.mk.injEq] at h
    obtain ⟨rfl, rfl⟩ := h
    exact ⟨⟨Option.isSome_iff_ne_none.mpr hg, Option.isSome_iff_ne_none.mpr hp, rfl⟩, rfl, rfl⟩

/-- When `expense.update` is successful, and what it does. -/
theorem expenseUpdate_eq_ok {now : Time} {id : Id} {data : UpdateExpenseData} {db db' : Db}
    {e : Expense} (h : expenseUpdate now id data db = .ok (e, db')) :
    ∃ old, db.expense? id = some old ∧ (db.user? data.paidById).isSome ∧
      checkSplits db data.splits = .ok () ∧ e = data.applyTo now db.nextId old ∧
      db' = { db with
        expenses := updateWhere (·.id = id) (data.applyTo now db.nextId) db.expenses
        nextId := db.nextId + data.splits.length } := by
  unfold expenseUpdate at h
  cases hid : db.expense? id with
  | none => simp [hid] at h
  | some old =>
    simp only [hid, ite_error_eq_ok, Option.isNone_iff_eq_none] at h
    obtain ⟨hp, h⟩ := h
    cases hc : checkSplits db data.splits with
    | error err => simp [hc] at h
    | ok u =>
      simp only [hc, Except.ok.injEq, Prod.mk.injEq] at h
      obtain ⟨rfl, rfl⟩ := h
      exact ⟨old, rfl, Option.isSome_iff_ne_none.mpr hp, rfl, rfl, rfl⟩

/-- When `expense.delete` is successful, and what it does. -/
theorem expenseDelete_eq_ok {id : Id} {db db' : Db} {e : Expense}
    (h : expenseDelete id db = .ok (e, db')) :
    db.expense? id = some e ∧ db' = { db with expenses := db.expenses.filter (·.id ≠ id) } := by
  unfold expenseDelete at h
  cases hid : db.expense? id with
  | none => simp [hid] at h
  | some old =>
    simp only [hid, Except.ok.injEq, Prod.mk.injEq] at h
    obtain ⟨rfl, rfl⟩ := h
    exact ⟨rfl, rfl⟩

/-! ## Settlements and idempotency records -/

/-- `SettlementCreateData`. -/
structure SettlementCreateData where
  groupId : Id
  payerId : Id
  payeeId : Id
  amountMinorUnits : ℤ
  currencyCode : String
  settledAt : Time
  deriving DecidableEq

/-- `settlement.create`. -/
def settlementCreate (data : SettlementCreateData) (db : Db) : Except Err (Settlement × Db) :=
  if (db.group? data.groupId).isNone ∨ (db.user? data.payerId).isNone ∨
      (db.user? data.payeeId).isNone then
    .error (.prisma .foreignKey)
  else
    let settlement : Settlement :=
      { id := db.nextId
        groupId := data.groupId
        payerId := data.payerId
        payeeId := data.payeeId
        amountMinorUnits := data.amountMinorUnits
        currencyCode := data.currencyCode
        settledAt := data.settledAt
        createdAt := now
        updatedAt := now }
    .ok (settlement, { db with
      settlements := settlement :: db.settlements
      nextId := db.nextId + 1 })

/-- The columns that a new idempotency record is given. -/
structure IdempotencyRecordData where
  key : String
  userId : Id
  requestHash : String
  status : IdempotencyStatus
  operation : IdempotencyOperation
  scope : Option Id
  expiresAt : Time
  deriving DecidableEq

/-- `idempotencyRecord.create`. -/
def idempotencyRecordCreate (data : IdempotencyRecordData) (db : Db) :
    Except Err (IdempotencyRecord × Db) :=
  if db.idempotencyRecords.any (·.key = data.key) then .error (.prisma .uniqueConstraint)
  else if (db.user? data.userId).isNone then .error (.prisma .foreignKey)
  else
    let record : IdempotencyRecord :=
      { id := db.nextId
        key := data.key
        userId := data.userId
        requestHash := data.requestHash
        status := data.status
        operation := data.operation
        scope := data.scope
        resourceId := none
        createdAt := now
        expiresAt := data.expiresAt }
    .ok (record, { db with
      idempotencyRecords := record :: db.idempotencyRecords
      nextId := db.nextId + 1 })

/-- `idempotencyRecord.deleteMany({ where: { id } })`. -/
def idempotencyRecordDeleteMany (id : Id) (db : Db) : Except Err (Unit × Db) :=
  .ok ((), { db with idempotencyRecords := db.idempotencyRecords.filter (·.id ≠ id) })

/-- `idempotencyRecord.update` of the status and the resource. -/
def idempotencyRecordUpdate (id : Id) (status : IdempotencyStatus) (resourceId : Id) (db : Db) :
    Except Err (Unit × Db) :=
  if db.idempotencyRecords.all (·.id ≠ id) then .error (.prisma .recordNotFound)
  else .ok ((), { db with
    idempotencyRecords := updateWhere (·.id = id)
      (fun r => { r with status, resourceId := some resourceId }) db.idempotencyRecords })

/-- When `settlement.create` is successful, and what it does. -/
theorem settlementCreate_eq_ok {now : Time} {data : SettlementCreateData} {db db' : Db}
    {s : Settlement} (h : settlementCreate now data db = .ok (s, db')) :
    ((db.group? data.groupId).isSome ∧ (db.user? data.payerId).isSome ∧
      (db.user? data.payeeId).isSome) ∧
    s = { id := db.nextId, groupId := data.groupId, payerId := data.payerId,
          payeeId := data.payeeId, amountMinorUnits := data.amountMinorUnits,
          currencyCode := data.currencyCode, settledAt := data.settledAt, createdAt := now,
          updatedAt := now } ∧
    db' = { db with settlements := s :: db.settlements, nextId := db.nextId + 1 } := by
  simp only [settlementCreate, ite_error_eq_ok, not_or, Option.isNone_iff_eq_none,
    Except.ok.injEq, Prod.mk.injEq] at h
  obtain ⟨⟨hg, hp, hq⟩, rfl, rfl⟩ := h
  exact ⟨⟨Option.isSome_iff_ne_none.mpr hg, Option.isSome_iff_ne_none.mpr hp,
    Option.isSome_iff_ne_none.mpr hq⟩, rfl, rfl⟩

/-- When `idempotencyRecord.create` is successful, and what it does. -/
theorem idempotencyRecordCreate_eq_ok {now : Time} {data : IdempotencyRecordData} {db db' : Db}
    {r : IdempotencyRecord} (h : idempotencyRecordCreate now data db = .ok (r, db')) :
    (∀ x ∈ db.idempotencyRecords, x.key ≠ data.key) ∧
    r = { id := db.nextId, key := data.key, userId := data.userId,
          requestHash := data.requestHash, status := data.status, operation := data.operation,
          scope := data.scope, resourceId := none, createdAt := now,
          expiresAt := data.expiresAt } ∧
    db' = { db with
      idempotencyRecords := r :: db.idempotencyRecords, nextId := db.nextId + 1 } := by
  simp only [idempotencyRecordCreate, ite_error_eq_ok, List.any_eq_true, decide_eq_true_eq,
    not_exists, not_and, Except.ok.injEq, Prod.mk.injEq] at h
  obtain ⟨hkey, -, rfl, rfl⟩ := h
  exact ⟨hkey, rfl, rfl⟩

/-! ## Activity events and summaries -/

/-- The columns that a new activity event is given. -/
structure ActivityEventData where
  groupId : Id
  userId : Id
  type : ActivityType
  message : String
  amountMinorUnits : Option ℤ
  currencyCode : Option String
  occurredAt : Time
  deriving DecidableEq

/-- `activityEvent.create`. -/
def activityEventCreate (data : ActivityEventData) (db : Db) : Except Err (Id × Db) :=
  if (db.group? data.groupId).isNone ∨ (db.user? data.userId).isNone then
    .error (.prisma .foreignKey)
  else
    let event : ActivityEvent :=
      { id := db.nextId
        groupId := data.groupId
        userId := data.userId
        type := data.type
        message := data.message
        amountMinorUnits := data.amountMinorUnits
        currencyCode := data.currencyCode
        occurredAt := data.occurredAt
        createdAt := now }
    .ok (event.id, { db with
      activityEvents := event :: db.activityEvents
      nextId := db.nextId + 1 })

/-! ## Users and tokens -/

/-- `user.create`. -/
def userCreate (name email passwordHash : String) (db : Db) : Except Err (User × Db) :=
  if db.users.any (·.email = email) then .error (.prisma .uniqueConstraint)
  else
    let user : User := ⟨db.nextId, name, email, some passwordHash, none⟩
    .ok (user, { db with users := user :: db.users, nextId := db.nextId + 1 })

/-- The columns that an update of a user sets. A column that is not given stays; the marker can also
be set to null. -/
structure UserData where
  name : Option String := none
  email : Option String := none
  emailVerifiedAt : Option (Option Time) := none
  deriving DecidableEq

/-- A user whose columns are replaced. -/
def UserData.applyTo (data : UserData) (user : User) : User :=
  { user with
    name := data.name.getD user.name
    email := data.email.getD user.email
    emailVerifiedAt := data.emailVerifiedAt.getD user.emailVerifiedAt }

/-- `user.update`. -/
def userUpdate (id : Id) (data : UserData) (db : Db) : Except Err (User × Db) :=
  match db.user? id with
  | none => .error (.prisma .recordNotFound)
  | some user =>
    if db.users.any fun u => u.id ≠ id ∧ u.email = (data.applyTo user).email then
      .error (.prisma .uniqueConstraint)
    else .ok (data.applyTo user, { db with
      users := updateWhere (·.id = id) data.applyTo db.users })

/-- `user.updateMany` of the password hash of one user, with the number of rows. -/
def userUpdatePassword (id : Id) (passwordHash : String) (db : Db) : Except Err (ℕ × Db) :=
  .ok (db.users.countP (·.id = id), { db with
    users := updateWhere (·.id = id) (fun u => { u with passwordHash := some passwordHash })
      db.users })

/-- `CreateRefreshTokenData`. -/
structure CreateRefreshTokenData where
  userId : Id
  tokenHash : Id
  expiresAt : Time
  deriving DecidableEq

/-- `refreshToken.create`. -/
def refreshTokenCreate (data : CreateRefreshTokenData) (db : Db) :
    Except Err (RefreshToken × Db) :=
  if db.refreshTokens.any (·.tokenHash = data.tokenHash) then .error (.prisma .uniqueConstraint)
  else if (db.user? data.userId).isNone then .error (.prisma .foreignKey)
  else
    let token : RefreshToken :=
      ⟨db.nextId, data.userId, data.tokenHash, data.expiresAt, none, now⟩
    .ok (token, { db with
      refreshTokens := token :: db.refreshTokens
      nextId := db.nextId + 1 })

/-- `refreshToken.updateMany` that revokes the unrevoked tokens among the selected ones, with the
number of rows. -/
def refreshTokenRevoke (p : RefreshToken → Bool) (revokedAt : Time) (db : Db) :
    Except Err (ℕ × Db) :=
  .ok (db.refreshTokens.countP fun t => p t ∧ t.revokedAt = none, { db with
    refreshTokens := updateWhere (fun t => p t ∧ t.revokedAt = none)
      (fun t => { t with revokedAt := some revokedAt }) db.refreshTokens })

/-- `CreateAuthTokenData`. -/
structure CreateAuthTokenData where
  userId : Id
  purpose : AuthTokenPurpose
  tokenHash : Id
  expiresAt : Time
  deriving DecidableEq

/-- `authToken.create`. -/
def authTokenCreate (data : CreateAuthTokenData) (db : Db) : Except Err (AuthToken × Db) :=
  if db.authTokens.any fun t => t.tokenHash = data.tokenHash ∨
      t.userId = data.userId ∧ t.purpose = data.purpose then
    .error (.prisma .uniqueConstraint)
  else if (db.user? data.userId).isNone then .error (.prisma .foreignKey)
  else
    let token : AuthToken :=
      ⟨db.nextId, data.userId, data.purpose, data.tokenHash, data.expiresAt, none, now⟩
    .ok (token, { db with
      authTokens := token :: db.authTokens
      nextId := db.nextId + 1 })

/-- `authToken.deleteMany` of a user's tokens of one purpose. -/
def authTokenDeleteMany (userId : Id) (purpose : AuthTokenPurpose) (db : Db) :
    Except Err (Unit × Db) :=
  .ok ((), { db with
    authTokens := db.authTokens.filter fun t => ¬(t.userId = userId ∧ t.purpose = purpose) })

/-- `authToken.updateMany` that consumes a token which is not consumed yet, with the number of
rows. -/
def authTokenConsume (id : Id) (consumedAt : Time) (db : Db) : Except Err (ℕ × Db) :=
  .ok (db.authTokens.countP fun t => t.id = id ∧ t.consumedAt = none, { db with
    authTokens := updateWhere (fun t => t.id = id ∧ t.consumedAt = none)
      (fun t => { t with consumedAt := some consumedAt }) db.authTokens })

end Prisma

end SplitBill
