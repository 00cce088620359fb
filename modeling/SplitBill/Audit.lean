import SplitBill.Rows
import SplitBill.Scope

/-!
# The audit trail

Every transaction that adds or removes a row of a group records an event with it, so the events of a
group account for its rows: `Audited` says this of the rows of one group. A step changes the rows of
one group only, and there it adds or drops one row together with one event.
-/

namespace SplitBill

open Interleave

/-- The number of events of a type. -/
def GroupRows.eventCount (rows : GroupRows) (type : ActivityType) : ℕ :=
  rows.events.countP (·.type = type)

/-- The events of a group account for its rows. -/
structure Audited (rows : GroupRows) : Prop where
  created : rows.eventCount .groupCreated = 1
  expenses :
    rows.expenses.length + rows.eventCount .expenseDeleted = rows.eventCount .expenseAdded
  settlements : rows.settlements.length = rows.eventCount .settlementAdded
  members :
    rows.members.length + rows.eventCount .memberRemoved = 1 + rows.eventCount .memberAdded

/-- One step: an event, and the row that goes with it. -/
theorem Audited.step {rows rows' : GroupRows} {event : ActivityEvent} (h : Audited rows)
    (hevents : rows'.events = event :: rows.events) (hcreated : event.type ≠ .groupCreated)
    (hexpenses : rows'.expenses.length + (if event.type = .expenseDeleted then 1 else 0) =
      rows.expenses.length + if event.type = .expenseAdded then 1 else 0)
    (hsettlements : rows'.settlements.length =
      rows.settlements.length + if event.type = .settlementAdded then 1 else 0)
    (hmembers : rows'.members.length + (if event.type = .memberRemoved then 1 else 0) =
      rows.members.length + if event.type = .memberAdded then 1 else 0) : Audited rows' := by
  have hcount : ∀ type, rows'.eventCount type =
      rows.eventCount type + if event.type = type then 1 else 0 := by
    intro type
    unfold GroupRows.eventCount
    rw [hevents, List.countP_cons]
    simp only [decide_eq_true_eq]
  -- Each equation of the books counts one kind of event against one kind of row.
  have hc := h.created
  have he := h.expenses
  have hs := h.settlements
  have hm := h.members
  constructor
  case created =>
    rw [hcount, if_neg hcreated]
    exact hc
  case expenses =>
    rw [hcount, hcount]
    omega
  case settlements =>
    rw [hcount]
    omega
  case members =>
    rw [hcount, hcount]
    omega

/-- No row and no event. -/
structure GroupRows.Blank (rows : GroupRows) : Prop where
  members : rows.members = []
  expenses : rows.expenses = []
  settlements : rows.settlements = []
  events : rows.events = []

/-- The books are in order: the events of every group account for its rows, and a row is the only
one with its id. -/
structure Books (d : Db) : Prop where
  audited : ∀ g ∈ d.groups, Audited (d.rowsOf g.id)
  group_lt : ∀ g ∈ d.groups, g.id < d.nextId
  member_nodup : (d.groupMembers.map fun m => (m.groupId, m.userId)).Nodup
  expense_lt : ∀ e ∈ d.expenses, e.id < d.nextId
  expense_nodup : (d.expenses.map (·.id)).Nodup
  /-- An id that is yet to be drawn has no rows. -/
  blank : ∀ id, d.nextId ≤ id → (d.rowsOf id).Blank

/-- A step that changes the rows of one group. -/
theorem Books.step {d d' : Db} {groupId : Id} (h : Books d) (hlt : groupId < d.nextId)
    (hn : d.nextId ≤ d'.nextId) (hother : ∀ id, groupId ≠ id → d'.rowsOf id = d.rowsOf id)
    (hgroups : ∀ g' ∈ d'.groups, ∃ g ∈ d.groups, g.id = g'.id)
    (haudited : (∃ g ∈ d'.groups, g.id = groupId) → Audited (d.rowsOf groupId) →
      Audited (d'.rowsOf groupId))
    (hmember : (d'.groupMembers.map fun m => (m.groupId, m.userId)).Nodup)
    (hexpense : ∀ e ∈ d'.expenses, e.id < d'.nextId) (hids : (d'.expenses.map (·.id)).Nodup) :
    Books d' := by
  constructor
  case audited =>
    intro g' hg'
    obtain ⟨g, hg, heq⟩ := hgroups g' hg'
    have hold := heq ▸ h.audited g hg
    -- Only the group of the event is at stake: the rows of the others are as they were.
    by_cases hgroup : groupId = g'.id
    · subst hgroup
      exact haudited ⟨g', hg', rfl⟩ hold
    · rw [hother _ hgroup]
      exact hold
  case group_lt =>
    intro g' hg'
    obtain ⟨g, hg, heq⟩ := hgroups g' hg'
    exact heq ▸ lt_of_lt_of_le (h.group_lt g hg) hn
  case member_nodup => exact hmember
  case expense_lt => exact hexpense
  case expense_nodup => exact hids
  case blank =>
    intro id hid
    have hle := le_trans hn hid
    rw [hother id (lt_of_lt_of_le hlt hle).ne]
    exact h.blank id hle

/-! ## What each transaction does to the books -/

section Transactions

variable {d d' : Db}

/-- A row that is the only one with its key is the only one that is dropped by it. -/
theorem length_filter_drop {α κ : Type} [DecidableEq κ] {key : α → κ} {rows : List α} {r : α}
    (hnodup : (rows.map key).Nodup) (hr : r ∈ rows) {q : α → Bool} (hq : q r = true) :
    ((rows.filter fun x => ¬key x = key r).filter q).length + 1 = (rows.filter q).length := by
  have hone : rows.filter (fun x => key x = key r) = [r] := by
    have hnodup' : rows.Nodup := hnodup.of_map
    have hmem : ∀ x, x ∈ rows.filter (fun x => key x = key r) ↔ x ∈ [r] := by
      intro x
      rw [List.mem_filter, List.mem_singleton, decide_eq_true_eq]
      refine ⟨fun ⟨hx, hkey⟩ => List.inj_on_of_nodup_map hnodup hx hr hkey, ?_⟩
      rintro rfl
      exact ⟨hr, rfl⟩
    have hperm := (List.perm_ext_iff_of_nodup (hnodup'.filter _) (List.nodup_singleton r)).mpr hmem
    exact List.perm_singleton.mp hperm
  have hsplit := List.length_eq_countP_add_countP (fun x => decide (key x = key r))
    (l := rows.filter q)
  have hkept : (rows.filter q).countP (fun x => decide (key x = key r)) = 1 := by
    rw [List.countP_eq_length_filter, List.filter_comm, hone]
    simp [hq]
  rw [hsplit, hkept, List.countP_eq_length_filter, List.filter_comm, Nat.add_comm]
  simp

/-- The books do not mind what they do not count. -/
theorem Books.of_elsewhere (h : Books d) (he : Elsewhere d d') : Books d' := by
  have hrows : ∀ id, (d'.rowsOf id).members = (d.rowsOf id).members ∧
      (d'.rowsOf id).expenses = (d.rowsOf id).expenses ∧
      (d'.rowsOf id).settlements = (d.rowsOf id).settlements ∧
      (d'.rowsOf id).events = (d.rowsOf id).events := by
    intro id
    simp only [Db.rowsOf, Db.membersOf, Db.expensesOf, Db.settlementsOf, he.members, he.expenses,
      he.settlements, he.events, and_self]
  constructor
  case audited =>
    intro g hg
    -- The books are read off these four tables, and none of them has changed.
    obtain ⟨hm, hx, hs, hev⟩ := hrows g.id
    obtain ⟨h₁, h₂, h₃, h₄⟩ := h.audited g (he.groups ▸ hg)
    constructor <;> simp only [GroupRows.eventCount, hm, hx, hs, hev]
    · exact h₁
    · exact h₂
    · exact h₃
    · exact h₄
  case group_lt =>
    intro g hg
    exact lt_of_lt_of_le (h.group_lt g (he.groups ▸ hg)) he.nextId
  case member_nodup =>
    rw [he.members]
    exact h.member_nodup
  case expense_lt =>
    intro e hmem
    exact lt_of_lt_of_le (h.expense_lt e (he.expenses ▸ hmem)) he.nextId
  case expense_nodup =>
    rw [he.expenses]
    exact h.expense_nodup
  case blank =>
    intro id hid
    obtain ⟨hm, hx, hs, hev⟩ := hrows id
    obtain ⟨h₁, h₂, h₃, h₄⟩ := h.blank id (le_trans he.nextId hid)
    exact ⟨hm.trans h₁, hx.trans h₂, hs.trans h₃, hev.trans h₄⟩

/-- An event more in the table is one more of its group. -/
theorem events_rowsOf_cons {event : ActivityEvent} {groupId : Id}
    (h : d'.activityEvents = event :: d.activityEvents) (hg : event.groupId = groupId) :
    (d'.rowsOf groupId).events = event :: (d.rowsOf groupId).events := by
  simp only [Db.rowsOf, h]
  exact List.filter_cons_of_pos (decide_eq_true hg)

/-- The id of a group has been taken. -/
theorem lt_of_group (h : Books d) {groupId : Id} (hg : (d.group? groupId).isSome) :
    groupId < d.nextId := by
  obtain ⟨g, hg⟩ := Option.isSome_iff_exists.mp hg
  have hid : g.id = groupId := by simpa using List.find?_some hg
  exact hid ▸ h.group_lt g (List.mem_of_find?_eq_some hg)

/-- A new group begins its books with its event. -/
theorem createGroup_books (h : Books d) {now : Time} {ownerId : Id} {name : String}
    {a : ActivityEventInput} (ha : a.type = .groupCreated) {g : Group}
    (heval : (createGroupWithOwner now ownerId name a).eval d = .ok (g, d')) : Books d' := by
  obtain ⟨event, hg, -, ⟨hgroup, htype⟩, hdb⟩ := createGroupWithOwner_eq_ok heval
  have hid : g.id = d.nextId := by rw [hg]
  have hblank := h.blank g.id hid.ge
  have hn : d'.nextId = d.nextId + 3 := by rw [hdb]
  have hother : ∀ id, g.id ≠ id → d'.rowsOf id = d.rowsOf id := by
    intro id hne
    rw [hdb]
    unfold Db.rowsOf
    congr 1
    · exact List.filter_cons_of_neg (by simpa using hne)
    · exact List.filter_cons_of_neg (by simpa using hne)
    · exact List.filter_cons_of_neg (by simpa [hgroup] using hne)
  -- The new group has its owner and one event.
  have hnew : Audited (d'.rowsOf g.id) := by
    have hevents : (d'.rowsOf g.id).events = [event] := by
      rw [hdb]
      simp only [Db.rowsOf]
      rw [List.filter_cons_of_pos (by simpa using hgroup)]
      exact congrArg _ hblank.events
    have hmembers : (d'.rowsOf g.id).members = [⟨d.nextId + 1, g.id, ownerId, now⟩] := by
      rw [hdb]
      simp only [Db.rowsOf, Db.membersOf]
      rw [List.filter_cons_of_pos (by simp)]
      exact congrArg _ hblank.members
    have hexpenses : (d'.rowsOf g.id).expenses = [] := by
      rw [hdb]
      exact hblank.expenses
    have hsettlements : (d'.rowsOf g.id).settlements = [] := by
      rw [hdb]
      exact hblank.settlements
    have htype : event.type = .groupCreated := htype.trans ha
    constructor <;> simp [GroupRows.eventCount, hevents, hmembers, hexpenses, hsettlements, htype]
  constructor
  case audited =>
    intro g' hg'
    rw [hdb] at hg'
    rcases List.mem_cons.mp hg' with rfl | hg'
    · exact hnew
    · rw [hother _ (hid ▸ (h.group_lt g' hg').ne')]
      exact h.audited g' hg'
  case group_lt =>
    intro g' hg'
    rw [hdb] at hg'
    rcases List.mem_cons.mp hg' with rfl | hg'
    · exact hn ▸ lt_of_le_of_lt hid.le (Nat.lt_add_of_pos_right (by decide))
    · exact hn ▸ lt_of_lt_of_le (h.group_lt g' hg') (Nat.le_add_right _ 3)
  case member_nodup =>
    rw [hdb]
    refine nodup_map_cons (fun m hm heq => ?_) h.member_nodup
    have hm' : m ∈ (d.rowsOf g.id).members :=
      List.mem_filter.mpr ⟨hm, decide_eq_true (Prod.mk.inj heq).1⟩
    rw [hblank.members] at hm'
    cases hm'
  case expense_lt =>
    intro e he
    rw [hdb] at he
    exact hn ▸ lt_of_lt_of_le (h.expense_lt e he) (Nat.le_add_right _ 3)
  case expense_nodup =>
    rw [hdb]
    exact h.expense_nodup
  case blank =>
    intro id hle
    have hlt : d.nextId < id := lt_of_lt_of_le (hn ▸ Nat.lt_add_of_pos_right (by decide)) hle
    rw [hother id (hid ▸ hlt.ne)]
    exact h.blank id hlt.le

/-- A renamed group has one event more. -/
theorem updateGroup_books (h : Books d) {now : Time} {id : Id} {name : String}
    {a : ActivityEventInput} (ha : a.type = .groupUpdated) {g : Group}
    (heval : (updateGroupWithEvent now id name a).eval d = .ok (g, d')) : Books d' := by
  have hother : ∀ other, id ≠ other → d'.rowsOf other = d.rowsOf other :=
    fun other hne => UpdatesGroup.rowsOf hne ⟨now, a, g, heval⟩
  obtain ⟨old, event, hold, rfl, ⟨hgroup, htype⟩, hdb⟩ := updateGroupWithEvent_eq_ok heval
  have hid : old.id = id := by simpa using List.find?_some hold
  have hn : d'.nextId = d.nextId + 1 := by rw [hdb]
  refine h.step (lt_of_group h (by rw [hold]; rfl)) (hn ▸ Nat.le_succ _) hother
    ?groups ?audited ?member ?expense ?ids
  case groups =>
    intro g' hg'
    rw [hdb] at hg'
    obtain ⟨x, hx, ⟨-, rfl⟩ | ⟨-, rfl⟩⟩ := mem_updateWhere.mp hg'
    · exact ⟨x, hx, rfl⟩
    · exact ⟨x, hx, rfl⟩
  case audited =>
    intro _ haudit
    have htype : event.type = .groupUpdated := htype.trans ha
    have hevents : (d'.rowsOf id).events = event :: (d.rowsOf id).events :=
      events_rowsOf_cons (by rw [hdb]) (hgroup.trans hid)
    -- A rename neither adds nor removes rows, and its event is of a kind that counts none.
    refine haudit.step hevents ?_ ?_ ?_ ?_ <;>
      simp [hdb, htype, Db.rowsOf, Db.membersOf, Db.expensesOf, Db.settlementsOf]
  case member =>
    rw [hdb]
    exact h.member_nodup
  case expense =>
    intro e he
    rw [hdb] at he
    exact hn ▸ lt_of_lt_of_le (h.expense_lt e he) (Nat.le_succ _)
  case ids =>
    rw [hdb]
    exact h.expense_nodup

/-- A group is deleted with its events. -/
theorem deleteGroup_books (h : Books d) {id : Id} (hc : DeletesGroup id d d') : Books d' := by
  have hother : ∀ other, id ≠ other → d'.rowsOf other = d.rowsOf other :=
    fun other hne => DeletesGroup.rowsOf hne hc
  have hlt : id < d.nextId := lt_of_group h (Prisma.groupDelete_isSome hc)
  obtain rfl := Prisma.groupDelete_eq_ok hc
  refine h.step hlt (le_refl _) hother ?groups ?audited ?member ?expense ?ids
  case groups => exact fun g' hg' => ⟨g', (List.mem_filter.mp hg').1, rfl⟩
  case audited =>
    rintro ⟨g, hg, rfl⟩
    exact absurd rfl (of_decide_eq_true (List.mem_filter.mp hg).2)
  case member => exact h.member_nodup.sublist (List.filter_sublist.map _)
  case expense => exact fun e he => h.expense_lt e (List.mem_filter.mp he).1
  case ids => exact h.expense_nodup.sublist (List.filter_sublist.map _)

/-- A new member has one event more. -/
theorem addGroupMember_books (h : Books d) {now : Time} {groupId memberId : Id}
    {a : ActivityEventInput} (ha : a.type = .memberAdded) {m : GroupMember}
    (heval : (addGroupMemberWithEvent now groupId memberId a).eval d = .ok (m, d')) :
    Books d' := by
  have hother : ∀ other, groupId ≠ other → d'.rowsOf other = d.rowsOf other :=
    fun other hne => AddsMember.rowsOf hne ⟨now, a, m, heval⟩
  obtain ⟨event, hnone, hsome, hm, ⟨hgroup, htype⟩, hdb⟩ := addGroupMemberWithEvent_eq_ok heval
  have hn : d'.nextId = d.nextId + 2 := by rw [hdb]
  have hmgroup : m.groupId = groupId := by rw [hm]
  refine h.step (lt_of_group h hsome) (hn ▸ Nat.le_add_right _ 2) hother
    ?groups ?audited ?member ?expense ?ids
  case groups => exact fun g' hg' => ⟨g', by rw [hdb] at hg'; exact hg', rfl⟩
  case audited =>
    intro _ haudit
    have htype : event.type = .memberAdded := htype.trans ha
    have hevents : (d'.rowsOf groupId).events = event :: (d.rowsOf groupId).events :=
      events_rowsOf_cons (by rw [hdb]) hgroup
    refine haudit.step hevents ?_ ?_ ?_ ?_ <;>
      simp [hdb, htype, hmgroup, Db.rowsOf, Db.membersOf, Db.expensesOf, Db.settlementsOf]
  case member =>
    rw [hdb]
    refine nodup_map_cons (fun n hn heq => ?_) h.member_nodup
    obtain ⟨hng, hnu⟩ := Prod.mk.inj heq
    -- A second row of the same member is ruled out by the check inside the transaction.
    refine Db.member?_eq_none.mp hnone (List.mem_map.mpr ⟨n, List.mem_filter.mpr ⟨hn, ?_⟩, ?_⟩)
    · exact decide_eq_true (hng.trans hmgroup)
    · rw [hnu, hm]
  case expense =>
    intro e he
    rw [hdb] at he
    exact hn ▸ lt_of_lt_of_le (h.expense_lt e he) (Nat.le_add_right _ 2)
  case ids =>
    rw [hdb]
    exact h.expense_nodup

/-- A removed member has one event more. -/
theorem removeGroupMember_books (h : Books d) {now : Time} {groupId memberId : Id}
    {a : ActivityEventInput} (ha : a.type = .memberRemoved) {r : Unit}
    (heval : (removeGroupMemberWithEvent now groupId memberId a).eval d = .ok (r, d')) :
    Books d' := by
  have hother : ∀ other, groupId ≠ other → d'.rowsOf other = d.rowsOf other :=
    fun other hne => removeGroupMember_rowsOf hne heval
  obtain ⟨event, hsome, ⟨hgroup, htype⟩, hdb⟩ := removeGroupMemberWithEvent_eq_ok heval
  have hn : d'.nextId = d.nextId + 1 := by rw [hdb]
  obtain ⟨m, hm⟩ := Option.isSome_iff_exists.mp hsome
  obtain ⟨hmgroup, hmuser⟩ : m.groupId = groupId ∧ m.userId = memberId := by
    simpa using List.find?_some hm
  have hmem : m ∈ d.groupMembers := List.mem_of_find?_eq_some hm
  have hlt : groupId < d.nextId := by
    -- An id that has not been drawn yet belongs to no row, so that the member's group has one.
    by_contra hle
    have hrow : m ∈ (d.rowsOf groupId).members :=
      List.mem_filter.mpr ⟨hmem, decide_eq_true hmgroup⟩
    rw [(h.blank groupId (not_lt.mp hle)).members] at hrow
    cases hrow
  refine h.step hlt (hn ▸ Nat.le_succ _) hother ?groups ?audited ?member ?expense ?ids
  case groups => exact fun g' hg' => ⟨g', by rw [hdb] at hg'; exact hg', rfl⟩
  case audited =>
    intro _ haudit
    have htype : event.type = .memberRemoved := htype.trans ha
    have hevents : (d'.rowsOf groupId).events = event :: (d.rowsOf groupId).events :=
      events_rowsOf_cons (by rw [hdb]) hgroup
    have hmembers : (d'.rowsOf groupId).members.length + 1 = (d.rowsOf groupId).members.length := by
      have hdrop := length_filter_drop h.member_nodup hmem
        (q := fun m => decide (m.groupId = groupId)) (decide_eq_true hmgroup)
      rw [hdb]
      simpa [Db.rowsOf, Db.membersOf, hmgroup, hmuser] using hdrop
    refine haudit.step hevents ?created ?expenses ?settlements ?members
    case created => simp [htype]
    case expenses => simp [hdb, htype, Db.rowsOf, Db.expensesOf]
    case settlements => simp [hdb, htype, Db.rowsOf, Db.settlementsOf]
    case members => simpa [htype] using hmembers
  case member =>
    rw [hdb]
    exact h.member_nodup.sublist (List.filter_sublist.map _)
  case expense =>
    intro e he
    rw [hdb] at he
    exact hn ▸ lt_of_lt_of_le (h.expense_lt e he) (Nat.le_succ _)
  case ids =>
    rw [hdb]
    exact h.expense_nodup

/-- A new expense has its event. -/
theorem createExpense_books (h : Books d) {c : Choice} {now : Time}
    {data : Prisma.CreateExpenseData} {a : ActivityEventInput} (ha : a.type = .expenseAdded)
    {r : ExpenseWithDetails}
    (heval : (createExpenseWithSplits c now data a).eval d = .ok (r, d')) : Books d' := by
  have hother : ∀ other, data.groupId ≠ other → d'.rowsOf other = d.rowsOf other :=
    fun other hne => createExpense_rowsOf hne heval
  obtain ⟨e, db₁, event, hcreate, -, hdb, ⟨hgroup, htype⟩⟩ := createExpenseWithSplits_eq_ok heval
  obtain ⟨⟨hsome, -⟩, he, hdb₁⟩ := Prisma.expenseCreate_eq_ok hcreate
  subst hdb₁
  have hegroup : e.groupId = data.groupId := by rw [he]
  have heid : e.id = d.nextId := by rw [he]
  have hlt : d.nextId < d'.nextId := by
    rw [hdb]
    exact Nat.lt_succ_of_le (le_trans (Nat.le_succ _) (Nat.le_add_right _ _))
  refine h.step (lt_of_group h hsome) hlt.le hother ?groups ?audited ?member ?expense ?ids
  case groups => exact fun g' hg' => ⟨g', by rw [hdb] at hg'; exact hg', rfl⟩
  case audited =>
    intro _ haudit
    have htype : event.type = .expenseAdded := htype.trans ha
    have hevents : (d'.rowsOf data.groupId).events = event :: (d.rowsOf data.groupId).events :=
      events_rowsOf_cons (by rw [hdb]) (hgroup.trans hegroup)
    refine haudit.step hevents ?_ ?_ ?_ ?_ <;>
      simp [hdb, htype, hegroup, Db.rowsOf, Db.membersOf, Db.expensesOf, Db.settlementsOf]
  case member =>
    rw [hdb]
    exact h.member_nodup
  case expense =>
    intro x hx
    rw [hdb] at hx
    -- The new expense has the next id, which is larger than those of all the others.
    rcases List.mem_cons.mp hx with rfl | hx
    · exact heid ▸ hlt
    · exact (h.expense_lt x hx).trans hlt
  case ids =>
    rw [hdb]
    exact nodup_map_cons (fun x hx => heid ▸ (h.expense_lt x hx).ne) h.expense_nodup

/-- The group of an expense has an id that has been taken. -/
theorem lt_of_expense (h : Books d) {e : Expense} (he : e ∈ d.expenses) :
    e.groupId < d.nextId := by
  by_contra hle
  have hrow : e ∈ (d.rowsOf e.groupId).expenses := List.mem_filter.mpr ⟨he, decide_eq_true rfl⟩
  rw [(h.blank e.groupId (not_lt.mp hle)).expenses] at hrow
  cases hrow

/-- An updated expense has one event more. -/
theorem updateExpense_books (h : Books d) {c : Choice} {now : Time} {expenseId : Id}
    {data : Prisma.UpdateExpenseData} {a : ActivityEventInput} (ha : a.type = .expenseUpdated)
    {r : ExpenseWithDetails}
    (heval : (updateExpenseWithSplits c now expenseId data a).eval d = .ok (r, d')) :
    Books d' := by
  obtain ⟨e, db₁, event, hupdate, -, hdb, ⟨hgroup, htype⟩⟩ := updateExpenseWithSplits_eq_ok heval
  obtain ⟨old, hold, -, -, he, hdb₁⟩ := Prisma.expenseUpdate_eq_ok hupdate
  subst hdb₁
  have hegroup : e.groupId = old.groupId := by rw [he]; rfl
  have hother : ∀ other, old.groupId ≠ other → d'.rowsOf other = d.rowsOf other :=
    fun other hne => updateExpense_rowsOf h.expense_nodup hold hne heval
  have hle : d.nextId ≤ d'.nextId := by
    rw [hdb]
    exact le_trans (Nat.le_add_right _ _) (Nat.le_succ _)
  have hid : ∀ e, (data.applyTo now d.nextId e).id = e.id := fun _ => rfl
  refine h.step (lt_of_expense h (List.mem_of_find?_eq_some hold)) hle hother
    ?groups ?audited ?member ?expense ?ids
  case groups => exact fun g' hg' => ⟨g', by rw [hdb] at hg'; exact hg', rfl⟩
  case audited =>
    intro _ haudit
    have htype : event.type = .expenseUpdated := htype.trans ha
    have hevents : (d'.rowsOf old.groupId).events = event :: (d.rowsOf old.groupId).events :=
      events_rowsOf_cons (by rw [hdb]) (hgroup.trans hegroup)
    -- An update leaves an expense in its group.
    have hexpenses :
        (d'.rowsOf old.groupId).expenses.length = (d.rowsOf old.groupId).expenses.length := by
      have hkept : ∀ e, (data.applyTo now d.nextId e).groupId = e.groupId := fun _ => rfl
      have hgroups : (updateWhere (·.id = expenseId) (data.applyTo now d.nextId) d.expenses).map
          (·.groupId) = d.expenses.map (·.groupId) := map_updateWhere hkept _
      have hcount := congrArg (List.countP fun g => decide (g = old.groupId)) hgroups
      rw [List.countP_map, List.countP_map] at hcount
      rw [hdb]
      simp only [Db.rowsOf, Db.expensesOf, ← List.countP_eq_length_filter]
      exact hcount
    refine haudit.step hevents ?created ?expenses ?settlements ?members
    case created => simp [htype]
    case expenses => simpa [htype] using hexpenses
    case settlements => simp [hdb, htype, Db.rowsOf, Db.settlementsOf]
    case members => simp [hdb, htype, Db.rowsOf, Db.membersOf]
  case member =>
    rw [hdb]
    exact h.member_nodup
  case expense =>
    intro x hx
    rw [hdb] at hx
    obtain ⟨y, hy, ⟨-, rfl⟩ | ⟨-, rfl⟩⟩ := mem_updateWhere.mp hx
    · exact lt_of_lt_of_le (h.expense_lt y hy) hle
    · exact lt_of_lt_of_le (h.expense_lt y hy) hle
  case ids =>
    rw [hdb]
    have hids : (updateWhere (·.id = expenseId) (data.applyTo now d.nextId) d.expenses).map (·.id) =
        d.expenses.map (·.id) := map_updateWhere hid _
    exact hids ▸ h.expense_nodup

/-- A deleted expense has one event more. -/
theorem deleteExpense_books (h : Books d) {now : Time} {expenseId : Id} {a : ActivityEventInput}
    (ha : a.type = .expenseDeleted) {r : Unit}
    (heval : (deleteExpenseWithEvent now expenseId a).eval d = .ok (r, d')) : Books d' := by
  obtain ⟨e, event, he, ⟨hgroup, htype⟩, hdb⟩ := deleteExpenseWithEvent_eq_ok heval
  have hother : ∀ other, e.groupId ≠ other → d'.rowsOf other = d.rowsOf other :=
    fun other hne => DeletesExpense.rowsOf h.expense_nodup he hne ⟨now, a, r, heval⟩
  have hn : d'.nextId = d.nextId + 1 := by rw [hdb]
  have hmem : e ∈ d.expenses := List.mem_of_find?_eq_some he
  have hid : e.id = expenseId := by simpa using List.find?_some he
  refine h.step (lt_of_expense h hmem) (hn ▸ Nat.le_succ _) hother
    ?groups ?audited ?member ?expense ?ids
  case groups => exact fun g' hg' => ⟨g', by rw [hdb] at hg'; exact hg', rfl⟩
  case audited =>
    intro _ haudit
    have htype : event.type = .expenseDeleted := htype.trans ha
    have hevents : (d'.rowsOf e.groupId).events = event :: (d.rowsOf e.groupId).events :=
      events_rowsOf_cons (by rw [hdb]) hgroup
    have hexpenses :
        (d'.rowsOf e.groupId).expenses.length + 1 = (d.rowsOf e.groupId).expenses.length := by
      -- Exactly one row goes, since the ids of the expenses differ.
      have hdrop := length_filter_drop h.expense_nodup hmem
        (q := fun x => decide (x.groupId = e.groupId)) (decide_eq_true rfl)
      rw [hdb]
      simpa [Db.rowsOf, Db.expensesOf, hid] using hdrop
    refine haudit.step hevents ?created ?expenses ?settlements ?members
    case created => simp [htype]
    case expenses => simpa [htype] using hexpenses
    case settlements => simp [hdb, htype, Db.rowsOf, Db.settlementsOf]
    case members => simp [hdb, htype, Db.rowsOf, Db.membersOf]
  case member =>
    rw [hdb]
    exact h.member_nodup
  case expense =>
    intro x hx
    rw [hdb] at hx
    exact hn ▸ lt_of_lt_of_le (h.expense_lt x (List.mem_filter.mp hx).1) (Nat.le_succ _)
  case ids =>
    rw [hdb]
    exact h.expense_nodup.sublist (List.filter_sublist.map _)

/-- A settlement has its event. -/
theorem settle_books (h : Books d) {now : Time} {existing : Option Id}
    {data : Prisma.SettlementCreateData} {context : IdempotencyContext} {a : ActivityEventInput}
    (ha : a.type = .settlementAdded) {expiresAt : Time} {s : SettlementRecord}
    (heval : (claimAndSettle now existing data context a expiresAt).eval d = .ok (s, d')) :
    Books d' := by
  have hother : ∀ other, data.groupId ≠ other → d'.rowsOf other = d.rowsOf other := by
    intro other hne
    have hclaims : ClaimsAndSettles ⟨data.groupId, data.payerId, data.payeeId, 0⟩ d d' :=
      ⟨existing, data, context, a, expiresAt, now, s, rfl, rfl, rfl, heval⟩
    exact hclaims.rowsOf hne
  obtain ⟨-, -, event, records, ⟨⟨hgroup, htype⟩, hsome⟩, -, hdb⟩ := claimAndSettle_eq_ok heval
  have hn : d'.nextId = d.nextId + 3 := by rw [hdb]
  refine h.step (lt_of_group h hsome) (hn ▸ Nat.le_add_right _ 3) hother
    ?groups ?audited ?member ?expense ?ids
  case groups => exact fun g' hg' => ⟨g', by rw [hdb] at hg'; exact hg', rfl⟩
  case audited =>
    intro _ haudit
    have htype : event.type = .settlementAdded := htype.trans ha
    have hevents : (d'.rowsOf data.groupId).events = event :: (d.rowsOf data.groupId).events :=
      events_rowsOf_cons (by rw [hdb]) hgroup
    -- One settlement more, and one event of its kind.
    refine haudit.step hevents ?_ ?_ ?_ ?_ <;>
      simp [hdb, htype, newSettlement, Db.rowsOf, Db.membersOf, Db.expensesOf, Db.settlementsOf]
  case member =>
    rw [hdb]
    exact h.member_nodup
  case expense =>
    intro x hx
    rw [hdb] at hx
    exact hn ▸ lt_of_lt_of_le (h.expense_lt x hx) (Nat.le_add_right _ 3)
  case ids =>
    rw [hdb]
    exact h.expense_nodup

/-- Every transaction keeps the books in order. -/
theorem books_of_transaction {o : DbOp} (ho : Transaction o ∨ Removal o)
    {t : Choice → Time → Tx Db Err Metric o.Res} (ht : o.access = .write t) {c : Choice}
    {now : Time} {r : o.Res} (h : Books d) (heval : (t c now).eval d = .ok (r, d')) :
    Books d' := by
  rcases ho with ho | ho <;> cases ho <;> obtain rfl := Access.write.inj ht
  case inl.createGroup ha => exact createGroup_books h ha heval
  case inl.updateGroup ha => exact updateGroup_books h ha heval
  case inl.deleteGroup => exact deleteGroup_books h heval
  case inl.addGroupMember ha => exact addGroupMember_books h ha heval
  case inl.createExpense ha => exact createExpense_books h ha heval
  case inl.updateExpense ha => exact updateExpense_books h ha heval
  case inl.deleteExpense ha => exact deleteExpense_books h ha heval
  case inl.settle ha => exact settle_books h ha heval
  case inr.removeGroupMember ha => exact removeGroupMember_books h ha heval

end Transactions

/-! ## Runs -/

/-- Every call issues queries and these transactions only. -/
theorem storeCall_issues {lib : Lib} {env : Env} (c : StoreCall) :
    (c.body env lib).Issues (Op.OnDb (ReadsOr fun o => Transaction o ∨ Removal o)) := by
  have hvoid : ∀ {α : Type} {p : Act α}, Issuing p →
      (void p).Issues (Op.OnDb (ReadsOr fun o => Transaction o ∨ Removal o)) := by
    intro α p hp
    refine .bind (hp.mono fun o ho => ?_) fun _ => Prog.issues_ret _ _
    cases o with
    | db o => exact ho.imp_right .inl
    | _ => trivial
  cases c with
  | createGroup userId name => exact hvoid (createGroup_issuing _ _)
  | group c =>
    cases c with
    | getGroupById => exact hvoid (getGroupById_issuing _ _)
    | updateGroup => exact hvoid (updateGroup_issuing _ _ _)
    | deleteGroup => exact hvoid (deleteGroup_issuing _ _)
    | addGroupMember => exact hvoid (addGroupMember_issuing _ _ _)
    | removeGroupMember userId groupId memberId =>
      -- The one call with a removal of its own: the checks before it are queries.
      refine .bind (.bind (issues_op (.inl ⟨_, rfl⟩)) fun _ => ?_) fun _ => Prog.issues_ret _ _
      refine .bind (Prog.issues_expect _ _ _) fun _ => .bind (Prog.issues_ensure _ _ _) fun _ => ?_
      exact .bind (Prog.issues_ensure _ _ _) fun _ =>
        removal_issues fun a ha => .inr (.removeGroupMember ha)
    | createExpense => exact hvoid (createExpense_issuing _ _)
    | getExpenseById => exact hvoid (getExpenseById_issuing _ _)
    | updateExpense => exact hvoid (updateExpense_issuing _ _ _)
    | deleteExpense => exact hvoid (deleteExpense_issuing _ _)
    | getGroupExpenses => exact hvoid (getGroupExpenses_issuing _ _ _)
    | getGroupBalances => exact hvoid (getGroupBalances_issuing _ _)
    | createSettlement => exact hvoid (createSettlement_issuing _ _ _)
    | getSettlementById => exact hvoid (getSettlementById_issuing _ _)
    | getGroupSettlements => exact hvoid (getGroupSettlements_issuing _ _ _)
    | getGroupActivity => exact hvoid (getGroupActivity_issuing _ _ _ _)
    | getGroupSummary => exact hvoid (getGroupSummary_issuing _ _)
    | enqueueGroupSummaryRecompute =>
      exact hvoid (enqueueGroupSummaryRecompute_issuing _ _ _)

/-- Tables without a group are in order. -/
theorem books_of_noGroups {w : World} (h : NoGroups w) : Books w.db := by
  obtain ⟨hg, hm, he, hs, hev⟩ := h
  constructor
  case audited =>
    simp [hg]
  case group_lt =>
    simp [hg]
  case member_nodup =>
    simp [hm]
  case expense_lt =>
    simp [he]
  case expense_nodup =>
    simp [he]
  case blank =>
    intro id _
    constructor <;> simp [Db.rowsOf, Db.membersOf, Db.expensesOf, Db.settlementsOf, hm, he, hs, hev]

/-- The books of every reachable state are in order. -/
theorem books_of_reachable {lib : Lib} {env : Env} {cfg : (groupSystem lib env).Config}
    (h : (groupSystem lib env).Reachable NoGroups cfg) : Books cfg.hist.world.db := by
  refine System.invariant (Op.OnDb (ReadsOr fun o => Transaction o ∨ Removal o))
    (fun h => Books h.world.db) (fun c _ => storeCall_issues c) (fun _ => books_of_noGroups)
    (fun h w hI he => hI.of_elsewhere he) ?_ h
  rintro pid o h did seen w ho hI - hans
  obtain hdb | ⟨d, t, c, r, rfl, hd, hacc, heval⟩ := answer_transaction ho hans
  · exact hdb ▸ hI
  · exact books_of_transaction hd hacc hI heval

/-- In every reachable state the events of every group account for its rows, no user is a member of
it twice, and its creator is a member. -/
theorem audit_trail {lib : Lib} {env : Env} {cfg : (groupSystem lib env).Config}
    (h : (groupSystem lib env).Reachable NoGroups cfg) {g : Group}
    (hg : g ∈ cfg.hist.world.db.groups) :
    Audited (cfg.hist.world.db.rowsOf g.id) ∧ (cfg.hist.world.db.memberIds g.id).Nodup ∧
      g.createdById ∈ cfg.hist.world.db.memberIds g.id := by
  have hbooks := books_of_reachable h
  refine ⟨hbooks.audited g hg, ?_, (sound_of_reachable h).owner g hg⟩
  refine List.Nodup.map_on ?_ (hbooks.member_nodup.of_map.filter _)
  intro m hm m' hm' heq
  obtain ⟨hm, hgroup⟩ := List.mem_filter.mp hm
  obtain ⟨hm', hgroup'⟩ := List.mem_filter.mp hm'
  refine List.inj_on_of_nodup_map hbooks.member_nodup hm hm' (Prod.ext ?_ heq)
  exact (of_decide_eq_true hgroup).trans (of_decide_eq_true hgroup').symm

/-- Two users without a group. -/
def twoUsers : World where
  db :=
    { users := [⟨1, "A", "a@x.io", none, none⟩, ⟨2, "B", "b@x.io", none, none⟩]
      nextId := 20 }

/-- A group to which its owner adds the same user twice at the same time, and an expense that is
deleted twice. -/
def doubledCalls : List (System.Action (groupSystem .plain {})) :=
  .spawn (.createGroup 1 "Trip") :: List.replicate 2 (.op 0 {}) ++
  [.spawn (.group (.addGroupMember 1 20 2)), .spawn (.group (.addGroupMember 1 20 2)),
    .op 1 {}, .op 2 {}, .op 1 {}, .op 2 {}, .op 1 {}, .op 2 {}, .op 1 {}, .op 2 {},
    .spawn (.group (.createExpense 1
      ⟨20, "Dinner", 1000, 1, .equal, [⟨1, none⟩, ⟨2, none⟩], some 5⟩)),
    .op 3 {}, .op 3 {}, .op 3 {},
    .spawn (.group (.deleteExpense 1 25)), .spawn (.group (.deleteExpense 2 25)),
    .op 4 {}, .op 5 {}, .op 4 {}, .op 5 {}, .op 4 {}, .op 5 {}]

/-- A group whose member was added once, and whose expense was deleted once. -/
theorem audit_trail_doubled : ∃ cfg g,
    (groupSystem .plain {}).play doubledCalls ((groupSystem .plain {}).start twoUsers) = some cfg ∧
    g ∈ cfg.hist.world.db.groups ∧ Audited (cfg.hist.world.db.rowsOf g.id) := by
  have hrun : ((groupSystem .plain {}).play doubledCalls
      ((groupSystem .plain {}).start twoUsers)).map (fun cfg => cfg.hist.world.db.groups) =
      some [⟨20, "Trip", 1, 0, 0⟩] := by decide
  obtain ⟨cfg, h, hgroups⟩ := Option.map_eq_some_iff.mp hrun
  have hreach : (groupSystem .plain {}).Reachable NoGroups cfg :=
    System.reachable_of_play (fun _ _ _ => trivial) (.start ⟨rfl, rfl, rfl, rfl, rfl⟩) h
  have hg : (⟨20, "Trip", 1, 0, 0⟩ : Group) ∈ cfg.hist.world.db.groups :=
    hgroups ▸ List.mem_singleton.mpr rfl
  exact ⟨cfg, _, h, hg, (audit_trail hreach hg).1⟩

end SplitBill
