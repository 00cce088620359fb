import SplitBill.Alone
import SplitBill.Calls
import SplitBill.Settlements.Ledger

/-!
# One update by itself

What `updateExpense` makes of a stored expense when nothing else happens meanwhile. An update that
gives no participants takes them from the stored split rows, and does not look whether they still
are members. It takes them in the order of a query that sorts by `createdAt` only, and an equal
split hands out its remainder in that order.
-/

namespace SplitBill

open Interleave
open Prisma (SplitAmount UpdateExpenseData newSplits checkSplits)

/-! ## Constraints -/

/-- Tables that the keys of `prisma/schema.prisma` admit, as far as expenses and members go. -/
structure Db.Constrained (db : Db) : Prop where
  expenseIds : (db.expenses.map (·.id)).Nodup
  splitIds : ∀ e ∈ db.expenses, (e.splits.map (·.id)).Nodup
  /-- `@@unique([expenseId, userId])`. -/
  splitUsers : ∀ e ∈ db.expenses, (e.splits.map (·.userId)).Nodup
  groups : ∀ e ∈ db.expenses, (db.group? e.groupId).isSome
  participants : ∀ e ∈ db.expenses, ∀ s ∈ e.splits, (db.user? s.userId).isSome
  members : ∀ m ∈ db.groupMembers, (db.user? m.userId).isSome

instance : DecidablePred Db.Constrained := fun db =>
  decidable_of_iff ((db.expenses.map (·.id)).Nodup ∧
    (∀ e ∈ db.expenses, (e.splits.map (·.id)).Nodup) ∧
    (∀ e ∈ db.expenses, (e.splits.map (·.userId)).Nodup) ∧
    (∀ e ∈ db.expenses, (db.group? e.groupId).isSome) ∧
    (∀ e ∈ db.expenses, ∀ s ∈ e.splits, (db.user? s.userId).isSome) ∧
    ∀ m ∈ db.groupMembers, (db.user? m.userId).isSome)
    ⟨fun ⟨h₁, h₂, h₃, h₄, h₅, h₆⟩ => ⟨h₁, h₂, h₃, h₄, h₅, h₆⟩,
      fun ⟨h₁, h₂, h₃, h₄, h₅, h₆⟩ => ⟨h₁, h₂, h₃, h₄, h₅, h₆⟩⟩

/-- A member of a group is a user. -/
theorem Db.Constrained.isSome_user {db : Db} (h : db.Constrained) {groupId u : Id}
    (hu : u ∈ db.memberIds groupId) : (db.user? u).isSome := by
  obtain ⟨m, hm, -, rfl⟩ := Db.mem_memberIds.mp hu
  exact h.members m hm

/-! ## When the transaction is successful -/

/-- An event of a group and a user that exist is created. -/
theorem createActivityEvent_of_isSome {now : Time} {data : Prisma.ActivityEventData} {db : Db}
    (hgroup : (db.group? data.groupId).isSome) (huser : (db.user? data.userId).isSome) :
    ∃ id db', (createActivityEvent now data).eval db = .ok (id, db') := by
  unfold createActivityEvent
  simp only [Tx.eval_bind_eq_ok, Tx.eval_statement, Tx.eval_note, Tx.eval_pure,
    Prisma.activityEventCreate]
  have hexists : ¬((db.group? data.groupId).isNone ∨ (db.user? data.userId).isNone) := by
    rw [← Option.not_isSome, ← Option.not_isSome, hgroup, huser]
    decide
  simp only [if_neg hexists]
  exact ⟨_, _, _, _, rfl, (), _, rfl, rfl⟩

/-- An update is committed when its payer, its participants and its actor are users. -/
theorem exists_updateExpenseWithSplits {db : Db} {id : Id} {e : Expense}
    (he : db.expense? id = some e) (hgroup : (db.group? e.groupId).isSome)
    {data : UpdateExpenseData} (hpayer : (db.user? data.paidById).isSome)
    (hsplits : checkSplits db data.splits = .ok ()) {activity : ActivityEventInput}
    (hactor : (db.user? activity.userId).isSome) (c : Choice) (now : Time) :
    ∃ r db', (updateExpenseWithSplits c now id data activity).eval db = .ok (r, db') := by
  let e' := data.applyTo now db.nextId e
  let db₁ : Db := { db with
    expenses := updateWhere (·.id = id) (data.applyTo now db.nextId) db.expenses
    nextId := db.nextId + data.splits.length }
  -- The constraints hold, so that the row is written.
  have hupdate : Prisma.expenseUpdate now id data db = .ok (e', db₁) := by
    unfold Prisma.expenseUpdate
    have hpayer : ¬(db.user? data.paidById).isNone = true := by
      rw [← Option.not_isSome, hpayer]
      decide
    simp only [he, if_neg hpayer, hsplits]
    rfl
  unfold updateExpenseWithSplits
  simp only [Tx.eval_bind_eq_ok, Tx.eval_including_eq_ok, Tx.eval_pure]
  -- The event is written as well, since its group and its actor exist.
  obtain ⟨eventId, db₂, hevent⟩ := @createActivityEvent_of_isSome now
    { groupId := e'.groupId, userId := activity.userId, type := activity.type,
      message := activity.message, amountMinorUnits := some e'.amountMinorUnits,
      currencyCode := some e'.currencyCode, occurredAt := now } db₁ hgroup hactor
  exact ⟨_, _, _, _, ⟨e', hupdate, rfl⟩, eventId, db₂, hevent, rfl⟩

/-- Splits among distinct users meet the constraints. -/
theorem checkSplits_of_isSome {db : Db} {splits : List SplitAmount}
    (hnodup : (splits.map (·.userId)).Nodup)
    (husers : ∀ u ∈ splits.map (·.userId), (db.user? u).isSome) :
    checkSplits db splits = .ok () := by
  unfold checkSplits
  rw [if_neg (not_not.mpr hnodup), if_neg]
  simp only [List.any_eq_true, not_exists, not_and]
  intro s hs
  rw [← Option.not_isSome, husers _ (List.mem_map_of_mem hs)]
  decide

/-! ## The splits of an update that gives no participants -/

section Kept

variable {c : Choice} {db : Db} {before : ExpenseSplit → ExpenseSplit → Bool} {e : Expense}
  {input : UpdateExpenseInput}

/-- The participants of the stored rows, in the order of a query. -/
theorem userIds_details : (e.details c db before).splits.map (·.userId) =
    (c.arrange (·.id) before e.splits).map (·.userId) := by
  unfold Expense.details
  rw [List.map_map]
  rfl

/-- An exact split is kept, if it still sums to the amount. -/
theorem nextSplits_exact (hnone : input.participants = none)
    (ht : input.splitType.getD e.splitType = .exact) (memberIds : List Id) :
    ExpenseService.nextSplits (e.details c db before) input memberIds =
      if (e.splits.map (·.amountMinorUnits)).sum ≠ input.amountMinorUnits.getD e.amountMinorUnits
      then .error ExpenseService.splitTotalMismatch
      else .ok (ExpenseService.keptSplits (e.details c db before)) := by
  have ht' : input.splitType.getD (e.details c db before).splitType = .exact := ht
  have hsum : sumSplitAmounts (ExpenseService.keptSplits (e.details c db before)) =
      (e.splits.map (·.amountMinorUnits)).sum := by
    rw [sumSplitAmounts_eq, ((ExpenseService.keptSplits_perm c db before e).map _).sum_eq,
      List.map_map]
    rfl
  unfold ExpenseService.nextSplits
  simp only [hnone, ht', hsum]
  rfl

/-- An equal split is computed anew among the stored participants. -/
theorem nextSplits_equal (hnone : input.participants = none)
    (ht : input.splitType.getD e.splitType = .equal) (memberIds : List Id) :
    ExpenseService.nextSplits (e.details c db before) input memberIds =
      .ok (calculateEqualSplits (input.amountMinorUnits.getD e.amountMinorUnits)
        ((c.arrange (·.id) before e.splits).map (·.userId))) := by
  have ht' : input.splitType.getD (e.details c db before).splitType = .equal := ht
  unfold ExpenseService.nextSplits
  simp only [hnone, ht', userIds_details]
  rfl

/-- The participants stay. -/
theorem nextSplits_users (hnone : input.participants = none) {memberIds : List Id}
    {splits : List SplitAmount}
    (h : ExpenseService.nextSplits (e.details c db before) input memberIds = .ok splits) :
    (splits.map (·.userId)).Perm (e.splits.map (·.userId)) := by
  cases ht : input.splitType.getD e.splitType with
  | exact =>
    rw [nextSplits_exact hnone ht, ite_error_eq_ok, Except.ok.injEq] at h
    obtain ⟨-, rfl⟩ := h
    have hperm := (ExpenseService.keptSplits_perm c db before e).map (·.userId)
    rw [List.map_map] at hperm
    exact hperm
  | equal =>
    rw [nextSplits_equal hnone ht, Except.ok.injEq] at h
    rw [← h, userIds_calculateEqualSplits]
    exact (c.arrange_perm (·.id) before e.splits).map _

/-- Whether the splits can be computed does not depend on the members. -/
theorem exists_nextSplits (hnone : input.participants = none)
    (hsum : ¬(input.splitType.getD e.splitType = .exact ∧
      (e.splits.map (·.amountMinorUnits)).sum ≠ input.amountMinorUnits.getD e.amountMinorUnits)) :
    ∃ splits, ∀ memberIds,
      ExpenseService.nextSplits (e.details c db before) input memberIds = .ok splits := by
  cases ht : input.splitType.getD e.splitType with
  | exact =>
    refine ⟨ExpenseService.keptSplits (e.details c db before), fun memberIds => ?_⟩
    rw [nextSplits_exact hnone ht, if_neg fun hne => hsum ⟨ht, hne⟩]
  | equal => exact ⟨_, nextSplits_equal hnone ht⟩

end Kept

/-! ## Runs of one update -/

/-- The update is refused: its requester or its payer is not a member, or the stored splits do not
sum to its amount. -/
def RefusesUpdate (db : Db) (requesterId : Id) (e : Expense) (input : UpdateExpenseInput) : Prop :=
  requesterId ∉ db.memberIds e.groupId ∨
    input.payerId.getD e.paidById ∉ db.memberIds e.groupId ∨
    input.participants = none ∧ input.splitType.getD e.splitType = .exact ∧
      (e.splits.map (·.amountMinorUnits)).sum ≠ input.amountMinorUnits.getD e.amountMinorUnits

/-- The fields of the request over those of the expense, with the splits that they come to. -/
def UpdateExpenseInput.over (input : UpdateExpenseInput) (e : Expense) (splits : List SplitAmount) :
    UpdateExpenseData where
  paidById := input.payerId.getD e.paidById
  description := input.description.getD e.description
  amountMinorUnits := input.amountMinorUnits.getD e.amountMinorUnits
  splitType := input.splitType.getD e.splitType
  expenseDate := input.expenseDate.getD e.expenseDate
  splits := splits

/-- What the update makes of the tables: the expense is amended with the splits that it came to. -/
structure Amends (requesterId expenseId : Id) (input : UpdateExpenseInput) (e : Expense)
    (d d' : Db) : Prop where
  requester : requesterId ∈ d.memberIds e.groupId
  payer : input.payerId.getD e.paidById ∈ d.memberIds e.groupId
  rows : ∃ c memberIds splits now, (∀ u, u ∈ memberIds ↔ u ∈ d.memberIds e.groupId) ∧
    ExpenseService.nextSplits (e.details c d byCreatedAt) input memberIds = .ok splits ∧
    d'.expenses = updateWhere (·.id = expenseId) ((input.over e splits).applyTo now d.nextId)
      d.expenses ∧
    d'.expense? expenseId = some ((input.over e splits).applyTo now d.nextId e)
  settlements : d'.settlements = d.settlements
  members : d'.groupMembers = d.groupMembers

section Runs

variable {lib : Lib} {w : World} {requesterId expenseId : Id} {input : UpdateExpenseInput}
  {e : Expense}

/-- An update by itself is refused, or it amends the expense. -/
theorem updateExpense_alone (he : w.db.expense? expenseId = some e)
    {Q : Except Err ExpenseDetailDto → World → Prop}
    (hrefused : ∀ err y, y.db = w.db → Q (.error err) y)
    (hdone : ∀ r y, Amends requesterId expenseId input e w.db y.db → Q r y) :
    wp (alone lib) Q (ExpenseService.updateExpense requesterId expenseId input) w := by
  have hD := sequential_alone lib
  have hs := hD.stable w.db
  unfold ExpenseService.updateExpense
  refine wp_bind.mpr (hs.read (.expense (.findExpenseById _)) rfl rfl ?_
    fun y hy _ => hrefused _ y hy)
  intro c x₁ hx₁
  rw [hx₁, he]
  refine wp_expect_bind.mpr ⟨fun expense hexpense => ?_, fun hnone => by cases hnone⟩
  obtain rfl := Option.some.inj hexpense
  refine wp_bind.mpr (hs.read (.expense (.findGroupMemberIds _)) rfl hx₁ ?_
    fun y hy _ => hrefused _ y hy)
  intro c' x₂ hx₂
  rw [hx₂]
  refine wp_ensure_bind.mpr ⟨fun hmem => ?_, fun _ => hrefused _ _ hx₂⟩
  refine wp_ensure_bind.mpr ⟨fun hpayer => ?_, fun _ => hrefused _ _ hx₂⟩
  refine wp_ofExcept_bind.mpr ⟨fun splits hsplits => ?_, fun _ _ => hrefused _ _ hx₂⟩
  refine wp_bind.mpr (hs.write (.expense (.updateExpenseWithSplits _ _ _)) rfl hx₂ ?_
    fun _ _ hy => hrefused _ _ hy)
  intro x₃ y c'' now r hx₃ heval
  rw [hx₃] at heval
  -- The transaction was committed, whatever its caller is told.
  have hamends : Amends requesterId expenseId input e w.db y.db := by
    obtain ⟨old, hold, hrow⟩ := expense?_updateExpenseWithSplits heval
    obtain rfl := Option.some.inj (he.symm.trans hold)
    obtain ⟨e', db₁, event, hupdate, -, hdb, -⟩ := updateExpenseWithSplits_eq_ok heval
    obtain ⟨old, -, -, -, -, rfl⟩ := Prisma.expenseUpdate_eq_ok hupdate
    constructor
    · exact mem_findGroupMemberIds.mp hmem
    · exact mem_findGroupMemberIds.mp hpayer
    · refine ⟨c, _, splits, now, fun u => mem_findGroupMemberIds, hsplits, ?_, hrow⟩
      rw [hdb]
      rfl
    · rw [hdb]
    · rw [hdb]
  refine ⟨hD.guar _ _, ?_, fun err => hdone _ y hamends⟩
  refine wp_mono (fun r z (hz : z.db = y.db) => hdone r z (hz ▸ hamends)) (hD.rest ?_ rfl)
  exact .bind (issues_op trivial) fun _ => trivial

/-- An update that is not refused can be successful. -/
theorem exists_updateExpense (hdb : w.db.Constrained) (he : w.db.expense? expenseId = some e)
    (hnone : input.participants = none) (hok : ¬RefusesUpdate w.db requesterId e input)
    (c : Choice) (hcut : c.cut = none) : ∃ splits r w',
      ExpenseService.nextSplits (e.details c w.db byCreatedAt) input [] = .ok splits ∧
      Exec (machine lib) World.Later (ExpenseService.updateExpense requesterId expenseId input) w
        (.ok r) w' ∧
      w'.db.expense? expenseId = some ((input.over e splits).applyTo w.now w.db.nextId e) := by
  have hmem : e ∈ w.db.expenses := List.mem_of_find?_eq_some he
  unfold RefusesUpdate at hok
  rw [not_or, not_or, not_not, not_not] at hok
  obtain ⟨hrequester, hpayer, hsum⟩ := hok
  obtain ⟨splits, hsplits⟩ := @exists_nextSplits c w.db byCreatedAt e input hnone
    fun h => hsum ⟨hnone, h⟩
  have hids := nextSplits_users hnone (hsplits [])
  have hcheck : checkSplits w.db splits = .ok () := by
    apply checkSplits_of_isSome (hids.nodup_iff.mpr (hdb.splitUsers e hmem))
    intro u hu
    obtain ⟨s, hs, rfl⟩ := List.mem_map.mp (hids.mem_iff.mp hu)
    exact hdb.participants e hmem s hs
  let activity : ActivityEventInput :=
    { userId := requesterId, type := .expenseUpdated,
      message := "updated the expense \"" ++ input.description.getD e.description ++ "\"" }
  obtain ⟨r, db', heval⟩ := @exists_updateExpenseWithSplits w.db expenseId e he
    (hdb.groups e hmem) (input.over e splits) (hdb.isSome_user hpayer) hcheck activity
    (hdb.isSome_user hrequester) c w.now
  obtain ⟨old, hold, hrow⟩ := expense?_updateExpenseWithSplits heval
  obtain rfl := Option.some.inj (he.symm.trans hold)
  -- The run in which every operation is answered under the choice `c`.
  let tx := updateExpenseWithSplits c w.now expenseId (input.over e splits) activity
  let w₁ : World := { w with
    db := db', metrics := (Mark.notes (tx.marks w.db)).reverse ++ w.metrics }
  let w₂ : World := { w₁ with metrics := .expensesUpdatedTotal :: w₁.metrics }
  have hread : (machine lib).run c (ExpenseRepository.findExpenseById expenseId) w =
      (.ok (some (e.details c w.db byCreatedAt)), w) := by
    refine (Machine.run_perform _ _ _ _).trans ?_
    show (Except.ok ((w.db.expense? expenseId).map (·.details c w.db byCreatedAt)), w) = _
    rw [he]
    rfl
  have hmembers := (machine lib).run_perform c
    (.db (.expense (.findGroupMemberIds e.groupId))) w
  have hwrite : (machine lib).run c (ExpenseRepository.updateExpenseWithSplits expenseId
      (input.over e splits) activity) w = (.ok r, w₁) := by
    refine (Machine.run_perform _ _ _ _).trans ?_
    exact Access.exec_write_of_eval (w := w) (t := fun c now =>
      updateExpenseWithSplits c now expenseId (input.over e splits) activity) hcut heval
  have hrun : (machine lib).run c (ExpenseService.updateExpense requesterId expenseId input) w =
      (.ok (ExpenseService.toDetailDto r), w₂) := by
    refine (Machine.run_bind hread).trans ?_
    refine (Machine.run_bind hmembers).trans ?_
    refine (Machine.run_ensure_bind _ _ (mem_findGroupMemberIds.mpr hrequester) _ _).trans ?_
    refine (Machine.run_ensure_bind _ _ (mem_findGroupMemberIds.mpr hpayer) _ _).trans ?_
    rw [hsplits]
    exact (Machine.run_bind hwrite).trans rfl
  refine ⟨splits, ExpenseService.toDetailDto r, w₂, hsplits [], ?_, hrow⟩
  have hexec := (machine lib).exec_run World.later_refl c
    (ExpenseService.updateExpense requesterId expenseId input) w
  rw [hrun] at hexec
  exact hexec

end Runs

/-! ## Participants who left -/

/-- The payer and every participant of the stored expense are members of its group. -/
def InGroup (db : Db) (expenseId : Id) : Prop :=
  ∃ e ∈ db.expense? expenseId, ∀ u ∈ e.people, u ∈ db.memberIds e.groupId

instance (db : Db) (expenseId : Id) : Decidable (InGroup db expenseId) :=
  inferInstanceAs (Decidable (∃ e ∈ db.expense? expenseId, _))

/-- After the update by itself the payer and the participants of the expense are members, or the
call failed and nothing changed. -/
def KeepsInside (lib : Lib) (w : World) (requesterId expenseId : Id) (input : UpdateExpenseInput) :
    Prop :=
  ∀ r w', Exec (machine lib) World.Later
      (ExpenseService.updateExpense requesterId expenseId input) w r w' →
    (∃ err, r = .error err) ∧ w'.db = w.db ∨ InGroup w'.db expenseId

/-- An update that is refused amends nothing. -/
theorem Amends.not_refused {requesterId expenseId : Id} {input : UpdateExpenseInput} {e : Expense}
    {d d' : Db} (h : Amends requesterId expenseId input e d d') :
    ¬RefusesUpdate d requesterId e input := by
  obtain ⟨c, memberIds, splits, now, -, hsplits, -⟩ := h.rows
  rintro (hrequester | hpayer | ⟨hnone, ht, hsum⟩)
  · exact hrequester h.requester
  · exact hpayer h.payer
  · rw [nextSplits_exact hnone ht, if_pos hsum] at hsplits
    cases hsplits

/-- Exactly those updates keep the payer and the participants inside the group that give the
participants, or find all stored ones still there, or are refused. -/
theorem keepsInside_iff {lib : Lib} {w : World} (hdb : w.db.Constrained) {expenseId : Id}
    {e : Expense} (he : w.db.expense? expenseId = some e) (requesterId : Id)
    (input : UpdateExpenseInput) :
    KeepsInside lib w requesterId expenseId input ↔
      input.participants ≠ none ∨ (∀ s ∈ e.splits, s.userId ∈ w.db.memberIds e.groupId) ∨
        RefusesUpdate w.db requesterId e input := by
  constructor
  · intro hkeeps
    by_contra hnot
    rw [not_or, not_or, not_not] at hnot
    obtain ⟨hnone, houtside, hok⟩ := hnot
    -- The update keeps its participants, whether they are members or not, and is successful.
    obtain ⟨splits, r, w', hsplits, hexec, hrow⟩ := @exists_updateExpense lib w requesterId
      expenseId input e hdb he hnone hok {} rfl
    have hmembers : w'.db.groupMembers = w.db.groupMembers :=
      hexec.sound (updateExpense_alone (Q := fun _ y => y.db.groupMembers = w.db.groupMembers) he
        (fun err y hy => by rw [hy]) fun r y hamends => hamends.members)
    rcases hkeeps _ w' hexec with ⟨⟨err, herr⟩, -⟩ | ⟨e', he', hpeople⟩
    · cases herr
    obtain rfl := Option.some.inj (hrow.symm.trans he')
    apply houtside
    intro s hs
    rw [← congrFun (memberIds_congr hmembers) _]
    have hkept : s.userId ∈ splits.map (·.userId) :=
      (nextSplits_users hnone hsplits).mem_iff.mpr (List.mem_map_of_mem hs)
    apply hpeople
    apply List.mem_cons_of_mem
    show s.userId ∈ (newSplits w.now w.db.nextId splits).map (·.userId)
    rw [userIds_newSplits]
    exact hkept
  · intro hcond r w' hexec
    apply hexec.sound
    apply updateExpense_alone he
    · intro err y hy
      exact .inl ⟨⟨err, rfl⟩, hy⟩
    · intro r y hamends
      right
      obtain ⟨c, memberIds, splits, now, hmembers, hsplits, -, hrow⟩ := hamends.rows
      refine ⟨_, hrow, fun u hu => ?_⟩
      rw [congrFun (memberIds_congr hamends.members) _]
      rcases List.mem_cons.mp hu with rfl | hu
      · exact hamends.payer
      have hu : u ∈ splits.map (·.userId) := userIds_newSplits now w.db.nextId splits ▸ hu
      -- A participant was given and checked, or was stored before.
      cases hparticipants : input.participants with
      | some participants =>
        unfold ExpenseService.nextSplits at hsplits
        rw [hparticipants] at hsplits
        exact (hmembers u).mp (reconcileSplits_members hsplits u hu)
      | none =>
        have hu : u ∈ e.splits.map (·.userId) :=
          (nextSplits_users hparticipants hsplits).mem_iff.mp hu
        obtain ⟨s, hs, rfl⟩ := List.mem_map.mp hu
        rcases hcond with hgiven | hinside | hrefused
        · exact absurd hparticipants hgiven
        · exact hinside s hs
        · exact absurd hrefused hamends.not_refused

/-- User 1 shares a dinner equally with users 2 and 3. -/
def sharedDinner : World :=
  ((machine .plain).run {} (ExpenseService.createExpense 1
    ⟨10, "Dinner", 1000, 1, .equal, [⟨1, none⟩, ⟨2, none⟩, ⟨3, none⟩], none⟩) threeMembers).2

/-- User 3 is removed from the group. -/
def dinnerWithoutThree : World :=
  ((machine .plain).run {} (GroupService.removeGroupMember 1 10 3) sharedDinner).2

/-- The update of the description alone writes splits for a user who has left. -/
theorem not_keepsInside :
    ¬KeepsInside .plain dinnerWithoutThree 2 20 { description := some "Lunch" } := by
  intro h
  have hexec := (machine .plain).exec_run World.later_refl {}
    (ExpenseService.updateExpense 2 20 { description := some "Lunch" }) dinnerWithoutThree
  have hrun : ((machine .plain).run {} (ExpenseService.updateExpense 2 20
      { description := some "Lunch" }) dinnerWithoutThree).1.toBool = true ∧
      ¬InGroup ((machine .plain).run {} (ExpenseService.updateExpense 2 20
        { description := some "Lunch" }) dinnerWithoutThree).2.db 20 := by decide +kernel
  rcases h _ _ hexec with ⟨⟨err, herr⟩, -⟩ | hin
  · rw [herr] at hrun
    cases hrun.1
  · exact hrun.2 hin

/-- With all participants still there. -/
theorem keepsInside_sharedDinner :
    KeepsInside .plain sharedDinner 2 20 { description := some "Lunch" } := by
  have hexpense : (sharedDinner.db.expense? 20).isSome = true := by decide +kernel
  obtain ⟨e, he⟩ := Option.isSome_iff_exists.mp hexpense
  have hmembers : ∀ e ∈ sharedDinner.db.expense? 20, ∀ s ∈ e.splits,
      s.userId ∈ sharedDinner.db.memberIds e.groupId := by decide +kernel
  have hconstrained : sharedDinner.db.Constrained := by decide +kernel
  exact (keepsInside_iff hconstrained he 2 _).mpr (.inr (.inl (hmembers e he)))

end SplitBill
