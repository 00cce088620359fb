import SplitBill.Audit
import SplitBill.Interleave.Replay

/-!
# The business counters

`createActivityEvent` counts an event in `activity_events_created_total` as soon as its row is
written, inside the transaction of the caller; `SettlementService.createSettlement` counts a
settlement in `settlements_created_total` when the repository has answered, whatever it did to
answer. What a run committed is read off its log: `committed f` adds up what the operations added to
`f` of the tables.

The first counter is right when no transaction is cut off after it created its event. The second one
is right when, moreover, nobody is answered with the settlement of an earlier request, and no commit
of a settlement is reported as a failure.
-/

namespace SplitBill

open Interleave
open Prisma

/-! ## The events of a transaction -/

/-- The number of events of a type. -/
def Db.eventCount (db : Db) (type : ActivityType) : ℕ :=
  db.activityEvents.countP (·.type = type)

namespace Tx

variable {α β : Type} {k : ℕ} {type : ActivityType} {events : List ActivityEvent} {d : Db}

/-- A body that only runs statements, none of which fails, and that leaves the events alone. -/
def Silent (t : Tx Db Err Metric α) (d : Db) : Prop :=
  ∃ a d', t.eval d = .ok (a, d') ∧ d'.activityEvents = d.activityEvents ∧
    Mark.notes (t.marks d) = []

/-- A body that begins with the events `events` either fails before it counts anything, or creates
an event with its statement number `k`, counts it at once, and succeeds. -/
def RecordsAt (k : ℕ) (type : ActivityType) (events : List ActivityEvent) (t : Tx Db Err Metric α)
    (d : Db) : Prop :=
  (∃ e, t.eval d = .error e ∧ Mark.notes (t.marks d) = []) ∨
    ∃ a d' event rest, t.eval d = .ok (a, d') ∧ event.type = type ∧
      d'.activityEvents = event :: events ∧
      t.marks d = List.replicate k .statement ++ .noted (.activityEventsCreatedTotal type) :: rest ∧
      Mark.notes rest = []

/-- What a sequence of statements counts. -/
theorem marks_bind (t : Tx Db Err Metric α) (f : α → Tx Db Err Metric β) (d : Db) :
    (t >>= f).marks d = t.marks d ++
      match t.eval d with
      | .ok r => (f r.1).marks r.2
      | .error _ => [] := by
  show (bind t f d).2 = (t d).2 ++ match (t d).1 with
    | .ok r => (f r.1).marks r.2
    | .error _ => []
  unfold bind
  rcases t d with ⟨e | ⟨a, d'⟩, ms⟩
  · simp
  · rfl

/-- A transaction without a statement counts nothing. -/
theorem silent_pure (a : α) : (pure a : Tx Db Err Metric α).Silent d := ⟨a, d, rfl, rfl, rfl⟩

/-- A statement that adds no event counts nothing. -/
theorem Silent.statement_bind {f : Db → Except Err (α × Db)} {g : α → Tx Db Err Metric β} {a : α}
    {d' : Db} (h : f d = .ok (a, d')) (hev : d'.activityEvents = d.activityEvents)
    (hg : (g a).Silent d') : (Tx.statement f >>= g).Silent d := by
  obtain ⟨b, d₂, hb, hev₂, hnotes⟩ := hg
  refine ⟨b, d₂, ?_, hev₂.trans hev, ?_⟩
  · rw [eval_bind, eval_statement, h]
    exact hb
  · rw [marks_bind, eval_statement, h]
    exact hnotes

/-- A statement before the event. -/
theorem RecordsAt.statement_bind {f : Db → Except Err (α × Db)} {g : α → Tx Db Err Metric β}
    (h : ∀ a d₁, f d = .ok (a, d₁) → (g a).RecordsAt k type events d₁) :
    (Tx.statement f >>= g).RecordsAt (k + 1) type events d := by
  have hmarks := marks_bind (Tx.statement f : Tx Db Err Metric α) g d
  have heval := eval_bind (Tx.statement f : Tx Db Err Metric α) g d
  rw [eval_statement] at hmarks heval
  have hone : (Tx.statement f : Tx Db Err Metric α).marks d = [.statement] := rfl
  rw [hone] at hmarks
  cases hf : f d with
  | error e =>
    rw [hf] at hmarks heval
    exact .inl ⟨e, heval, by rw [hmarks]; rfl⟩
  | ok r =>
    rw [hf] at hmarks heval
    rcases h r.1 r.2 hf with ⟨e, he, hnotes⟩ | ⟨a, d', event, rest, ha, htype, hev, hms, hrest⟩
    · refine .inl ⟨e, heval.trans he, ?_⟩
      rw [hmarks]
      exact hnotes
    · refine .inr ⟨a, d', event, rest, heval.trans ha, htype, hev, ?_, hrest⟩
      rw [hmarks]
      exact congrArg (Mark.statement :: ·) hms

/-- A statement before the event whose answer includes what it reads. -/
theorem RecordsAt.including_bind {γ : Type} {f : Db → Except Err (γ × Db)} {r : Db → γ → α}
    {g : α → Tx Db Err Metric β}
    (h : ∀ x d₁, f d = .ok (x, d₁) → (g (r d₁ x)).RecordsAt k type events d₁) :
    (Tx.including f r >>= g).RecordsAt (k + 1) type events d := by
  refine .statement_bind fun a d₁ ha => ?_
  have heval : (Tx.including f r : Tx Db Err Metric α).eval d = .ok (a, d₁) := ha
  obtain ⟨x, hx, rfl⟩ := eval_including_eq_ok.mp heval
  exact h x d₁ hx

/-- The creation of the event. -/
theorem RecordsAt.event_bind {now : Time} {data : ActivityEventData} {g : Id → Tx Db Err Metric β}
    (hd : d.activityEvents = events)
    (hg : ∀ id event d₁, d₁.activityEvents = event :: events →
      d₁.idempotencyRecords = d.idempotencyRecords → (g id).Silent d₁) :
    (createActivityEvent now data >>= g).RecordsAt 1 data.type events d := by
  -- What the transaction marks and what it evaluates to follow its two parts.
  have hmarks := marks_bind (createActivityEvent now data) g d
  have heval := eval_bind (createActivityEvent now data) g d
  have hcreate : (createActivityEvent now data).eval d = activityEventCreate now data d := by
    unfold createActivityEvent
    rw [eval_bind, eval_statement]
    cases activityEventCreate now data d <;> rfl
  have hms : (createActivityEvent now data).marks d = match activityEventCreate now data d with
      | .ok _ => [.statement, .noted (.activityEventsCreatedTotal data.type)]
      | .error _ => [.statement] := by
    unfold createActivityEvent
    rw [marks_bind, eval_statement]
    cases activityEventCreate now data d <;> rfl
  cases hf : activityEventCreate now data d with
  -- The event violates a constraint, and nothing is counted.
  | error e =>
    rw [hcreate, hf] at hmarks heval
    rw [hms, hf] at hmarks
    exact .inl ⟨e, heval, by rw [hmarks]; rfl⟩
  | ok r =>
    -- The event is written and counted, whatever becomes of the rest.
    obtain ⟨event, ⟨-, htype⟩, hr⟩ := createActivityEvent_eq_ok (hcreate.trans hf)
    rw [hcreate, hf] at hmarks heval
    rw [hms, hf] at hmarks
    have hev : r.2.activityEvents = event :: events := by rw [hr, ← hd]
    have hrecords : r.2.idempotencyRecords = d.idempotencyRecords := by rw [hr]
    obtain ⟨a, d', ha, hsame, hnotes⟩ := hg r.1 event r.2 hev hrecords
    refine .inr ⟨a, d', event, _, heval.trans ha, htype, hsame.trans hev, ?_, hnotes⟩
    rw [hmarks]
    rfl

/-- A transaction without notes is not noted, wherever it is cut off. -/
theorem notes_run_eq_nil {t : Tx Db Err Metric α} (h : Mark.notes (t.marks d) = [])
    {cut : Option ℕ} {fault : Err} : (t.run cut fault d).2.2 = [] := by
  unfold Tx.run
  cases cut with
  | some n => exact Mark.notes_upTo_eq_nil h
  | none => cases t.eval d <;> exact h

/-- What such a transaction does when it is cut off before its event at the latest. -/
theorem RecordsAt.run {t : Tx Db Err Metric α} (h : t.RecordsAt k type d.activityEvents d)
    {cut : Option ℕ} (hcut : ∀ n, cut = some n → n < k) (fault : Err) :
    (t.run cut fault d).2 = (d, []) ∨ ∃ event d', event.type = type ∧
      d'.activityEvents = event :: d.activityEvents ∧
      (t.run cut fault d).2 = (d', [.activityEventsCreatedTotal type]) := by
  rcases h with ⟨e, he, hnotes⟩ | ⟨a, d', event, rest, ha, htype, hev, hms, hrest⟩
  -- The transaction fails, at whichever statement: nothing is counted.
  · refine .inl ?_
    unfold Tx.run
    rw [he]
    cases cut with
    | none => exact Prod.ext rfl hnotes
    | some n => exact Prod.ext rfl (Mark.notes_upTo_eq_nil hnotes)
  -- It runs to its end, or is cut short before the statement that counts.
  · have hall : Mark.notes (t.marks d) = [.activityEventsCreatedTotal type] := by
      rw [hms, Mark.notes, List.filterMap_append]
      show Mark.notes _ ++ .activityEventsCreatedTotal type :: Mark.notes rest = _
      rw [Mark.notes_replicate, hrest]
      rfl
    unfold Tx.run
    rw [ha]
    cases cut with
    | none => exact .inr ⟨event, d', htype, hev, Prod.ext rfl hall⟩
    | some n =>
      refine .inl (Prod.ext rfl ?_)
      show Mark.notes (Mark.upTo n (t.marks d)) = []
      rw [hms, Mark.upTo_replicate (hcut n rfl), Mark.notes_replicate]

end Tx

/-! ## The statement that creates the event -/

/-- The number of the statement with which a transaction creates its event. -/
def DbOp.eventStatement : DbOp → Option ℕ
  | .group (.createGroupWithOwner _ _ _) => some 3
  | .group (.updateGroup _ _ _) => some 2
  | .group (.addGroupMember _ _ _) => some 2
  | .group (.removeGroupMember _ _ _) => some 2
  | .expense (.createExpenseWithSplits _ _) => some 2
  | .expense (.updateExpenseWithSplits _ _ _) => some 2
  | .expense (.deleteExpenseWithEvent _ _) => some 2
  -- The deletion of an expired record comes first, if there is one.
  | .settlement (.claimAndSettle none _ _ _ _) => some 3
  | .settlement (.claimAndSettle (some _) _ _ _ _) => some 4
  | _ => none

section

variable {c : Choice} {now : Time} {d : Db}

/-- `createGroupWithOwner` records one event and counts it. -/
theorem createGroup_records (ownerId : Id) (name : String) (a : ActivityEventInput) :
    (createGroupWithOwner now ownerId name a).RecordsAt 3 a.type d.activityEvents d := by
  refine .statement_bind fun group d₁ hgroup => .statement_bind fun member d₂ hmember => ?_
  obtain ⟨-, rfl⟩ := groupCreate_eq_ok hgroup
  obtain ⟨-, -, -, rfl⟩ := groupMemberCreate_eq_ok hmember
  exact .event_bind rfl fun _ _ _ _ _ => Tx.silent_pure _

/-- `updateGroupWithEvent` records one event and counts it. -/
theorem updateGroup_records (id : Id) (name : String) (a : ActivityEventInput) :
    (updateGroupWithEvent now id name a).RecordsAt 2 a.type d.activityEvents d := by
  refine .statement_bind fun group d₁ hgroup => ?_
  obtain ⟨old, -, -, rfl⟩ := groupUpdate_eq_ok hgroup
  exact .event_bind rfl fun _ _ _ _ _ => Tx.silent_pure _

/-- `addGroupMemberWithEvent` records one event and counts it. -/
theorem addGroupMember_records (groupId memberId : Id) (a : ActivityEventInput) :
    (addGroupMemberWithEvent now groupId memberId a).RecordsAt 2 a.type d.activityEvents d := by
  refine .statement_bind fun member d₁ hmember => ?_
  obtain ⟨-, -, -, rfl⟩ := groupMemberCreate_eq_ok hmember
  exact .event_bind rfl fun _ _ _ _ _ => Tx.silent_pure _

/-- `removeGroupMemberWithEvent` records one event and counts it. -/
theorem removeGroupMember_records (groupId memberId : Id) (a : ActivityEventInput) :
    (removeGroupMemberWithEvent now groupId memberId a).RecordsAt 2 a.type d.activityEvents d := by
  refine .statement_bind fun _ d₁ hmember => ?_
  obtain ⟨-, rfl⟩ := groupMemberDelete_eq_ok hmember
  exact .event_bind rfl fun _ _ _ _ _ => Tx.silent_pure _

/-- `createExpenseWithSplits` records one event and counts it. -/
theorem createExpense_records (data : CreateExpenseData) (a : ActivityEventInput) :
    (createExpenseWithSplits c now data a).RecordsAt 2 a.type d.activityEvents d := by
  refine .including_bind fun e d₁ hcreate => ?_
  obtain ⟨-, -, rfl⟩ := expenseCreate_eq_ok hcreate
  exact .event_bind rfl fun _ _ _ _ _ => Tx.silent_pure _

/-- `updateExpenseWithSplits` records one event and counts it. -/
theorem updateExpense_records (id : Id) (data : UpdateExpenseData) (a : ActivityEventInput) :
    (updateExpenseWithSplits c now id data a).RecordsAt 2 a.type d.activityEvents d := by
  refine .including_bind fun e d₁ hupdate => ?_
  obtain ⟨old, -, -, -, -, rfl⟩ := expenseUpdate_eq_ok hupdate
  exact .event_bind rfl fun _ _ _ _ _ => Tx.silent_pure _

/-- `deleteExpenseWithEvent` records one event and counts it. -/
theorem deleteExpense_records (id : Id) (a : ActivityEventInput) :
    (deleteExpenseWithEvent now id a).RecordsAt 2 a.type d.activityEvents d := by
  refine .statement_bind fun e d₁ hdelete => ?_
  obtain ⟨-, rfl⟩ := expenseDelete_eq_ok hdelete
  exact .event_bind rfl fun _ _ _ _ _ => Tx.silent_pure _

/-- From the claim of the key on. The record that the last statement completes is the claim, so that
statement does not fail. -/
theorem claim_records {data : SettlementCreateData} {context : IdempotencyContext}
    {a : ActivityEventInput} {expiresAt : Time} {d₀ : Db}
    (hd : d₀.activityEvents = d.activityEvents) :
    Tx.RecordsAt 3 a.type d.activityEvents (do
      let claim ← Tx.statement (idempotencyRecordCreate now
        { key := context.key, userId := context.userId, requestHash := context.requestHash,
          status := .pending, operation := .settlementCreate, scope := some data.groupId,
          expiresAt })
      let settlement ← Tx.including (settlementCreate now data) Settlement.record
      let _ ← createActivityEvent now
        { groupId := settlement.groupId, userId := a.userId, type := a.type,
          message := a.message, amountMinorUnits := some settlement.amountMinorUnits,
          currencyCode := some settlement.currencyCode, occurredAt := settlement.createdAt }
      Tx.statement (idempotencyRecordUpdate claim.id .completed settlement.id)
      return settlement) d₀ := by
  refine .statement_bind fun claim d₁ hclaim => .including_bind fun s d₂ hsettle => ?_
  obtain ⟨-, -, rfl⟩ := idempotencyRecordCreate_eq_ok hclaim
  obtain ⟨-, -, rfl⟩ := settlementCreate_eq_ok hsettle
  refine .event_bind hd fun id event d₃ _ hrecords => ?_
  -- The claim is still there when it is completed.
  have hclaimed : ¬(d₃.idempotencyRecords.all (·.id ≠ claim.id)) := by
    rw [hrecords]
    simp
  have hupdate : ∀ resourceId, ∃ d', idempotencyRecordUpdate claim.id .completed resourceId d₃ =
      .ok ((), d') ∧ d'.activityEvents = d₃.activityEvents := by
    intro resourceId
    rw [idempotencyRecordUpdate, if_neg hclaimed]
    exact ⟨_, rfl, rfl⟩
  obtain ⟨d', hd', hsame⟩ := hupdate _
  exact .statement_bind hd' hsame (Tx.silent_pure _)

/-- `claimAndSettle` records one event and counts it, with or without a record to replace. -/
theorem claimAndSettle_records (existing : Option Id) (data : SettlementCreateData)
    (context : IdempotencyContext) (a : ActivityEventInput) (expiresAt : Time) :
    (claimAndSettle now existing data context a expiresAt).RecordsAt
      (match existing with
        | none => 3
        | some _ => 4) a.type d.activityEvents d := by
  cases existing with
  | none => exact claim_records rfl
  | some id =>
    refine .statement_bind fun _ d₁ hdelete => ?_
    obtain ⟨-, rfl⟩ := Prod.mk.inj (Except.ok.inj hdelete)
    exact claim_records rfl

end

/-- A transaction of the calls but for `deleteGroup` records one event. -/
theorem DbOp.recordsAt {o : DbOp} (ho : Transaction o ∨ Removal o)
    {t : Choice → Time → Tx Db Err Metric o.Res} (ht : o.access = .write t) {k : ℕ}
    (hk : o.eventStatement = some k) (c : Choice) (now : Time) (d : Db) :
    ∃ type, (t c now).RecordsAt k type d.activityEvents d := by
  rcases ho with ho | ho <;> cases ho <;> obtain rfl := Access.write.inj ht
  case inl.createGroup => exact ⟨_, Option.some.inj hk ▸ createGroup_records _ _ _⟩
  case inl.updateGroup => exact ⟨_, Option.some.inj hk ▸ updateGroup_records _ _ _⟩
  case inl.deleteGroup => cases hk
  case inl.addGroupMember => exact ⟨_, Option.some.inj hk ▸ addGroupMember_records _ _ _⟩
  case inl.createExpense => exact ⟨_, Option.some.inj hk ▸ createExpense_records _ _⟩
  case inl.updateExpense => exact ⟨_, Option.some.inj hk ▸ updateExpense_records _ _ _⟩
  case inl.deleteExpense => exact ⟨_, Option.some.inj hk ▸ deleteExpense_records _ _⟩
  case inl.settle existing data context a expiresAt _ =>
    cases existing with
    | none => exact ⟨_, Option.some.inj hk ▸ claimAndSettle_records none data context a expiresAt⟩
    | some id =>
      exact ⟨_, Option.some.inj hk ▸ claimAndSettle_records (some id) data context a expiresAt⟩
  case inr.removeGroupMember => exact ⟨_, Option.some.inj hk ▸ removeGroupMember_records _ _ _⟩

/-! ## Runs without late aborts -/

/-- The choice with which a transaction is not cut off once it has created its event. -/
def Op.spare : Op → Choice → Choice
  | .db o, c =>
    match o.eventStatement, c.cut with
    | some k, some n => if k ≤ n then { c with cut := none } else c
    | _, _ => c
  | _, c => c

/-- The operation commits a settlement. -/
def Op.Settles : Op → Prop
  | .db (.settlement (.claimAndSettle _ _ _ _ _)) => True
  | _ => False

/-- The backend when no transaction is cut off after it created its event, and the commit of a
settlement is never reported as a failure. -/
def unbroken (lib : Lib) : Machine backend Err World :=
  { machine lib with
    exec := fun o c => o.exec lib (o.spare c)
    loses := fun o e => ¬o.Settles ∧ o.fault = some e }

/-- What may come of an operation there. -/
theorem answer_unbroken {lib : Lib} {o : Op} {w w' : World} {did seen : Except Err (backend.Res o)}
    (h : (unbroken lib).Answer o w did seen w') :
    (∃ c, did = (o.exec lib (o.spare c) w).1 ∧ w' = (o.exec lib (o.spare c) w).2 ∧
        (seen = did ∨ ¬o.Settles ∧ ∃ e, seen = .error e)) ∨
      w' = w ∧ ∃ e, did = .error e ∧ seen = .error e := by
  cases h with
  | done c => exact .inl ⟨c, rfl, rfl, .inl rfl⟩
  | failed e h => exact .inr ⟨rfl, e, rfl, rfl⟩
  | lost e c h => exact .inl ⟨c, rfl, rfl, .inr ⟨h.1, e, rfl⟩⟩

/-- It can come of it without these restrictions as well. -/
theorem machine_of_unbroken {lib : Lib} {o : Op} {w w' : World}
    {did seen : Except Err (backend.Res o)} (h : (unbroken lib).Answer o w did seen w') :
    (machine lib).Answer o w did seen w' := by
  cases h with
  | done c => exact @Machine.Answer.done _ _ _ (machine lib) o w (o.spare c)
  | failed e h => exact .failed e h
  | lost e c h => exact @Machine.Answer.lost _ _ _ (machine lib) o w e (o.spare c) h.2

/-- A transaction that is cut off there is cut off before its event. -/
theorem cut_spare {o : DbOp} {k : ℕ} (hk : o.eventStatement = some k) (c : Choice) (n : ℕ)
    (hn : ((Op.db o).spare c).cut = some n) : n < k := by
  simp only [Op.spare, hk] at hn
  cases hcut : c.cut with
  | none =>
    rw [hcut] at hn
    rw [hcut] at hn
    cases hn
  | some m =>
    simp only [hcut] at hn
    split at hn
    · cases hn
    · rw [hcut] at hn
      obtain rfl := Option.some.inj hn
      omega

/-! ## Events -/

/-- What a step adds to the counters of events it adds to the events. -/
def CountsEvents (w w' : World) : Prop :=
  ∀ type, w'.metrics.count (.activityEventsCreatedTotal type) =
    w.metrics.count (.activityEventsCreatedTotal type) +
      (w'.db.eventCount type - w.db.eventCount type)

/-- A step that leaves the tables and the counters of the events counts right. -/
theorem countsEvents_of_eq {w w' : World} (hdb : w'.db = w.db)
    (hm : ∀ type, w'.metrics.count (.activityEventsCreatedTotal type) =
      w.metrics.count (.activityEventsCreatedTotal type)) : CountsEvents w w' := by
  intro type
  rw [hm type, hdb, Nat.sub_self, Nat.add_zero]

/-- A transaction with an event. -/
theorem countsEvents_of_recordsAt {α : Type} {t : Tx Db Err Metric α} {k : ℕ}
    {type : ActivityType} {w w' : World} {cut : Option ℕ}
    (h : t.RecordsAt k type w.db.activityEvents w.db) (hcut : ∀ n, cut = some n → n < k)
    (fault : Err) (hdb : w'.db = (t.run cut fault w.db).2.1)
    (hm : w'.metrics = (t.run cut fault w.db).2.2.reverse ++ w.metrics) : CountsEvents w w' := by
  rcases h.run hcut fault with hrun | ⟨event, d', htype, hev, hrun⟩
  · rw [hrun] at hdb hm
    exact countsEvents_of_eq hdb fun type => by rw [hm]; rfl
  · rw [hrun] at hdb hm
    intro type'
    have hmetric : w'.metrics = .activityEventsCreatedTotal type :: w.metrics := hm
    have hcount : w'.db.eventCount type' =
        w.db.eventCount type' + if type = type' then 1 else 0 := by
      rw [hdb, Db.eventCount, hev, List.countP_cons, htype]
      simp only [decide_eq_true_eq]
      rfl
    rw [hmetric, hcount, List.count_cons, Nat.add_sub_cancel_left]
    by_cases heq : type = type'
    · simp [heq]
    · simp [heq]

/-- What the operations of the calls are: queries, their transactions, and no count of an event. -/
def Op.Ordinary (o : Op) : Prop :=
  o.OnDb (ReadsOr fun o => Transaction o ∨ Removal o) ∧
    ∀ type, o ≠ .metric (.activityEventsCreatedTotal type)

/-- A transaction without an event of its own is the deletion of a group. -/
theorem DbOp.eq_deleteGroup {o : DbOp} (ho : Transaction o ∨ Removal o)
    (hk : o.eventStatement = none) : ∃ id, o = .group (.deleteGroup id) := by
  rcases ho with ho | ho <;> cases ho
  case inl.deleteGroup id => exact ⟨id, rfl⟩
  case inl.settle existing _ _ _ _ _ => cases existing <;> cases hk
  all_goals cases hk

/-- Deleting a group counts nothing. -/
theorem metrics_deleteGroup {id : Id} {c : Choice} {w : World} :
    ((DbOp.group (.deleteGroup id)).access.exec c w).2.metrics = w.metrics := by
  show (Tx.run _ c.cut _ w.db).2.2.reverse ++ w.metrics = w.metrics
  rw [Tx.notes_run_eq_nil rfl]
  rfl

/-- The deletion of a group deletes its events, and counts none. -/
theorem countsEvents_deleteGroup {id : Id} {c : Choice} {w : World} :
    CountsEvents w ((DbOp.group (.deleteGroup id)).access.exec c w).2 := by
  have hmetrics : ((DbOp.group (.deleteGroup id)).access.exec c w).2.metrics = w.metrics :=
    metrics_deleteGroup
  rcases Access.exec_cases (DbOp.group (.deleteGroup id)).access c w with
    hdb | ⟨t, r, db', ht, heval, -, hdb⟩
  · exact countsEvents_of_eq hdb fun type => by rw [hmetrics]
  · obtain rfl := Access.write.inj ht
    obtain ⟨-, rfl⟩ := groupDelete_eq_ok heval
    intro type
    have hle : ((DbOp.group (.deleteGroup id)).access.exec c w).2.db.eventCount type ≤
        w.db.eventCount type := by
      rw [hdb]
      exact List.Sublist.countP_le List.filter_sublist
    rw [hmetrics]
    omega

/-- Every operation of the calls adds as much to the counters of events as to the events. -/
theorem countsEvents_of_answer {lib : Lib} {o : Op} (ho : o.Ordinary) {w w' : World}
    {did seen : Except Err (backend.Res o)} (h : (unbroken lib).Answer o w did seen w') :
    CountsEvents w w' := by
  rcases answer_unbroken h with ⟨c, -, rfl, -⟩ | ⟨rfl, -⟩
  · cases o with
    | metric m =>
      refine countsEvents_of_eq rfl fun type => ?_
      exact List.count_cons_of_ne fun h => ho.2 type (congrArg Op.metric h)
    | db o =>
      rcases ho.1 with ⟨f, hf⟩ | ho
      -- A query counts nothing, and `deleteGroup` has no event to count.
      · show CountsEvents w (o.access.exec _ w).2
        rw [hf]
        exact countsEvents_of_eq rfl fun _ => rfl
      · cases hk : o.eventStatement with
        | none =>
          obtain ⟨id, rfl⟩ := DbOp.eq_deleteGroup ho hk
          exact countsEvents_deleteGroup
        | some k =>
          -- Every other transaction runs past the statement that counts its event.
          obtain ⟨t, ht⟩ : ∃ t, o.access = .write t := by
            rcases ho with ho | ho <;> cases ho <;> exact ⟨_, rfl⟩
          obtain ⟨type, hrecords⟩ := DbOp.recordsAt ho ht hk ((Op.db o).spare c) w.now w.db
          refine countsEvents_of_recordsAt hrecords (cut_spare hk c) (.prisma .unavailable) ?_ ?_
          · show (o.access.exec _ w).2.db = _
            rw [ht]
            rfl
          · show (o.access.exec _ w).2.metrics = _
            rw [ht]
            rfl
    | _ => exact countsEvents_of_eq rfl fun _ => rfl
  · exact countsEvents_of_eq rfl fun _ => rfl

/-! ## What the calls count -/

/-- The operation counts no event by itself, and it has to do with the creation of a settlement only
if `settles`. -/
def Op.Counts (settles : Prop) (o : Op) : Prop :=
  (∀ type, o ≠ .metric (.activityEventsCreatedTotal type)) ∧
    (o.Settles ∨ o = .metric .settlementsCreatedTotal → settles)

/-- The call creates settlements. -/
def StoreCall.Settles : StoreCall → Prop
  | .group (.createSettlement _ _ _) => True
  | _ => False

section Counts

variable {S : Prop} {env : Env} {lib : Lib} {α β : Type}

/-- The program counts as `Op.Counts` says. -/
abbrev Counting (S : Prop) (p : Act α) : Prop := p.Issues (Op.Counts S)

/-- One operation that counts right. -/
theorem counting_op {o : Op} (h : o.Counts S) : Counting S (Op.perform o) :=
  (Prog.issues_perform _ _).mpr h

/-- Another counter is none of the events'. -/
theorem counts_metric {m : Metric} (hm : ∀ type, m ≠ .activityEventsCreatedTotal type)
    (hs : m = .settlementsCreatedTotal → S) : (Op.metric m).Counts S := by
  refine ⟨fun type h => hm type (Op.metric.inj h), fun h => ?_⟩
  rcases h with h | h
  · exact h.elim
  · exact hs (Op.metric.inj h)

/-- An operation that is neither a metric nor the commit of a settlement. -/
theorem counts_other {o : Op} (hs : ¬o.Settles) (hm : ∀ m, o ≠ .metric m) : o.Counts S := by
  refine ⟨fun type => hm _, fun h => ?_⟩
  rcases h with h | h
  · exact absurd h hs
  · exact absurd h (hm _)

/-- Another counter may be incremented. -/
theorem counting_metric {m : Metric} (hm : ∀ type, m ≠ .activityEventsCreatedTotal type)
    (hs : m = .settlementsCreatedTotal → S) : Counting S (increment m) :=
  counting_op (counts_metric hm hs)

/-- A repository method other than the commit of a settlement. -/
theorem counting_db {o : DbOp} (ho : ¬(Op.db o).Settles) {g : o.Res → Act β}
    (hg : ∀ r, Counting S (g r)) : Counting S ((Op.perform (.db o)).bind g) :=
  .bind (counting_op (counts_other ho fun _ h => by cases h)) hg

/-- A query. -/
theorem counts_query {o : DbOp} (ho : ¬(Op.db o).Settles) : (Op.db o).Counts S :=
  counts_other ho fun _ h => by cases h

/-- The choice between two queries. -/
theorem counts_race : Op.race.Counts S := counts_other (fun h => h) fun _ h => by cases h

/-- A command of Redis counts nothing. -/
theorem counting_redis {caller : Caller} {c : Command Key Stored} :
    Counting S (Op.perform (.redis caller c)) :=
  counting_op (counts_other (fun h => h) fun _ h => by cases h)

/-- The time counts nothing. -/
theorem counting_newDate : Counting S newDate :=
  counting_op (counts_other (fun h => h) fun _ h => by cases h)

/-- A random value counts nothing. -/
theorem counting_randomId : Counting S randomId :=
  counting_op (counts_other (fun h => h) fun _ h => by cases h)

/-- A check of a value counts nothing. -/
theorem counting_expect {a : Option α} {e : Err} {g : α → Act β} (hg : ∀ b, Counting S (g b)) :
    Counting S ((Prog.expect a e).bind g) :=
  .bind (Prog.issues_expect _ _ _) hg

/-- A check counts nothing. -/
theorem counting_ensure {p : Prop} [Decidable p] {e : Err} {g : Unit → Act β}
    (hg : Counting S (g ())) : Counting S ((Prog.ensure p e).bind g) :=
  .bind (Prog.issues_ensure _ _ _) fun _ => hg

/-- A failure of the cache is counted, but as no event. -/
theorem counting_cacheFailure {operation : String} :
    Counting S (increment (.cacheFailuresTotal operation)) :=
  counting_metric (fun _ h => by cases h) fun h => by cases h

/-- Dropping a group from the cache counts nothing. -/
theorem counting_invalidateGroupCache (groupId : Id) :
    Counting S (GroupCache.invalidateGroupCache groupId) := by
  refine .bind (.attempt counting_redis) fun r => ?_
  cases r
  · exact counting_cacheFailure
  · trivial

/-- `getGroupById` counts right. -/
theorem counting_getGroupById (userId groupId : Id) :
    Counting S (GroupService.getGroupById env lib userId groupId) := by
  refine .bind (.bind (.attempt counting_redis) fun r => ?_) fun cached => ?_
  · rcases r with e | _ | raw
    · exact .bind counting_cacheFailure fun _ => trivial
    · trivial
    · trivial
  · cases cached with
    | some cached => exact counting_db id fun _ => counting_ensure trivial
    | none =>
      refine counting_db id fun _ => counting_expect fun group => counting_db id fun _ =>
        counting_ensure (.bind (.bind (.attempt counting_redis) fun r => ?_) fun _ => trivial)
      cases r
      · exact counting_cacheFailure
      · trivial

/-- `updateGroup` counts right. -/
theorem counting_updateGroup (userId groupId : Id) (name : String) :
    Counting S (GroupService.updateGroup userId groupId name) := by
  refine counting_db id fun _ => counting_expect fun _ => counting_ensure ?_
  refine .bind (counting_db id fun existing => ?_) fun updated => counting_expect fun _ =>
    .bind (counting_invalidateGroupCache _) fun _ => trivial
  split
  · exact counting_db id fun _ => trivial
  · trivial

/-- `addGroupMember` counts right. -/
theorem counting_addGroupMember (userId groupId memberId : Id) :
    Counting S (GroupService.addGroupMember userId groupId memberId) :=
  counting_db id fun _ => counting_expect fun _ => counting_ensure <| counting_db id fun _ =>
    counting_expect fun _ => counting_db id fun _ => counting_ensure <| counting_db id fun _ =>
      .bind (counting_invalidateGroupCache _) fun _ => trivial

/-- `removeGroupMember` counts right. -/
theorem counting_removeGroupMember (userId groupId memberId : Id) :
    Counting S (GroupService.removeGroupMember userId groupId memberId) :=
  counting_db id fun _ => counting_expect fun _ => counting_ensure <| counting_ensure <|
    counting_db id fun _ => counting_expect fun _ => counting_db id fun _ =>
      counting_expect fun _ => counting_db id fun _ => counting_invalidateGroupCache _

/-- `createExpense` counts right. -/
theorem counting_createExpense (requesterId : Id) (input : CreateExpenseInput) :
    Counting S (ExpenseService.createExpense requesterId input) := by
  refine counting_db id fun _ => counting_expect fun _ => counting_db id fun _ =>
    counting_ensure (counting_ensure (.bind (Prog.issues_ofExcept _ _) fun _ => .bind ?_ fun date =>
      counting_db id fun _ => .bind ?_ fun _ => trivial))
  · cases input.expenseDate with
    | none => exact counting_newDate
    | some date => trivial
  · exact counting_metric (fun _ h => by cases h) fun h => by cases h

/-- The check of the membership counts nothing. -/
theorem counting_assertMemberOfGroup (requesterId groupId : Id) :
    Counting S (ExpenseService.assertMemberOfGroup requesterId groupId) :=
  counting_db id fun _ => Prog.issues_ensure _ _ _

/-- `updateExpense` counts right. -/
theorem counting_updateExpense (requesterId expenseId : Id) (input : UpdateExpenseInput) :
    Counting S (ExpenseService.updateExpense requesterId expenseId input) :=
  counting_db id fun _ => counting_expect fun _ => counting_db id fun _ => counting_ensure <|
    counting_ensure <| .bind (Prog.issues_ofExcept _ _) fun _ => counting_db id fun _ =>
      .bind (counting_metric (fun _ h => by cases h) fun h => by cases h) fun _ => trivial

/-- `deleteExpense` counts right. -/
theorem counting_deleteExpense (requesterId expenseId : Id) :
    Counting S (ExpenseService.deleteExpense requesterId expenseId) :=
  counting_db id fun _ => counting_expect fun _ => .bind (counting_assertMemberOfGroup _ _)
    fun _ => counting_db id fun _ => counting_metric (fun _ h => by cases h) fun h => by cases h

/-- `getGroupExpenses` counts right. -/
theorem counting_getGroupExpenses (requesterId groupId : Id) (pagination : Option (ℕ × ℕ)) :
    Counting S (ExpenseService.getGroupExpenses requesterId groupId pagination) := by
  refine counting_db id fun _ => counting_expect fun _ =>
    .bind (counting_assertMemberOfGroup _ _) fun _ =>
      .bind (ExpenseRepository.issues_findExpensesByGroupId (counts_query id) (counts_query id)
        counts_race) fun r => ?_
  cases pagination <;> trivial

/-- `getGroupSettlements` counts right. -/
theorem counting_getGroupSettlements (requesterId groupId : Id) (pagination : Option (ℕ × ℕ)) :
    Counting S (SettlementService.getGroupSettlements requesterId groupId pagination) := by
  refine counting_db id fun _ => counting_expect fun _ =>
    .bind (counting_db id fun _ => Prog.issues_ensure _ _ _) fun _ =>
      .bind (SettlementRepository.issues_findSettlementsByGroupId (counts_query id)
        (counts_query id) counts_race) fun r => ?_
  cases pagination <;> trivial

/-- `enqueueGroupSummaryRecompute` counts right. -/
theorem counting_enqueue (requesterId groupId : Id) (requestId : Option String) :
    Counting S (SummaryService.enqueueGroupSummaryRecompute env requesterId groupId requestId) := by
  have henqueue :
      Counting S (SummaryService.enqueueGroupSummaryRecomputeJob env groupId requestId) :=
    .bind (.bind counting_randomId fun _ => .bind counting_newDate fun _ => .bind counting_redis
      fun _ => .bind counting_newDate fun _ => .bind counting_redis fun _ => trivial)
        fun _ => trivial
  refine counting_db id fun _ => counting_expect fun _ => counting_db id fun _ =>
    counting_ensure <| .bind henqueue.attempt fun r => ?_
  cases r with
  | error e =>
    exact .bind (counting_metric (fun _ h => by cases h) fun h => by cases h) fun _ => trivial
  | ok job => trivial

/-- A lock counts nothing of its own. -/
theorem counting_withLock {key : Key} {operation : Act α} (h : Counting S operation) :
    Counting S (DistributedLock.withLock env key operation) := by
  refine .bind (.attempt (.bind counting_randomId fun _ => .bind counting_redis fun _ => trivial))
    fun r => ?_
  rcases r with e | _ | token
  · exact h
  · trivial
  · exact .bind h.attempt fun outcome => .bind (.attempt counting_redis) fun _ =>
      Prog.issues_ofExcept _ _

/-- A replay counts nothing. -/
theorem counting_replaySettlement (record : IdempotencyRecord) :
    Counting S (SettlementRepository.replaySettlement record) :=
  counting_expect fun _ => counting_db id fun _ => Prog.issues_expect _ _ _

/-- A clash of two claims counts nothing. -/
theorem counting_settleClash (context : IdempotencyContext) :
    Counting S (SettlementRepository.settleClash context) := by
  refine counting_db id fun existing => ?_
  cases existing with
  | none => trivial
  | some existing =>
    refine .bind counting_newDate fun now => .bind (Prog.issues_ofExcept _ _) fun r => ?_
    cases r
    · exact counting_replaySettlement existing
    · trivial

/-- `createSettlement` counts right, and its settlements too. -/
theorem counting_createSettlement (requesterId : Id) (input : CreateSettlementInput)
    (context : IdempotencyContext) :
    Counting True (SettlementService.createSettlement env requesterId input context) := by
  have hsettle : ∀ existing data activity,
      Counting True (SettlementRepository.settle existing data context activity) :=
    fun _ _ _ => .bind counting_newDate fun _ =>
      counting_op ⟨fun _ h => (by cases h), fun _ => trivial⟩
  -- The checks, the lock around the transaction, and the count after it.
  refine counting_db id fun _ => counting_expect fun _ => counting_db id fun _ =>
    counting_ensure <| counting_ensure <| counting_ensure <| counting_ensure <|
      .tryCatch (.bind (counting_withLock (.bind counting_newDate fun settledAt => ?_)) fun s =>
        .bind (counting_metric (fun _ h => by cases h) fun _ => trivial)
          fun _ => trivial) fun e => ?_
  · refine .tryCatch (counting_db id fun existing => ?_) fun e => ?_
    · cases existing with
      | none => exact hsettle none _ _
      | some existing =>
        refine .bind counting_newDate fun now => .bind (Prog.issues_ofExcept _ _) fun r => ?_
        cases r
        · exact counting_replaySettlement existing
        · exact hsettle (some existing.id) _ _
    · split
      · exact counting_settleClash context
      · trivial
  · split <;> trivial

/-- Every call counts no event by itself, and only `createSettlement` has to do with settlements. -/
theorem counting_storeCall (c : StoreCall) : Counting c.Settles (c.body env lib) := by
  -- What a call returns has no part in what it counts.
  have hvoid : ∀ {α : Type} {S : Prop} {p : Act α}, Counting S p → Counting S (void p) :=
    fun hp => .bind hp fun _ => trivial
  cases c with
  | createGroup userId name =>
    exact hvoid <| counting_db id fun _ =>
      .bind (counting_metric (fun _ h => by cases h) fun h => by cases h) fun _ => trivial
  | group c =>
    cases c with
    | getGroupById => exact hvoid (counting_getGroupById _ _)
    | updateGroup => exact hvoid (counting_updateGroup _ _ _)
    | deleteGroup =>
      exact hvoid <| counting_db id fun _ => counting_expect fun _ => counting_ensure <|
        counting_db id fun _ => counting_invalidateGroupCache _
    | addGroupMember => exact hvoid (counting_addGroupMember _ _ _)
    | removeGroupMember => exact hvoid (counting_removeGroupMember _ _ _)
    | createExpense => exact hvoid (counting_createExpense _ _)
    | getExpenseById =>
      exact hvoid <| counting_db id fun _ => counting_expect fun _ =>
        .bind (counting_assertMemberOfGroup _ _) fun _ => trivial
    | updateExpense => exact hvoid (counting_updateExpense _ _ _)
    | deleteExpense => exact hvoid (counting_deleteExpense _ _)
    | getGroupExpenses => exact hvoid (counting_getGroupExpenses _ _ _)
    | getGroupBalances =>
      exact hvoid <| counting_db id fun _ => counting_expect fun _ => counting_db id fun _ =>
        counting_ensure <| counting_db id fun _ => counting_db id fun _ => trivial
    | createSettlement => exact hvoid (counting_createSettlement _ _ _)
    | getSettlementById =>
      exact hvoid <| counting_db id fun _ => counting_expect fun _ =>
        .bind (counting_db id fun _ => Prog.issues_ensure _ _ _) fun _ => trivial
    | getGroupSettlements => exact hvoid (counting_getGroupSettlements _ _ _)
    | getGroupActivity =>
      exact hvoid <| counting_db id fun _ => counting_expect fun _ => counting_db id fun _ =>
        counting_ensure <| .bind (issues_promiseAll (counting_op (counts_query id))
          (counting_op (counts_query id)) counts_race) fun _ => trivial
    | getGroupSummary =>
      exact hvoid <| counting_db id fun _ => counting_expect fun _ => counting_db id fun _ =>
        counting_ensure <| counting_db id fun _ => counting_expect fun _ => trivial
    | enqueueGroupSummaryRecompute => exact hvoid (counting_enqueue _ _ _)

end Counts

/-- Every call uses ordinary operations. -/
theorem ordinary_storeCall {lib : Lib} {env : Env} (c : StoreCall) :
    (c.body env lib).Issues Op.Ordinary :=
  ((storeCall_issues c).and (counting_storeCall c)).mono fun _ h => ⟨h.1, h.2.1⟩

/-! ## What a call owes -/

/-- What an operation added to a measure of the tables. -/
def added (f : Db → ℕ) (e : BackendEntry) : ℕ := f e.post.db - f e.pre.db

/-- What this process committed of a measure of the tables. -/
def committed (f : Db → ℕ) (log : List BackendEntry) : ℕ := (log.map (added f)).sum

/-- What an operation added to the counter of settlements. -/
def counted (e : BackendEntry) : ℕ :=
  e.post.metrics.count .settlementsCreatedTotal - e.pre.metrics.count .settlementsCreatedTotal

/-- The number of settlements. -/
def Db.settlementCount (db : Db) : ℕ := db.settlements.length

/-- The operation reads the record of a key. -/
def Op.ReadsKey : Op → Prop
  | .db (.settlement (.findIdempotencyRecord _)) => True
  | _ => False

instance : DecidablePred Op.ReadsKey := fun o => by
  unfold Op.ReadsKey
  split <;> infer_instance

/-- The operation found a settlement. -/
def FindsSettlement : BackendEntry → Prop
  | ⟨_, .db (.settlement (.findSettlementById _)), _, _, .ok (some _), _⟩ => True
  | _ => False

/-- No call that has read the record of a key has found a settlement. -/
def Unreplayed : List BackendEntry → Prop
  | [] => True
  | e :: l => (FindsSettlement e → ∀ e' ∈ l, ¬e'.op.ReadsKey) ∧ Unreplayed l

/-- The call has committed `k` settlements more than it has counted, unless it was answered with the
settlement of an earlier request. -/
def Owes (k : ℕ) (l : List BackendEntry) : Prop :=
  Unreplayed l → (l.map counted).sum + k = committed Db.settlementCount l

/-- What a settled request owes. -/
def due {α : Type} : Except Err α → ℕ
  | .ok _ => 1
  | .error _ => 0

section Owes

variable {lib : Lib} {o : Op} {w w' : World} {did seen : Except Err (backend.Res o)}

/-- A transaction of the calls counts nothing but events. -/
theorem count_settlements_exec {o : DbOp} (ho : Transaction o ∨ Removal o) (c : Choice)
    (w : World) : (o.access.exec ((Op.db o).spare c) w).2.metrics.count .settlementsCreatedTotal =
      w.metrics.count .settlementsCreatedTotal := by
  cases hk : o.eventStatement with
  | none =>
    obtain ⟨id, rfl⟩ := DbOp.eq_deleteGroup ho hk
    rw [metrics_deleteGroup]
  | some k =>
    -- The transaction of a call other than a settlement counts an event of another kind.
    obtain ⟨t, ht⟩ : ∃ t, o.access = .write t := by
      rcases ho with ho | ho <;> cases ho <;> exact ⟨_, rfl⟩
    obtain ⟨type, hrecords⟩ := DbOp.recordsAt ho ht hk ((Op.db o).spare c) w.now w.db
    have hmetrics : (o.access.exec ((Op.db o).spare c) w).2.metrics =
        ((t ((Op.db o).spare c) w.now).run ((Op.db o).spare c).cut (.prisma .unavailable)
          w.db).2.2.reverse ++ w.metrics := by
      rw [ht]
      rfl
    rw [hmetrics]
    rcases hrecords.run (cut_spare hk c) (.prisma .unavailable) with hrun | ⟨event, d', -, -, hrun⟩
    · rw [hrun]
      rfl
    · rw [hrun]
      exact List.count_cons_of_ne (by rintro ⟨⟩)

/-- Only the commit of a settlement adds a settlement. -/
theorem settlementCount_le {o : DbOp} (ho : Transaction o ∨ Removal o) (hs : ¬(Op.db o).Settles)
    {t : Choice → Time → Tx Db Err Metric o.Res} (ht : o.access = .write t) {c : Choice}
    {now : Time} {r : o.Res} {d d' : Db} (heval : (t c now).eval d = .ok (r, d')) :
    d'.settlementCount ≤ d.settlementCount := by
  -- Only the transaction of a settlement adds one; the deletion of a group may remove some.
  rcases ho with ho | ho <;> cases ho <;> obtain rfl := Access.write.inj ht
  case inl.createGroup =>
    obtain ⟨event, -, -, -, rfl⟩ := createGroupWithOwner_eq_ok heval
    exact le_rfl
  case inl.updateGroup =>
    obtain ⟨old, event, -, -, -, rfl⟩ := updateGroupWithEvent_eq_ok heval
    exact le_rfl
  case inl.deleteGroup =>
    obtain rfl := groupDelete_eq_ok heval
    exact List.length_filter_le _ _
  case inl.addGroupMember =>
    obtain ⟨event, -, -, -, -, rfl⟩ := addGroupMemberWithEvent_eq_ok heval
    exact le_rfl
  case inl.createExpense =>
    obtain ⟨e, d₁, event, he, -, rfl, -⟩ := createExpenseWithSplits_eq_ok heval
    obtain ⟨-, -, rfl⟩ := expenseCreate_eq_ok he
    exact le_rfl
  case inl.updateExpense =>
    obtain ⟨e, d₁, event, he, -, rfl, -⟩ := updateExpenseWithSplits_eq_ok heval
    obtain ⟨old, -, -, -, -, rfl⟩ := expenseUpdate_eq_ok he
    exact le_rfl
  case inl.deleteExpense =>
    obtain ⟨e, event, -, -, rfl⟩ := deleteExpenseWithEvent_eq_ok heval
    exact le_rfl
  case inl.settle => exact absurd trivial hs
  case inr.removeGroupMember =>
    obtain ⟨event, -, -, rfl⟩ := removeGroupMemberWithEvent_eq_ok heval
    exact le_rfl

/-- An operation other than the count of a settlement leaves their counter alone. -/
theorem count_of_answer (hd : o.OnDb (ReadsOr fun o => Transaction o ∨ Removal o))
    (hm : o ≠ .metric .settlementsCreatedTotal) (h : (unbroken lib).Answer o w did seen w') :
    w'.metrics.count .settlementsCreatedTotal = w.metrics.count .settlementsCreatedTotal := by
  rcases answer_unbroken h with ⟨c, -, rfl, -⟩ | ⟨rfl, -⟩
  · cases o with
    | metric m => exact List.count_cons_of_ne fun h => hm (congrArg Op.metric h)
    | db o =>
      rcases hd with ⟨f, hf⟩ | ho
      · show (o.access.exec _ w).2.metrics.count _ = _
        rw [hf]
        rfl
      · exact count_settlements_exec ho c w
    | _ => rfl
  · rfl

/-- An operation that has to do with no settlement neither adds nor counts one. -/
theorem quiet_of_answer (hd : o.OnDb (ReadsOr fun o => Transaction o ∨ Removal o))
    (hs : o.Counts False) (h : (unbroken lib).Answer o w did seen w') (pid : ℕ) :
    added Db.settlementCount ⟨pid, o, w, did, seen, w'⟩ = 0 ∧
      counted ⟨pid, o, w, did, seen, w'⟩ = 0 := by
  have hcount := count_of_answer hd (fun hm => hs.2 (.inr hm)) h
  have hle : w'.db.settlementCount ≤ w.db.settlementCount := by
    rcases answer_unbroken h with ⟨c, -, rfl, -⟩ | ⟨rfl, -⟩
    · cases o with
      | db o =>
        rcases Access.exec_cases o.access ((Op.db o).spare c) w with
          hdb | ⟨t, r, db', ht, heval, -, hdb⟩
        · exact le_of_eq (congrArg Db.settlementCount hdb)
        · rcases hd with ⟨f, hf⟩ | ho
          · rw [hf] at ht
            cases ht
          · have hle := settlementCount_le ho (fun hset => hs.2 (.inl hset)) ht heval
            exact hdb ▸ hle
      | _ => exact le_rfl
    · exact le_rfl
  exact ⟨Nat.sub_eq_zero_of_le hle, Nat.sub_eq_zero_of_le (le_of_eq hcount)⟩

/-- The commit of a settlement adds one if it is answered, and none otherwise. -/
theorem settled_of_answer (ho : o.OnDb (ReadsOr fun o => Transaction o ∨ Removal o))
    (hs : o.Settles) (h : (unbroken lib).Answer o w did seen w') (pid : ℕ) :
    added Db.settlementCount ⟨pid, o, w, did, seen, w'⟩ = due seen ∧
      counted ⟨pid, o, w, did, seen, w'⟩ = 0 := by
  have hcount := count_of_answer ho (fun hm => by rw [hm] at hs; exact hs) h
  refine ⟨?_, Nat.sub_eq_zero_of_le (le_of_eq hcount)⟩
  -- The caller learns what became of it.
  have hseen : seen = did := by
    rcases answer_unbroken h with ⟨c, -, -, hseen | ⟨hne, -⟩⟩ | ⟨-, e, hdid, hseen⟩
    · exact hseen
    · exact absurd hs hne
    · rw [hdid, hseen]
  obtain ⟨existing, data, context, a, expiresAt, rfl⟩ : ∃ existing data context a expiresAt,
      o = .db (.settlement (.claimAndSettle existing data context a expiresAt)) := by
    unfold Op.Settles at hs
    split at hs
    · exact ⟨_, _, _, _, _, rfl⟩
    · exact hs.elim
  obtain ⟨-, -, ⟨e, hdid, hdb⟩ | ⟨c, r, hdid, heval⟩⟩ :=
    answer_write (o := .settlement (.claimAndSettle existing data context a expiresAt)) rfl
      (machine_of_unbroken h)
  · rw [hseen, hdid]
    show w'.db.settlementCount - w.db.settlementCount = 0
    rw [hdb, Nat.sub_self]
  · rw [hseen, hdid]
    obtain ⟨-, -, event, records, -, -, hdb⟩ := claimAndSettle_eq_ok heval
    show w'.db.settlementCount - w.db.settlementCount = 1
    have hcount : w'.db.settlementCount = w.db.settlementCount + 1 := by rw [hdb]; rfl
    omega

/-- What an operation with its measures does to what a call owes. -/
theorem Owes.cons {k j : ℕ} {l : List BackendEntry} {e : BackendEntry} (h : Owes k l)
    (he : counted e + j = added Db.settlementCount e + k) : Owes j (e :: l) := by
  intro hl
  have hk := h hl.2
  simp only [committed, List.map_cons, List.sum_cons] at hk ⊢
  omega

end Owes

/-- An operation that has to do with no settlement. -/
def Op.Quiet (o : Op) : Prop :=
  o.OnDb (ReadsOr fun o => Transaction o ∨ Removal o) ∧ o.Counts False

section Programs

variable {lib : Lib} {env : Env} {pid : ℕ} {α : Type} {l : List BackendEntry}

/-- The rules for the entries of one call. -/
abbrev owing (lib : Lib) (pid : ℕ) : Discipline backend Err (List BackendEntry) :=
  (unbroken lib).ownLog pid fun _ _ => True

/-- A quiet operation leaves what is owed. -/
theorem Owes.quiet {k : ℕ} (h : Owes k l) {o : Op} (ho : o.Quiet) {w w' : World}
    {did seen : Except Err (backend.Res o)} (hans : (unbroken lib).Answer o w did seen w') :
    Owes k (⟨pid, o, w, did, seen, w'⟩ :: l) := by
  obtain ⟨hadded, hcounted⟩ := quiet_of_answer ho.1 ho.2 hans pid
  exact h.cons (by rw [hadded, hcounted])

/-- A program without settlements changes nothing in what the call owes. -/
theorem quiet_wp {k : ℕ} {p : Act α} (hp : p.Issues Op.Quiet) (hl : Owes k l) :
    wp (owing lib pid) (fun _ => Owes k) p l :=
  wp_ownLog_of_issues (I := Owes k) hp (fun _ _ _ _ => trivial)
    (fun _ _ _ _ _ _ h ho hans => h.quiet ho hans) (fun _ _ h => h) hl

/-- A quiet operation before the rest. -/
theorem quiet_bind {o : Op} (ho : o.Quiet) {g : o.Res → Act α} (hl : Owes 0 l)
    (hg : ∀ w did v w', Owes 0 (⟨pid, o, w, did, .ok v, w'⟩ :: l) →
      wp (owing lib pid) (fun r => Owes (due r)) (g v) (⟨pid, o, w, did, .ok v, w'⟩ :: l)) :
    wp (owing lib pid) (fun r => Owes (due r)) ((Op.perform o).bind g) l := by
  refine wp_bind.mpr (wp_ownLog_perform trivial fun w did r w' hans => ?_)
  have howes : Owes 0 (⟨pid, o, w, did, r, w'⟩ :: l) := hl.quiet ho hans
  cases r with
  | error e => exact howes
  | ok v => exact hg w did v w' howes

/-- A query is quiet. -/
theorem quiet_read {o : DbOp} {f : Choice → Db → o.Res} (ho : o.access = .read f) :
    (Op.db o).Quiet := by
  refine ⟨.inl ⟨f, ho⟩, counts_other (fun hs => ?_) fun _ h => by cases h⟩
  cases o with
  | settlement o =>
    cases o with
    | claimAndSettle => cases ho
    | _ => exact hs
  | _ => exact hs

/-- The time is quiet. -/
theorem quiet_now : Op.now.Quiet :=
  ⟨trivial, counts_other (fun h => h) fun _ h => by cases h⟩

/-- A request that is answered with the settlement of an earlier one. -/
theorem replaySettlement_owes (hread : ∃ e ∈ l, e.op.ReadsKey) (hl : Owes 0 l)
    (record : IdempotencyRecord) : wp (owing lib pid) (fun r => Owes (due r))
      (SettlementRepository.replaySettlement record) l := by
  unfold SettlementRepository.replaySettlement
  refine wp_expect_bind.mpr ⟨fun id _ => ?_, fun _ => hl⟩
  refine quiet_bind (quiet_read rfl) hl fun w did v w' howes => ?_
  refine wp_expect.mpr ⟨fun s hs hun => ?_, fun _ => howes⟩
  subst hs
  -- It has read a record and found a settlement.
  obtain ⟨e, he, hkey⟩ := hread
  exact absurd hkey (hun.1 trivial e he)

/-- A call that has settled owes the counter what its answer says. -/
theorem settle_owes {existing : Option Id} {data : SettlementCreateData}
    {context : IdempotencyContext} {a : ActivityEventInput} (ha : a.type = .settlementAdded)
    (hl : Owes 0 l) : wp (owing lib pid) (fun r => Owes (due r))
      (SettlementRepository.settle existing data context a) l := by
  unfold SettlementRepository.settle
  refine quiet_bind quiet_now hl fun w did now w' howes => ?_
  refine wp_ownLog_perform trivial fun w₁ did₁ r w₂ hans => ?_
  have hcommit : ReadsOr (fun o => Transaction o ∨ Removal o) (.settlement
      (.claimAndSettle existing data context a (now + idempotencyRecordTtlMs))) :=
    .inr (.inl (.settle ha))
  obtain ⟨hadded, hcounted⟩ := settled_of_answer (o := .db _) hcommit trivial hans pid
  refine howes.cons ?_
  rw [hadded, hcounted]
  omega

/-- A call that lost the race for a key owes what its answer says. -/
theorem settleClash_owes (context : IdempotencyContext) (hl : Owes 0 l) :
    wp (owing lib pid) (fun r => Owes (due r)) (SettlementRepository.settleClash context) l := by
  unfold SettlementRepository.settleClash
  refine quiet_bind (quiet_read rfl) hl fun w did existing w' howes => ?_
  cases existing with
  | none => exact howes
  | some existing =>
    refine quiet_bind quiet_now howes fun w₁ did₁ now w₂ howes₁ => ?_
    refine wp_ofExcept_bind.mpr ⟨fun r _ => ?_, fun e _ => howes₁⟩
    cases r with
    | replay =>
      refine replaySettlement_owes ⟨_, List.mem_cons_of_mem _ List.mem_cons_self, ?_⟩ howes₁ existing
      exact trivial
    | reuse => exact howes₁

/-- The repository's answer is a settlement that it has just committed. -/
theorem createSettlement_owes {data : SettlementCreateData} {context : IdempotencyContext}
    {a : ActivityEventInput} (ha : a.type = .settlementAdded) (hl : Owes 0 l) :
    wp (owing lib pid) (fun r => Owes (due r))
      (SettlementRepository.createSettlement data context a) l := by
  unfold SettlementRepository.createSettlement
  refine wp_tryCatch.mpr ?_
  -- What the first attempt leaves owing is what its result says; a clash is looked into.
  have honce : wp (owing lib pid) (fun r => Owes (due r))
      (SettlementRepository.settleOnce data context a) l := by
    unfold SettlementRepository.settleOnce
    refine quiet_bind (quiet_read rfl) hl fun w did existing w' howes => ?_
    cases existing with
    | none => exact settle_owes ha howes
    | some existing =>
      refine quiet_bind quiet_now howes fun w₁ did₁ now w₂ howes₁ => ?_
      refine wp_ofExcept_bind.mpr ⟨fun r _ => ?_, fun e _ => howes₁⟩
      cases r with
      | replay =>
        refine replaySettlement_owes ⟨_, List.mem_cons_of_mem _ List.mem_cons_self, ?_⟩ howes₁
          existing
        exact trivial
      | reuse => exact settle_owes ha howes₁
  refine wp_mono (fun r l' hl' => ?_) honce
  cases r with
  | ok s => exact hl'
  | error e =>
    show wp _ _ (if _ then _ else _) l'
    split
    · exact settleClash_owes context hl'
    · exact hl'

/-- A command of Redis is quiet. -/
theorem quiet_redis {caller : Caller} {c : Command Key Stored} : (Op.redis caller c).Quiet :=
  ⟨trivial, counts_other (fun h => h) fun _ h => by cases h⟩

/-- The lock has nothing to do with settlements. -/
theorem withLock_owes {key : Key} {operation : Act α}
    (h : ∀ l, Owes 0 l → wp (owing lib pid) (fun r => Owes (due r)) operation l) (hl : Owes 0 l) :
    wp (owing lib pid) (fun r => Owes (due r)) (DistributedLock.withLock env key operation) l := by
  have hrandom : Op.random.Quiet := ⟨trivial, counts_other (fun h => h) fun _ h => by cases h⟩
  have hacquire : (DistributedLock.acquire env key).Issues Op.Quiet :=
    .bind ((Prog.issues_perform _ _).mpr hrandom) fun _ =>
      .bind ((Prog.issues_perform _ _).mpr quiet_redis) fun _ => trivial
  have hrelease : ∀ token, (DistributedLock.release key token).Issues Op.Quiet :=
    fun token => (Prog.issues_perform _ _).mpr quiet_redis
  unfold DistributedLock.withLock
  refine wp_bind.mpr (wp_attempt.mpr (wp_mono (fun r l₁ hl₁ => ?_) (quiet_wp hacquire hl)))
  rcases r with e | _ | token
  · exact h l₁ hl₁
  · exact hl₁
  · refine wp_bind.mpr (wp_attempt.mpr (wp_mono (fun outcome l₂ hl₂ => ?_) (h l₁ hl₁)))
    refine wp_bind.mpr (wp_attempt.mpr (wp_mono (fun _ l₃ hl₃ => ?_) (quiet_wp (hrelease token) hl₂)))
    cases outcome with
    | error e => exact hl₃
    | ok a => exact hl₃

/-- Counting a settlement pays what a settled request owes. -/
theorem increment_owes (hl : Owes 1 l) :
    wp (owing lib pid) (fun _ => Owes 0) (increment .settlementsCreatedTotal) l := by
  refine wp_ownLog_perform trivial fun w did r w' hans => ?_
  have hw : w' = { w with metrics := .settlementsCreatedTotal :: w.metrics } := by
    rcases answer_cases (machine_of_unbroken hans) with ⟨c, -, hw, -⟩ | ⟨-, e, he, -⟩
    · exact hw
    · cases he
  refine hl.cons ?_
  have hadded : added Db.settlementCount
      ⟨pid, .metric .settlementsCreatedTotal, w, did, r, w'⟩ = 0 := by
    rw [hw]
    exact Nat.sub_self _
  have hcounted : counted ⟨pid, .metric .settlementsCreatedTotal, w, did, r, w'⟩ = 1 := by
    rw [hw]
    show List.count _ (_ :: w.metrics) - _ = 1
    rw [List.count_cons_self]
    exact Nat.add_sub_cancel_left _ 1
  rw [hadded, hcounted]

/-- At the end of `createSettlement` nothing is owed. -/
theorem settlementService_owes (requesterId : Id) (input : CreateSettlementInput)
    (context : IdempotencyContext) (hl : Owes 0 l) : wp (owing lib pid) (fun _ => Owes 0)
      (SettlementService.createSettlement env requesterId input context) l := by
  have hread : ∀ {β : Type} {o : DbOp} {f : Choice → Db → o.Res} {g : o.Res → Act β}
      {l : List BackendEntry}, o.access = .read f → Owes 0 l →
      (∀ v l, Owes 0 l → wp (owing lib pid) (fun _ => Owes 0) (g v) l) →
      wp (owing lib pid) (fun _ => Owes 0) ((Op.perform (.db o)).bind g) l := by
    -- A query owes nothing and counts nothing.
    intro β o f g l ho hl hg
    refine wp_bind.mpr (wp_ownLog_perform trivial fun w did r w' hans => ?_)
    have howes : Owes 0 (⟨pid, .db o, w, did, r, w'⟩ :: l) := hl.quiet (quiet_read ho) hans
    cases r with
    | error e => exact howes
    | ok v => exact hg v _ howes
  unfold SettlementService.createSettlement
  refine hread (o := .settlement (.findGroupById _)) rfl hl fun group l₁ hl₁ => ?_
  refine wp_expect_bind.mpr ⟨fun _ _ => ?_, fun _ => hl₁⟩
  refine hread (o := .settlement (.findGroupMembers _)) rfl hl₁ fun members l₂ hl₂ => ?_
  refine wp_ensure_bind.mpr ⟨fun _ => ?_, fun _ => hl₂⟩
  refine wp_ensure_bind.mpr ⟨fun _ => ?_, fun _ => hl₂⟩
  refine wp_ensure_bind.mpr ⟨fun _ => ?_, fun _ => hl₂⟩
  refine wp_ensure_bind.mpr ⟨fun _ => ?_, fun _ => hl₂⟩
  -- Whatever the locked part ends with, it owes at most one count, which follows.
  refine wp_tryCatch.mpr (wp_bind.mpr (wp_mono (fun r l₃ hl₃ => ?_) (withLock_owes ?_ hl₂)))
  · cases r with
    | error e =>
      show wp _ _ (if _ then _ else _) l₃
      split
      · exact hl₃
      · exact hl₃
    | ok s =>
      refine wp_bind.mpr (wp_mono (fun r l₄ hl₄ => ?_) (increment_owes hl₃))
      cases r with
      | ok u => exact hl₄
      | error e =>
        show wp _ _ (if _ then _ else _) l₄
        split
        · exact hl₄
        · exact hl₄
  · intro l₃ hl₃
    exact quiet_bind quiet_now hl₃ fun w did now w' howes => createSettlement_owes rfl howes

/-- At the end of every call nothing is owed. -/
theorem storeCall_owes (c : StoreCall) :
    wp (owing lib pid) (fun _ => Owes 0) (c.body env lib) [] := by
  have hnil : Owes 0 [] := fun _ => rfl
  by_cases hc : c.Settles
  · obtain ⟨requesterId, input, context, rfl⟩ : ∃ requesterId input context,
        c = .group (.createSettlement requesterId input context) := by
      unfold StoreCall.Settles at hc
      split at hc
      · exact ⟨_, _, _, rfl⟩
      · exact hc.elim
    refine wp_bind.mpr (wp_mono (fun r l hl => ?_) (settlementService_owes _ _ _ hnil))
    cases r with
    | ok u => exact hl
    | error e => exact hl
  · have hquiet : (c.body env lib).Issues Op.Quiet :=
      ((storeCall_issues c).and (counting_storeCall c)).mono fun _ h =>
        ⟨h.1, h.2.1, fun hs => hc (h.2.2 hs)⟩
    exact quiet_wp hquiet hnil

end Programs

/-! ## Runs -/

/-- Any number of calls of one process. Whatever else happens to the world, the counters are its
own. -/
def meteredSystem (lib : Lib) (env : Env) : System backend Err Unit World where
  machine := machine lib
  Call := StoreCall
  body := StoreCall.body env lib
  valid := fun _ => True
  env := fun w w' => w'.metrics = w.metrics

instance (lib : Lib) (env : Env) : DecidablePred (meteredSystem lib env).valid :=
  fun _ => isTrue trivial

/-- A call that has read the record of a key is about to find the settlement of an earlier
request. -/
def AnswersReplay (own : List BackendEntry) (db : Db) : Op → Prop
  | .db (.settlement (.findSettlementById id)) =>
    (db.settlement? id).isSome ∧ ∃ e ∈ own, e.op.ReadsKey
  | _ => False

instance (own : List BackendEntry) (db : Db) : DecidablePred (AnswersReplay own db) := fun o => by
  unfold AnswersReplay
  split <;> infer_instance

/-- The runs in which no transaction is cut off after it created its event, no commit of a
settlement is reported as a failure, and no request is answered with the settlement of an earlier
one. -/
def unbrokenSystem (lib : Lib) (env : Env) : System backend Err Unit World :=
  { meteredSystem lib env with
    machine := unbroken lib
    allow := fun pid o h => ¬AnswersReplay (h.own pid) h.world.db o }

instance (lib : Lib) (env : Env) : DecidablePred (unbrokenSystem lib env).valid :=
  fun _ => isTrue trivial

instance (lib : Lib) (env : Env) (pid : ℕ) (o : Op) (h : Hist backend Err World) :
    Decidable ((unbrokenSystem lib env).allow pid o h) :=
  inferInstanceAs (Decidable (¬AnswersReplay (h.own pid) h.world.db o))

/-- The counters of a process are exact: those of events at any time, and that of settlements
whenever no call is under way, since a settlement is counted after it was committed. -/
structure CountersExact {sys : System backend Err Unit World} (cfg : sys.Config) : Prop where
  events : ∀ type, cfg.hist.world.metrics.count (.activityEventsCreatedTotal type) =
    committed (·.eventCount type) cfg.hist.log
  settlements : (∀ p ∈ cfg.procs, p.2.outcome?.isSome = true) →
    cfg.hist.world.metrics.count .settlementsCreatedTotal =
      committed Db.settlementCount cfg.hist.log

/-- No increment since the process started. -/
def Fresh (w : World) : Prop := w.metrics = []

section Runs

variable {lib : Lib} {env : Env} {cfg : (unbrokenSystem lib env).Config}

/-- The counters of events are exact. -/
theorem events_exact (h : (unbrokenSystem lib env).Reachable Fresh cfg) (type : ActivityType) :
    cfg.hist.world.metrics.count (.activityEventsCreatedTotal type) =
      committed (·.eventCount type) cfg.hist.log := by
  refine System.invariant Op.Ordinary
    (fun h => h.world.metrics.count (.activityEventsCreatedTotal type) =
      committed (·.eventCount type) h.log) (fun c _ => ordinary_storeCall c) ?_ ?_ ?_ h
  · intro w hw
    have hnil : w.metrics = [] := hw
    show w.metrics.count _ = 0
    rw [hnil]
    rfl
  · intro h w hI henv
    have hsame : w.metrics = h.world.metrics := henv
    show w.metrics.count _ = _
    rw [hsame]
    exact hI
  · intro pid o h did seen w ho hI _ hans
    have hcounts := countsEvents_of_answer ho hans type
    show w.metrics.count _ = added _ _ + committed _ h.log
    rw [hcounts, hI, Nat.add_comm]
    rfl

/-- What the log says of the counter of settlements: it adds up to it, and no call was answered with
the settlement of an earlier request. -/
structure SettlementLog (h : Hist backend Err World) : Prop where
  counted : h.world.metrics.count .settlementsCreatedTotal = (h.log.map counted).sum
  fresh : ∀ pid, Unreplayed (h.own pid)

/-- An operation takes no increment back. -/
theorem metrics_suffix {o : Op} {w w' : World} {did seen : Except Err (backend.Res o)}
    (h : (machine lib).Answer o w did seen w') : w.metrics <:+ w'.metrics := by
  rcases answer_cases h with ⟨c, -, rfl, -⟩ | ⟨rfl, -⟩
  · cases o with
    | metric m => exact List.suffix_cons _ _
    | db o =>
      show w.metrics <:+ (o.access.exec c w).2.metrics
      cases o.access with
      | read f => exact List.suffix_rfl
      | write t => exact List.suffix_append _ _
    | _ => exact List.suffix_rfl
  · exact List.suffix_rfl

/-- A call that is not allowed to be answered with the settlement of an earlier request is not. -/
theorem not_findsSettlement {h : Hist backend Err World} {pid : ℕ} {o : Op} {w : World}
    {did seen : Except Err (backend.Res o)} (ha : ¬AnswersReplay (h.own pid) h.world.db o)
    (hans : (machine lib).Answer o h.world did seen w)
    (hfinds : FindsSettlement ⟨pid, o, h.world, did, seen, w⟩) :
    ∀ e ∈ h.own pid, ¬e.op.ReadsKey := by
  intro e he hkey
  unfold FindsSettlement at hfinds
  split at hfinds
  · rename_i id _ _ s _ heq
    cases heq
    obtain ⟨-, ⟨c, hseen⟩ | hseen⟩ :=
      answer_read (o := .settlement (.findSettlementById id)) rfl hans
    · -- What it found is a settlement of the tables.
      obtain ⟨row, hrow, -⟩ := Option.map_eq_some_iff.mp (Except.ok.inj hseen).symm
      exact ha ⟨by rw [hrow]; rfl, e, he, hkey⟩
    · cases hseen
  · exact hfinds

/-- In every run the counter lags behind the settlements by what the calls under way owe, and calls
that have ended owe nothing. -/
theorem settlementLog_of_reachable (h : (unbrokenSystem lib env).Reachable Fresh cfg) :
    SettlementLog cfg.hist ∧ ∀ pid c r, cfg.procs[pid]? = some (c, .ofExcept r) →
      Owes 0 (cfg.hist.own pid) := by
  refine System.ends_of_ownLog (fun _ _ _ _ => True) (fun _ _ _ => Owes 0) SettlementLog ?_ ?_ ?_
    ?_ h
  · exact fun pid c _ => storeCall_owes c
  · intro w hw
    have hnil : w.metrics = [] := hw
    refine ⟨?_, fun _ => trivial⟩
    show w.metrics.count _ = 0
    rw [hnil]
    rfl
  · intro h w hI henv
    have hsame : w.metrics = h.world.metrics := henv
    refine ⟨?_, hI.fresh⟩
    show w.metrics.count _ = _
    rw [hsame]
    exact hI.counted
  · intro pid c o h did seen w _ hI ha hans
    constructor
    -- Counters are only added to, so that the sum over the log telescopes.
    · have hle := (metrics_suffix (machine_of_unbroken hans)).sublist.count_le
        .settlementsCreatedTotal
      have hsum := hI.counted
      show w.metrics.count _ = counted ⟨pid, o, h.world, did, seen, w⟩ + (h.log.map counted).sum
      rw [← hsum]
      show _ = w.metrics.count _ - h.world.metrics.count _ + _
      omega
    · intro q
      by_cases hq : pid = q
      · subst hq
        rw [Hist.own_record_self]
        exact ⟨fun hfinds => not_findsSettlement ha (machine_of_unbroken hans) hfinds, hI.fresh pid⟩
      · rw [Hist.own_record_of_ne h pid o did seen w hq]
        exact hI.fresh q

/-- Where no transaction is cut off after it created its event, no commit of a settlement is
reported as a failure, and no request is answered with the settlement of an earlier one, the
counters are exact in every state. -/
theorem counters_exact (h : (unbrokenSystem lib env).Reachable Fresh cfg) : CountersExact cfg := by
  refine ⟨events_exact h, fun hended => ?_⟩
  obtain ⟨hlog, hends⟩ := settlementLog_of_reachable h
  rw [hlog.counted]
  refine sum_eq_of_own (·.pid) cfg.hist.log fun pid => ?_
  show ((cfg.hist.own pid).map counted).sum = committed Db.settlementCount (cfg.hist.own pid)
  rcases lt_or_ge pid cfg.procs.length with hlt | hge
  · have hp := List.getElem?_eq_getElem hlt
    obtain ⟨r, hr⟩ := Prog.exists_ofExcept (hended _ (List.getElem_mem hlt))
    exact hends pid cfg.procs[pid].1 r (by rw [hp, ← hr]) (hlog.fresh pid)
  · rw [Hist.own_eq_nil (System.replays h).2.1 hge]
    rfl

end Runs

/-- The settlement of the runs below. -/
def tripSettlement : StoreCall :=
  .group (.createSettlement 1 ⟨20, 1, 2, 500⟩ ⟨"key", 1, "hash"⟩)

/-- A group whose creation is first cut off before its event, its second member, and a
settlement. -/
def meteredTrip : List (System.Action (unbrokenSystem .plain {})) :=
  let c : Choice := {}
  let early : Choice := { cut := some 2 }
  List.flatten [
    [.spawn (.createGroup 1 "Trip")], System.turns _ 0 early 1,
    [.spawn (.createGroup 1 "Trip")], System.turns _ 1 c 2,
    [.spawn (.group (.addGroupMember 1 20 2))], System.turns _ 2 c 5,
    [.spawn tripSettlement], System.turns _ 3 c 10]

/-- A group, its member and a settlement are counted. -/
theorem counters_exact_metered : ∃ cfg,
    (unbrokenSystem .plain {}).play meteredTrip ((unbrokenSystem .plain {}).start twoUsers) =
      some cfg ∧
    cfg.hist.world.metrics.count (.activityEventsCreatedTotal .groupCreated) = 1 ∧
    cfg.hist.world.metrics.count .settlementsCreatedTotal = 1 ∧ CountersExact cfg := by
  obtain ⟨cfg, hplay, hall, hevents, hsettlements⟩ : ∃ cfg,
      (unbrokenSystem .plain {}).play meteredTrip ((unbrokenSystem .plain {}).start twoUsers) =
        some cfg ∧
      (unbrokenSystem .plain {}).Allowed cfg.hist.log ∧
      cfg.hist.world.metrics.count (.activityEventsCreatedTotal .groupCreated) = 1 ∧
      cfg.hist.world.metrics.count .settlementsCreatedTotal = 1 :=
    System.exists_of_play (by decide +kernel)
  have hstart : (unbrokenSystem .plain {}).Reachable Fresh
      ((unbrokenSystem .plain {}).start twoUsers) := .start rfl
  exact ⟨cfg, hplay, hevents, hsettlements,
    counters_exact (System.reachable_of_allowed hstart hplay hall)⟩

/-- A group whose creation fails when it is committed. -/
def failedCommit : List (System.Action (meteredSystem .plain {})) :=
  let late : Choice := { cut := some 3 }
  .spawn (.createGroup 1 "Trip") :: System.turns _ 0 late 1

/-- A group of two members, and a settlement that is sent twice with one key. -/
def settledTwice : List (System.Action (meteredSystem .plain {})) :=
  let c : Choice := {}
  List.flatten [
    [.spawn (.createGroup 1 "Trip")], System.turns _ 0 c 2,
    [.spawn (.group (.addGroupMember 1 20 2))], System.turns _ 1 c 5,
    [.spawn tripSettlement], System.turns _ 2 c 10,
    [.spawn tripSettlement], System.turns _ 3 c 10]

/-- A transaction that fails when it is committed has counted its event, and a settlement request
that is repeated is counted twice. -/
theorem counters_inexact :
    (∃ cfg, (meteredSystem .plain {}).Reachable Fresh cfg ∧
      cfg.hist.world.metrics.count (.activityEventsCreatedTotal .groupCreated) = 1 ∧
      committed (·.eventCount .groupCreated) cfg.hist.log = 0 ∧ ¬CountersExact cfg) ∧
    ∃ cfg, (meteredSystem .plain {}).Reachable Fresh cfg ∧
      cfg.hist.world.metrics.count .settlementsCreatedTotal = 2 ∧
      committed Db.settlementCount cfg.hist.log = 1 ∧ ¬CountersExact cfg := by
  have hstart : (meteredSystem .plain {}).Reachable Fresh
      ((meteredSystem .plain {}).start twoUsers) := .start rfl
  constructor
  · obtain ⟨cfg, hplay, hcounter, hrows⟩ : ∃ cfg,
        (meteredSystem .plain {}).play failedCommit ((meteredSystem .plain {}).start twoUsers) =
          some cfg ∧
        cfg.hist.world.metrics.count (.activityEventsCreatedTotal .groupCreated) = 1 ∧
        committed (·.eventCount .groupCreated) cfg.hist.log = 0 :=
      System.exists_of_play (by decide +kernel)
    refine ⟨cfg, System.reachable_of_play (fun _ _ _ => trivial) hstart hplay, hcounter, hrows, ?_⟩
    intro h
    -- The event was counted inside a transaction that failed at its end.
    have heq := h.events .groupCreated
    omega
  · obtain ⟨cfg, hplay, hended, hcounter, hrows⟩ : ∃ cfg,
        (meteredSystem .plain {}).play settledTwice ((meteredSystem .plain {}).start twoUsers) =
          some cfg ∧
        (∀ p ∈ cfg.procs, p.2.outcome?.isSome = true) ∧
        cfg.hist.world.metrics.count .settlementsCreatedTotal = 2 ∧
        committed Db.settlementCount cfg.hist.log = 1 :=
      System.exists_of_play (by decide +kernel)
    refine ⟨cfg, System.reachable_of_play (fun _ _ _ => trivial) hstart hplay, hcounter, hrows, ?_⟩
    intro h
    -- The second request was answered with the first one's settlement, and counted again.
    have heq := h.settlements hended
    omega

end SplitBill
