import SplitBill.Calls
import SplitBill.Interleave.Replay

/-!
# Records of former members

`createExpense` and `createSettlement` check the requester, the payer and the participants or the
payee against a list of members that they read before the transaction which writes the record. A
member who is removed in between is recorded all the same. In runs in which none of these people is
removed between the check and the transaction, every record names members.
-/

namespace SplitBill

open Interleave

/-- A call that records an expense or a settlement, or that changes who is a member. -/
inductive RecordCall
  | createExpense (requesterId : Id) (input : CreateExpenseInput)
  | createSettlement (requesterId : Id) (input : CreateSettlementInput)
    (idempotency : IdempotencyContext)
  | addGroupMember (userId groupId memberId : Id)
  | removeGroupMember (userId groupId memberId : Id)

/-- The program of a call. -/
def RecordCall.body (env : Env) : RecordCall → Act Unit
  | createExpense requesterId input => void (ExpenseService.createExpense requesterId input)
  | createSettlement requesterId input idempotency =>
    void (SettlementService.createSettlement env requesterId input idempotency)
  | addGroupMember userId groupId memberId =>
    void (GroupService.addGroupMember userId groupId memberId)
  | removeGroupMember userId groupId memberId =>
    GroupService.removeGroupMember userId groupId memberId

/-- These calls, side by side. Whatever else happens leaves the memberships alone. -/
abbrev memberSystem (lib : Lib) (env : Env) : System backend Err Unit World where
  machine := machine lib
  Call := RecordCall
  body := RecordCall.body env
  valid := fun _ => True
  env := fun w w' => w'.db.groupMembers = w.db.groupMembers

instance (lib : Lib) (env : Env) : DecidablePred (memberSystem lib env).valid :=
  fun _ => isTrue trivial

/-! ## What the log says -/

/-- The group of the record that an operation writes, with the people that it names: the requester,
the payer, and the participants or the payee. -/
def recorded? : Op → Option (Id × List Id)
  | .db (.expense (.createExpenseWithSplits data activity)) =>
    some (data.groupId, activity.userId :: data.paidById :: data.splits.map (·.userId))
  | .db (.settlement (.claimAndSettle _ data _ activity _)) =>
    some (data.groupId, [activity.userId, data.payerId, data.payeeId])
  | _ => none

/-- The group whose members an entry read, with those that its caller saw. -/
def membersSeen? : BackendEntry → Option (Id × List Id)
  | ⟨_, .db (.expense (.findGroupMemberIds groupId)), _, _, .ok ids, _⟩ => some (groupId, ids)
  | ⟨_, .db (.settlement (.findGroupMembers groupId)), _, _, .ok members, _⟩ =>
    some (groupId, members.map (·.userId))
  | _ => none

/-- The group and the member that an entry removed from it. -/
def memberRemoved? : BackendEntry → Option (Id × Id)
  | ⟨_, .db (.group (.removeGroupMember groupId memberId _)), _, .ok _, _, _⟩ =>
    some (groupId, memberId)
  | _ => none

/-- A record that an entry committed names members of its group. -/
def RecordsMembers (e : BackendEntry) : Prop :=
  ∀ groupId people, recorded? e.op = some (groupId, people) → (∃ r, e.did = .ok r) →
    ∀ u ∈ people, u ∈ e.pre.db.memberIds groupId

/-- The entries since a call read the members. -/
def sinceCheck (pid : ℕ) (log : List BackendEntry) : List BackendEntry :=
  sinceLast pid (fun e => (membersSeen? e).isSome) log

/-- A record is written only when none of the people that it names was removed since its call read
the members. -/
def StillMembers (pid : ℕ) (o : Op) (h : Hist backend Err World) : Prop :=
  match recorded? o with
  | some (groupId, people) =>
    ∀ e ∈ sinceCheck pid h.log, ∀ u ∈ people, memberRemoved? e ≠ some (groupId, u)
  | none => True

instance (pid : ℕ) (o : Op) (h : Hist backend Err World) : Decidable (StillMembers pid o h) := by
  unfold StillMembers
  split <;> infer_instance

/-- The system, in runs in which no one is removed between the check and the record. -/
abbrev stillSystem (lib : Lib) (env : Env) : System backend Err Unit World :=
  { memberSystem lib env with allow := StillMembers }

instance (lib : Lib) (env : Env) : DecidablePred (stillSystem lib env).valid :=
  fun _ => isTrue trivial

/-! ## What a call checks -/

/-- The transactions of the calls. -/
inductive RecordWrite : DbOp → Prop
  | createExpense (data : Prisma.CreateExpenseData) (activity : ActivityEventInput) :
    RecordWrite (.expense (.createExpenseWithSplits data activity))
  | createSettlement (existing : Option Id) (data : Prisma.SettlementCreateData)
    (idempotency : IdempotencyContext) (activity : ActivityEventInput) (expiresAt : Time) :
    RecordWrite (.settlement (.claimAndSettle existing data idempotency activity expiresAt))
  | addGroupMember (groupId memberId : Id) (activity : ActivityEventInput) :
    RecordWrite (.group (.addGroupMember groupId memberId activity))
  | removeGroupMember (groupId memberId : Id) (activity : ActivityEventInput) :
    RecordWrite (.group (.removeGroupMember groupId memberId activity))

/-- A call performs no other transactions, and it writes a record only of people whom it saw among
the members of the record's group. -/
structure ChecksMembers (own : List BackendEntry) (o : Op) : Prop where
  writes : o.OnDb (ReadsOr RecordWrite)
  checks : ∀ groupId people, recorded? o = some (groupId, people) →
    ∃ r ids, own.find? (fun e => (membersSeen? e).isSome) = some r ∧
      membersSeen? r = some (groupId, ids) ∧ ∀ u ∈ people, u ∈ ids

/-- A database access that reads no members, and writes no record but one that names some of the
given people in the given group. -/
structure RecordsOnly (groupId : Id) (ids : List Id) (o : DbOp) : Prop where
  writes : ReadsOr RecordWrite o
  unseen : ∀ pid w did r w', membersSeen? ⟨pid, .db o, w, did, r, w'⟩ = none
  names : ∀ g people, recorded? (.db o) = some (g, people) → g = groupId ∧ ∀ u ∈ people, u ∈ ids

section Checks

variable {lib : Lib} {pid : ℕ} {α : Type}

/-- An operation that writes no record needs no check. -/
theorem checksMembers_of_none (own : List BackendEntry) (o : Op) (ho : recorded? o = none)
    (hw : o.OnDb (ReadsOr RecordWrite)) : ChecksMembers own o := by
  refine ⟨hw, fun groupId people h => ?_⟩
  rw [ho] at h
  cases h

/-- A query needs no check. -/
theorem checksMembers_of_read {o : DbOp} {f : Choice → Db → o.Res} (ho : o.access = .read f)
    (own : List BackendEntry) : ChecksMembers own (.db o) := by
  refine checksMembers_of_none own (.db o) ?_ (.inl ⟨f, ho⟩)
  cases o with
  | expense o =>
    cases o with
    | createExpenseWithSplits data activity => cases ho
    | _ => rfl
  | settlement o =>
    cases o with
    | claimAndSettle existing data idempotency activity expiresAt => cases ho
    | _ => rfl
  | _ => rfl

/-- The rest of a call that has read the members. -/
theorem checked_wp {p : Act α} {groupId : Id} {ids : List Id}
    (hp : p.Issues (Op.OnDb (RecordsOnly groupId ids))) {r : BackendEntry} {l : List BackendEntry}
    (hr : l.find? (fun e => (membersSeen? e).isSome) = some r)
    (hseen : membersSeen? r = some (groupId, ids)) :
    wp ((machine lib).ownLog pid ChecksMembers) (fun _ _ => True) p l := by
  refine wp_ownLog_of_issues (I := fun l => l.find? (fun e => (membersSeen? e).isSome) = some r)
    hp ?_ ?_ (fun _ _ _ => trivial) hr
  · intro l o hl ho
    cases o with
    | db o =>
      refine ⟨ho.writes, fun g people hrec => ?_⟩
      obtain ⟨rfl, hsub⟩ := ho.names g people hrec
      exact ⟨r, ids, hl, hseen, hsub⟩
    | _ =>
      refine checksMembers_of_none l _ rfl ?_
      trivial
  · intro l o w did r' w' hl ho _
    refine (List.find?_cons_of_neg ?_).trans hl
    cases o with
    | db o => simp [ho.unseen pid w did r' w']
    | _ => simp [membersSeen?]

/-- A call that writes no record. -/
theorem unrecorded_wp {p : Act α}
    (hp : p.Issues (Op.OnDb fun o => ReadsOr RecordWrite o ∧ recorded? (.db o) = none)) :
    wp ((machine lib).ownLog pid ChecksMembers) (fun _ _ => True) p [] := by
  refine wp_ownLog_of_issues (I := fun _ => True) hp ?_ (fun _ _ _ _ _ _ _ _ _ => trivial)
    (fun _ _ _ => trivial) trivial
  intro l o _ ho
  cases o with
  | db o => exact checksMembers_of_none l (.db o) ho.2 ho.1
  | _ =>
    refine checksMembers_of_none l _ rfl ?_
    trivial

/-- `createExpense` reads the members once, before it writes. -/
theorem createExpense_checks (requesterId : Id) (input : CreateExpenseInput) :
    wp ((machine lib).ownLog pid ChecksMembers) (fun _ _ => True)
      (ExpenseService.createExpense requesterId input) [] := by
  refine wp_ownLog_bind (fun _ _ => trivial) (checksMembers_of_read rfl _)
    fun w₁ did₁ group w₁' _ => ?_
  refine wp_expect_bind.mpr ⟨fun _ _ => ?_, fun _ => trivial⟩
  refine wp_ownLog_bind (fun _ _ => trivial) (checksMembers_of_read rfl _)
    fun w₂ did₂ memberIds w₂' _ => ?_
  refine wp_ensure_bind.mpr ⟨fun hrequester => ?_, fun _ => trivial⟩
  refine wp_ensure_bind.mpr ⟨fun hpayer => ?_, fun _ => trivial⟩
  refine wp_ofExcept_bind.mpr ⟨fun splits hsplits => ?_, fun _ _ => trivial⟩
  have hparticipants := reconcileSplits_members hsplits
  -- Whatever comes now, the members are those that the second entry saw.
  refine @checked_wp _ _ _ _ input.groupId memberIds ?_ _ _ rfl rfl
  refine .bind ?_ fun expenseDate => .bind (issues_op ?_) fun expense =>
    .bind (issues_op trivial) fun _ => trivial
  · cases input.expenseDate with
    | none => exact issues_op trivial
    | some date => trivial
  · refine ⟨.inr (.createExpense _ _), fun _ _ _ _ _ => rfl, fun g people hrec => ?_⟩
    obtain ⟨rfl, rfl⟩ := Prod.mk.inj (Option.some.inj hrec)
    exact ⟨rfl, List.forall_mem_cons.mpr
      ⟨hrequester, List.forall_mem_cons.mpr ⟨hpayer, hparticipants⟩⟩⟩

/-- `createSettlement` reads the members once, before it writes. -/
theorem createSettlement_checks (env : Env) (requesterId : Id) (input : CreateSettlementInput)
    (idempotency : IdempotencyContext) :
    wp ((machine lib).ownLog pid ChecksMembers) (fun _ _ => True)
      (SettlementService.createSettlement env requesterId input idempotency) [] := by
  refine wp_ownLog_bind (fun _ _ => trivial) (checksMembers_of_read rfl _)
    fun w₁ did₁ group w₁' _ => ?_
  refine wp_expect_bind.mpr ⟨fun _ _ => ?_, fun _ => trivial⟩
  refine wp_ownLog_bind (fun _ _ => trivial) (checksMembers_of_read rfl _)
    fun w₂ did₂ members w₂' _ => ?_
  refine wp_ensure_bind.mpr ⟨fun hrequester => ?_, fun _ => trivial⟩
  refine wp_ensure_bind.mpr ⟨fun _ => ?_, fun _ => trivial⟩
  refine wp_ensure_bind.mpr ⟨fun hpayer => ?_, fun _ => trivial⟩
  refine wp_ensure_bind.mpr ⟨fun hpayee => ?_, fun _ => trivial⟩
  -- All that follows but the recording names nobody.
  have hquiet : ∀ o : DbOp, ReadsOr RecordWrite o →
      (∀ pid w did r w', membersSeen? ⟨pid, .db o, w, did, r, w'⟩ = none) →
      recorded? (.db o) = none → RecordsOnly input.groupId (members.map (·.userId)) o := by
    intro o hwrites hseen hnone
    refine ⟨hwrites, hseen, fun g people hrec => ?_⟩
    rw [hnone] at hrec
    cases hrec
  refine @checked_wp _ _ _ _ input.groupId (members.map (·.userId)) ?_ _ _ rfl rfl
  refine .tryCatch ?_ fun e => ?_
  · refine .bind (DistributedLock.issues_withLock (.bind (issues_op trivial) fun settledAt => ?_))
      fun s => .bind (issues_op trivial) fun _ => trivial
    refine SettlementRepository.issues_createSettlement
      (fun _ => hquiet _ (.inl ⟨_, rfl⟩) (fun _ _ _ _ _ => rfl) rfl)
      (fun _ => hquiet _ (.inl ⟨_, rfl⟩) (fun _ _ _ _ _ => rfl) rfl) fun existing expiresAt => ?_
    -- The three people of the settlement passed the checks.
    refine ⟨.inr (.createSettlement _ _ _ _ _), fun _ _ _ _ _ => rfl, fun g people hrec => ?_⟩
    obtain ⟨rfl, rfl⟩ := Prod.mk.inj (Option.some.inj hrec)
    refine ⟨rfl, ?_⟩
    simp only [List.forall_mem_cons, List.not_mem_nil, false_imp_iff, implies_true, and_true]
    exact ⟨hrequester, hpayer, hpayee⟩
  · split <;> trivial

/-- Adding a member writes no record. -/
theorem addGroupMember_checks (userId groupId memberId : Id) :
    wp ((machine lib).ownLog pid ChecksMembers) (fun _ _ => True)
      (GroupService.addGroupMember userId groupId memberId) [] := by
  refine unrecorded_wp (.bind (issues_op ⟨.inl ⟨_, rfl⟩, rfl⟩) fun _ => ?_)
  refine .bind (Prog.issues_expect _ _ _) fun _ => .bind (Prog.issues_ensure _ _ _) fun _ => ?_
  refine .bind (issues_op ⟨.inl ⟨_, rfl⟩, rfl⟩) fun _ =>
    .bind (Prog.issues_expect _ _ _) fun _ => ?_
  refine .bind (issues_op ⟨.inl ⟨_, rfl⟩, rfl⟩) fun _ =>
    .bind (Prog.issues_ensure _ _ _) fun _ => ?_
  refine .bind (issues_op ⟨.inr (.addGroupMember _ _ _), rfl⟩) fun _ => ?_
  exact .bind (GroupCache.issues_invalidateGroupCache _ _) fun _ => trivial

/-- Removing a member writes no record. -/
theorem removeGroupMember_checks (userId groupId memberId : Id) :
    wp ((machine lib).ownLog pid ChecksMembers) (fun _ _ => True)
      (GroupService.removeGroupMember userId groupId memberId) [] := by
  refine unrecorded_wp (.bind (issues_op ⟨.inl ⟨_, rfl⟩, rfl⟩) fun _ => ?_)
  refine .bind (Prog.issues_expect _ _ _) fun _ => .bind (Prog.issues_ensure _ _ _) fun _ => ?_
  refine .bind (Prog.issues_ensure _ _ _) fun _ =>
    .bind (issues_op ⟨.inl ⟨_, rfl⟩, rfl⟩) fun _ => ?_
  refine .bind (Prog.issues_expect _ _ _) fun _ =>
    .bind (issues_op ⟨.inl ⟨_, rfl⟩, rfl⟩) fun _ => ?_
  refine .bind (Prog.issues_expect _ _ _) fun _ => ?_
  refine .bind (issues_op ⟨.inr (.removeGroupMember _ _ _), rfl⟩) fun _ => ?_
  exact GroupCache.issues_invalidateGroupCache _ _

/-- A call that records an expense checks the members it names before. -/
theorem body_checks (env : Env) (c : RecordCall) :
    wp ((machine lib).ownLog pid ChecksMembers) (fun _ _ => True) (c.body env) [] := by
  cases c with
  | createExpense requesterId input => exact wp_void (createExpense_checks requesterId input)
  | createSettlement requesterId input idempotency =>
    exact wp_void (createSettlement_checks env requesterId input idempotency)
  | addGroupMember userId groupId memberId =>
    exact wp_void (addGroupMember_checks userId groupId memberId)
  | removeGroupMember userId groupId memberId =>
    exact removeGroupMember_checks userId groupId memberId

end Checks

/-! ## Who stays a member -/

variable {lib : Lib}

/-- Whom a query of the members shows is a member. -/
theorem mem_of_membersSeen {r : BackendEntry}
    (hans : (machine lib).Answer r.op r.pre r.did r.seen r.post) {groupId : Id} {ids : List Id}
    (hseen : membersSeen? r = some (groupId, ids)) {u : Id} (hu : u ∈ ids) :
    u ∈ r.post.db.memberIds groupId := by
  unfold membersSeen? at hseen
  split at hseen
  -- The members' identifiers, as the expense service reads them.
  · rename_i pid g pre did seen post
    obtain ⟨rfl, rfl⟩ := Prod.mk.inj (Option.some.inj hseen)
    obtain ⟨hpost, hc⟩ := answer_read (o := .expense (.findGroupMemberIds g)) rfl hans
    obtain rfl : post = pre := hpost
    rcases hc with ⟨c, hc⟩ | hc
    · rw [Except.ok.inj hc] at hu
      exact mem_findGroupMemberIds.mp hu
    · cases hc
  -- The members' rows, as the settlement service reads them.
  · rename_i pid g pre did seen post
    obtain ⟨rfl, rfl⟩ := Prod.mk.inj (Option.some.inj hseen)
    obtain ⟨hpost, hc⟩ := answer_read (o := .settlement (.findGroupMembers g)) rfl hans
    obtain rfl : post = pre := hpost
    rcases hc with ⟨c, hc⟩ | hc
    · rw [Except.ok.inj hc] at hu
      exact mem_findGroupMembers.mp hu
    · cases hc
  · cases hseen

/-- What the transactions of the calls do to the memberships. -/
theorem RecordWrite.members {o : DbOp} (ho : RecordWrite o)
    {t : Choice → Time → Tx Db Err Metric o.Res}
    (ht : o.access = .write t) {c : Choice} {now : Time} {d d' : Db} {r : o.Res}
    (heval : (t c now).eval d = .ok (r, d')) {groupId u : Id}
    (hne : ∀ a, o ≠ .group (.removeGroupMember groupId u a)) (hu : u ∈ d.memberIds groupId) :
    u ∈ d'.memberIds groupId := by
  obtain ⟨m, hm, hgroup, huser⟩ := Db.mem_memberIds.mp hu
  refine Db.mem_memberIds.mpr ⟨m, ?_, hgroup, huser⟩
  -- Only the removal takes a row away, and it is the row of another pair.
  cases ho with
  | createExpense data activity =>
    obtain rfl := Access.write.inj ht
    obtain ⟨e, db₁, event, hcreate, -, rfl, -⟩ := createExpenseWithSplits_eq_ok heval
    obtain ⟨-, -, rfl⟩ := Prisma.expenseCreate_eq_ok hcreate
    exact hm
  | createSettlement existing data idempotency activity expiresAt =>
    obtain rfl := Access.write.inj ht
    obtain ⟨-, -, event, records, -, -, rfl⟩ := claimAndSettle_eq_ok heval
    exact hm
  | addGroupMember g v a =>
    obtain rfl := Access.write.inj ht
    obtain ⟨event, -, -, -, -, rfl⟩ := addGroupMemberWithEvent_eq_ok heval
    exact List.mem_cons_of_mem _ hm
  | removeGroupMember g v a =>
    obtain rfl := Access.write.inj ht
    obtain ⟨event, -, -, rfl⟩ := removeGroupMemberWithEvent_eq_ok heval
    refine List.mem_filter.mpr ⟨hm, decide_eq_true ?_⟩
    rintro ⟨rfl, rfl⟩
    exact hne a (by rw [hgroup, huser])

/-- An operation of these calls leaves a member in the group, unless it removes this member. -/
theorem member_stays {e : BackendEntry} (ho : e.op.OnDb (ReadsOr RecordWrite))
    (hans : (machine lib).Answer e.op e.pre e.did e.seen e.post) {groupId u : Id}
    (hne : memberRemoved? e ≠ some (groupId, u)) (hu : u ∈ e.pre.db.memberIds groupId) :
    u ∈ e.post.db.memberIds groupId := by
  obtain ⟨pid, o, pre, did, seen, post⟩ := e
  cases o with
  | db o =>
    obtain hdb | ⟨t, c, r, hacc, hdid, heval⟩ := answer_commit hans
    · have hdb : post.db = pre.db := hdb
      rwa [hdb]
    · rcases ho with ⟨f, hf⟩ | ho
      · rw [hacc] at hf
        cases hf
      · refine ho.members hacc heval (fun a ho => hne ?_) hu
        subst ho
        have hdid : did = .ok r := hdid
        rw [hdid]
        rfl
  | _ =>
    have hdb : post.db = pre.db := answer_db_eq (by rintro d ⟨⟩) hans
    rwa [hdb]

/-- In runs in which no one is removed between the check and the record, every record names members
of its group. -/
theorem records_name_members {lib : Lib} {env : Env} {cfg : (stillSystem lib env).Config}
    (h : (stillSystem lib env).Reachable (fun _ => True) cfg) :
    ∀ e ∈ cfg.hist.log, RecordsMembers e := by
  intro e he groupId people hrec _ u hu
  obtain ⟨⟨w₀, -, hlinked⟩, -, -⟩ := System.replays h
  have hfollows : ∀ e l, e :: l <:+ cfg.hist.log →
      ChecksMembers (l.filter (·.pid = e.pid)) e.op :=
    (System.follows_of_ownLog (fun pid c _ => body_checks env c) h).1
  obtain ⟨later, earlier, hlog⟩ := List.append_of_mem he
  have hsuffix : e :: earlier <:+ cfg.hist.log := ⟨later, hlog.symm⟩
  -- The call saw the person among the members, and since then no one was removed.
  obtain ⟨r, ids, hfind, hseen, hsub⟩ := (hfollows e earlier hsuffix).checks groupId people hrec
  obtain ⟨hearlier, hstill, -⟩ := hlinked.of_suffix hsuffix
  obtain ⟨l, hl⟩ := eq_sinceLast_append hfind
  have hmem : u ∈ r.post.db.memberIds groupId := by
    refine @mem_of_membersSeen lib _ (hlinked.answer ?_) _ _ hseen _ (hsub u hu)
    exact hsuffix.subset (List.mem_cons_of_mem _ (hl ▸ List.mem_append_right _ List.mem_cons_self))
  rw [hl] at hearlier
  refine (hearlier.keeps (P := fun w => u ∈ w.db.memberIds groupId) ?_ hmem ?_).1
  · intro w w' hw hsame
    have hsame : w'.db.groupMembers = w.db.groupMembers := hsame
    obtain ⟨m, hm, hmu⟩ := Db.mem_memberIds.mp hw
    exact Db.mem_memberIds.mpr ⟨m, hsame ▸ hm, hmu⟩
  · intro x hx hpre
    have hstill : StillMembers e.pid e.op ⟨e.pre, earlier⟩ := hstill
    unfold StillMembers at hstill
    rw [hrec] at hstill
    have hlog : x ∈ cfg.hist.log := by
      refine hsuffix.subset (List.mem_cons_of_mem _ ?_)
      rw [hl]
      exact List.mem_append_left _ hx
    obtain ⟨xl, xe, hx'⟩ := List.append_of_mem hlog
    exact @member_stays lib _ (hfollows x xe ⟨xl, hx'.symm⟩).writes (hlinked.answer hlog)
      _ _ (hstill x hx u hu) hpre

/-- The owner of a group and one more member. -/
def pairOfMembers : World where
  db :=
    { users := [⟨1, "A", "a@x.io", none, none⟩, ⟨2, "B", "b@x.io", none, none⟩]
      groups := [⟨10, "Trip", 1, 0, 0⟩]
      groupMembers := [⟨11, 10, 1, 0⟩, ⟨12, 10, 2, 0⟩]
      nextId := 20 }

/-- An expense of the owner, for these participants. -/
def newExpense (participants : List Participant) : RecordCall :=
  .createExpense 1 ⟨10, "Dinner", 1000, 1, .equal, participants, some 5⟩

/-- The owner removes the other member while an expense is on its way from its check to its
record. -/
def removedOnTheWay (lib : Lib) (env : Env) (allow : ℕ → Op → Hist backend Err World → Prop)
    (participants : List Participant) :
    List (System.Action { memberSystem lib env with allow := allow }) := List.flatten
  [[.spawn (newExpense participants), .spawn (.removeGroupMember 1 10 2), .op 0 {}, .op 0 {}],
    System.turns _ 1 {} 4, [.op 0 {}]]

/-- A member is removed while an expense that names another is recorded. -/
theorem records_name_members_alone : ∃ cfg,
    (stillSystem .plain {}).play (removedOnTheWay .plain {} StillMembers [⟨1, none⟩])
      ((stillSystem .plain {}).start pairOfMembers) = some cfg ∧
    (∃ e ∈ cfg.hist.log, recorded? e.op = some (10, [1, 1, 1])) ∧
    ∀ e ∈ cfg.hist.log, RecordsMembers e := by
  obtain ⟨cfg, hplay, hall, hrec⟩ : ∃ cfg, (stillSystem .plain {}).play
      (removedOnTheWay .plain {} StillMembers [⟨1, none⟩])
      ((stillSystem .plain {}).start pairOfMembers) = some cfg ∧
      (stillSystem .plain {}).Allowed cfg.hist.log ∧
      ∃ e ∈ cfg.hist.log, recorded? e.op = some (10, [1, 1, 1]) :=
    System.exists_of_play (by decide +kernel)
  have hreach : (stillSystem .plain {}).Reachable (fun _ => True) cfg :=
    System.reachable_of_allowed (.start trivial) hplay hall
  exact ⟨cfg, hplay, hrec, records_name_members hreach⟩

/-- An expense that was recorded for a participant who was no member any more. -/
theorem records_name_strangers : ¬∀ (lib : Lib) (env : Env) (cfg : (memberSystem lib env).Config),
    (memberSystem lib env).Reachable (fun _ => True) cfg →
    ∀ e ∈ cfg.hist.log, RecordsMembers e := by
  intro hmembers
  obtain ⟨cfg, hplay, e, he, hrec, hok, hstranger⟩ : ∃ cfg, (memberSystem .plain {}).play
      (removedOnTheWay .plain {} (fun _ _ _ => True) [⟨1, none⟩, ⟨2, none⟩])
      ((memberSystem .plain {}).start pairOfMembers) = some cfg ∧
      ∃ e ∈ cfg.hist.log, recorded? e.op = some (10, [1, 1, 1, 2]) ∧
        e.did.toOption.isSome = true ∧ 2 ∉ e.pre.db.memberIds 10 :=
    System.exists_of_play (by decide +kernel)
  have hreach : (memberSystem .plain {}).Reachable (fun _ => True) cfg :=
    System.reachable_of_play (fun _ _ _ => trivial) (.start trivial) hplay
  have hcommit : ∃ r, e.did = .ok r := by
    cases hdid : e.did with
    | error err =>
      rw [hdid] at hok
      cases hok
    | ok r => exact ⟨r, rfl⟩
  exact hstranger (hmembers .plain {} cfg hreach e he 10 _ hrec hcommit 2 (by decide))

end SplitBill
