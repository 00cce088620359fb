import SplitBill.Audit
import SplitBill.Interleave.Replay

/-!
# When the summary of a group converges

A recompute job reads the figures of a group one after another and stores them at the end, whatever
other jobs and calls do in between, and the store keeps what was written last. A job that read old
figures and is late therefore overwrites the figures of a newer job, and nothing puts them right. In
runs in which no outdated job stores its figures after an up-to-date one has, the summary is right
for good once the group is left alone and a job has run since.

The proof compares what a job saw at each of its queries with what the group's figures are now
(`SawPresent`): what a job stores is what it saw (`Honest`), and while the group is left alone every
job that started since saw the present figures.
-/

namespace SplitBill

open Interleave

/-! ## The figures of a group -/

/-- What the tables say about a group. -/
def Db.metrics (db : Db) (groupId : Id) : GroupSummaryMetrics where
  totalSpentMinorUnits := ((db.expensesOf groupId).map (·.amountMinorUnits)).sum
  expenseCount := (db.expensesOf groupId).length
  settlementCount := (db.settlementsOf groupId).length
  memberCount := (db.membersOf groupId).length

/-- The queries of a job. -/
def Aggregate.all : List Aggregate := [totalSpent, expenseCount, settlementCount, memberCount]

/-- These are all the aggregates. -/
theorem Aggregate.mem_all (query : Aggregate) : query ∈ all := by
  cases query <;> decide

/-- The figure that a query is about. -/
def GroupSummaryMetrics.figure (m : GroupSummaryMetrics) : Aggregate → ℤ
  | .totalSpent => m.totalSpentMinorUnits
  | .expenseCount => m.expenseCount
  | .settlementCount => m.settlementCount
  | .memberCount => m.memberCount

/-- The figures are all there is. -/
theorem GroupSummaryMetrics.ext_figure {m m' : GroupSummaryMetrics}
    (h : ∀ query, m.figure query = m'.figure query) : m = m' := by
  obtain ⟨total, expenses, settlements, members⟩ := m
  obtain ⟨total', expenses', settlements', members'⟩ := m'
  have htotal : total = total' := h .totalSpent
  have hexpenses : (expenses : ℤ) = expenses' := h .expenseCount
  have hsettlements : (settlements : ℤ) = settlements' := h .settlementCount
  have hmembers : (members : ℤ) = members' := h .memberCount
  rw [GroupSummaryMetrics.mk.injEq]
  omega

/-- A query sets its own figure. -/
theorem figure_fill_self (db : Db) (groupId : Id) (m : GroupSummaryMetrics) (query : Aggregate) :
    (query.fill db groupId m).figure query = (db.metrics groupId).figure query := by
  cases query <;> rfl

/-- A query leaves the other figures alone. -/
theorem figure_fill_of_ne (db : Db) (groupId : Id) (m : GroupSummaryMetrics)
    {query other : Aggregate} (h : query ≠ other) :
    (query.fill db groupId m).figure other = m.figure other := by
  cases query <;> cases other <;> first | rfl | exact absurd rfl h

/-- The stored summary of the group has the figures that the tables have. -/
def UpToDate (db : Db) (groupId : Id) : Prop :=
  (db.summary? groupId).map (·.metrics) = some (db.metrics groupId)

instance (db : Db) (groupId : Id) : Decidable (UpToDate db groupId) :=
  inferInstanceAs (Decidable (_ = _))

/-! ## Jobs and calls side by side -/

/-- A recompute job, with the order in which its queries are answered, or a call on a group. -/
inductive SummaryCall
  | recomputeGroupSummary (order : List Aggregate) (groupId : Id)
  | store (call : StoreCall)

namespace SummaryCall

/-- The program of a job or of a call. -/
def body (env : Env) (lib : Lib) : SummaryCall → Act Unit
  | recomputeGroupSummary order groupId => void (SummaryService.recomputeGroupSummary order groupId)
  | store call => call.body env lib

/-- Each query of a job is answered once. -/
def Answered : SummaryCall → Prop
  | recomputeGroupSummary order _ => order.Perm Aggregate.all
  | store _ => True

instance : DecidablePred Answered
  | recomputeGroupSummary order _ => inferInstanceAs (Decidable (order.Perm Aggregate.all))
  | store _ => isTrue trivial

end SummaryCall

/-- Jobs and calls side by side. Whatever else happens leaves the summaries alone. -/
abbrev summarySystem (lib : Lib) (env : Env) : System backend Err Unit World where
  machine := machine lib
  Call := SummaryCall
  body := SummaryCall.body env lib
  valid := SummaryCall.Answered
  env w w' := w'.db.groupSummaries = w.db.groupSummaries

instance (lib : Lib) (env : Env) : DecidablePred (summarySystem lib env).valid :=
  inferInstanceAs (DecidablePred SummaryCall.Answered)

/-- The group that an operation queries for a job. -/
def aggregated? : Op → Option Id
  | .db (.summary (.aggregate groupId _ _)) => some groupId
  | _ => none

/-- The group whose figures an entry stored. -/
def stored? : BackendEntry → Option Id
  | ⟨_, .db (.summary (.upsertSummary groupId _ _)), _, .ok _, _, _⟩ => some groupId
  | _ => none

/-- At each of its queries the job saw the figures that the group has now. -/
def SawPresent (groupId : Id) (pid : ℕ) (h : Hist backend Err World) : Prop :=
  ∀ e ∈ h.own pid, aggregated? e.op = some groupId →
    e.pre.db.metrics groupId = h.world.db.metrics groupId

instance (groupId : Id) (pid : ℕ) (h : Hist backend Err World) :
    Decidable (SawPresent groupId pid h) :=
  inferInstanceAs (Decidable (∀ e ∈ h.own pid, _))

/-- A job that saw other figures stores its own only as long as no job that saw the present ones has
stored those. -/
def InOrder (pid : ℕ) (o : Op) (h : Hist backend Err World) : Prop :=
  match o with
  | .db (.summary (.upsertSummary groupId _ _)) => SawPresent groupId pid h ∨
    ∀ e ∈ h.log, stored? e = some groupId → ¬SawPresent groupId e.pid h
  | _ => True

instance (pid : ℕ) (o : Op) (h : Hist backend Err World) : Decidable (InOrder pid o h) := by
  unfold InOrder
  split <;> infer_instance

/-- Jobs and calls, in runs in which no job overwrites newer figures. -/
abbrev orderedSystem (lib : Lib) (env : Env) : System backend Err Unit World :=
  { summarySystem lib env with allow := InOrder }

instance (lib : Lib) (env : Env) : DecidablePred (orderedSystem lib env).valid :=
  inferInstanceAs (DecidablePred SummaryCall.Answered)

/-- A step that writes nothing: the group is still there, and its figures are the same. -/
structure Quiet {sys : System backend Err Unit World} (groupId : Id) (cfg cfg' : sys.Config) :
    Prop where
  step : sys.Step cfg cfg'
  group : (cfg'.hist.world.db.group? groupId).isSome
  metrics : cfg'.hist.world.db.metrics groupId = cfg.hist.world.db.metrics groupId

/-- Any number of steps that write nothing. -/
abbrev QuietRun {sys : System backend Err Unit World} (groupId : Id) :
    sys.Config → sys.Config → Prop :=
  Relation.ReflTransGen (Quiet groupId)

/-! ## What a job stores -/

/-- The transactions of the calls. -/
def StoreWrite (o : DbOp) : Prop := Transaction o ∨ Removal o

/-- A job stores the figures that it saw, and no call stores any. -/
structure Honest (own : List BackendEntry) (o : Op) : Prop where
  stores : ∀ groupId m computedAt, o = .db (.summary (.upsertSummary groupId m computedAt)) →
    ∀ seen, (∀ e ∈ own, aggregated? e.op = some groupId → e.pre.db.metrics groupId = seen) →
      m = seen
  writes : (∃ groupId m computedAt, o = .db (.summary (.upsertSummary groupId m computedAt))) ∨
    o.OnDb (ReadsOr StoreWrite)

section Jobs

variable {lib : Lib} {pid : ℕ}

/-- An operation that stores no figures. -/
theorem honest_of_ne {own : List BackendEntry} {o : Op} (ho : o.OnDb (ReadsOr StoreWrite))
    (hne : ∀ groupId m computedAt, o ≠ .db (.summary (.upsertSummary groupId m computedAt))) :
    Honest own o where
  stores := fun groupId m computedAt h => absurd h (hne groupId m computedAt)
  writes := .inr ho

/-- What the queries that were answered so far have filled in are the figures that the job saw. -/
def Filled (groupId : Id) (done : List Aggregate) (m : GroupSummaryMetrics)
    (own : List BackendEntry) : Prop :=
  ∀ seen : GroupSummaryMetrics,
    (∀ e ∈ own, aggregated? e.op = some groupId → e.pre.db.metrics groupId = seen) →
      ∀ query ∈ done, m.figure query = seen.figure query

/-- The queries of a job fill in what they see. -/
theorem aggregateGroup_honest {groupId : Id} {order done : List Aggregate}
    {m : GroupSummaryMetrics} {l : List BackendEntry}
    {Q : Except Err GroupSummaryMetrics → List BackendEntry → Prop} (h : Filled groupId done m l)
    (hok : ∀ m l, Filled groupId (order.reverse ++ done) m l → Q (.ok m) l)
    (herr : ∀ e l, Q (.error e) l) :
    wp ((machine lib).ownLog pid Honest) Q
      (order.foldlM (SummaryRepository.aggregate groupId) m) l := by
  induction order generalizing done m l with
  | nil => exact hok m l h
  | cons query order ih =>
    rw [List.foldlM_cons]
    apply wp_ownLog_bind herr
    · apply honest_of_ne
      · exact .inl ⟨_, rfl⟩
      · intro g m' computedAt heq
        cases heq
    intro w did v w' hans
    obtain ⟨-, ⟨c, hv⟩ | hv⟩ := answer_read (o := .summary (.aggregate groupId m query)) rfl hans
    swap
    · cases hv
    have hfill : v = query.fill w.db groupId m := Except.ok.inj hv
    refine @ih (query :: done) v _ ?_ ?_
    -- The query fills its own figure, and the figures that are filled already stay.
    · intro seen hseen other hother
      have hw : w.db.metrics groupId = seen := hseen _ List.mem_cons_self rfl
      rw [hfill]
      by_cases heq : query = other
      · rw [← heq, figure_fill_self, hw]
      · rw [figure_fill_of_ne w.db groupId m heq]
        apply h seen fun e he => hseen e (List.mem_cons_of_mem _ he)
        exact (List.mem_cons.mp hother).resolve_left fun hsame => heq hsame.symm
    · intro m' l' hfilled
      apply hok
      rw [List.reverse_cons, List.append_assoc]
      exact hfilled

/-- A job that has run to its end has stored figures, and those that it saw. -/
theorem recomputeGroupSummary_honest {groupId : Id} {order : List Aggregate}
    (horder : order.Perm Aggregate.all) :
    wp ((machine lib).ownLog pid Honest)
      (fun r l => ∀ s, r = .ok s → ∃ e ∈ l, stored? e = some groupId)
      (SummaryService.recomputeGroupSummary order groupId) [] := by
  have herr : ∀ (e : Err) (l : List BackendEntry) (s : GroupSummary), .error e = Except.ok s →
      ∃ e ∈ l, stored? e = some groupId := by
    intro e l s he
    cases he
  unfold SummaryService.recomputeGroupSummary
  apply wp_ownLog_bind herr
  · apply honest_of_ne
    · exact .inl ⟨_, rfl⟩
    · intro g m computedAt heq
      cases heq
  intro w did group w' _
  refine wp_expect_bind.mpr ⟨fun _ _ => ?_, fun _ => herr _ _⟩
  -- All figures are filled when the summary is written, whatever the order.
  apply wp_bind.mpr
  refine @aggregateGroup_honest lib pid groupId order [] {} _ _ ?_ ?_ herr
  · intro seen _ query hquery
    cases hquery
  intro m l hfilled
  rw [List.append_nil] at hfilled
  apply wp_ownLog_bind herr
  · apply honest_of_ne
    · trivial
    · intro g m' computedAt heq
      cases heq
  intro w₁ did₁ computedAt w₁' _
  apply wp_ownLog_bind herr
  · constructor
    · intro g m' at' heq seen hseen
      obtain ⟨rfl, rfl, -⟩ := SummaryOp.upsertSummary.inj (DbOp.summary.inj (Op.db.inj heq))
      apply GroupSummaryMetrics.ext_figure
      intro query
      apply hfilled seen fun e he => hseen e (List.mem_cons_of_mem _ he)
      exact List.mem_reverse.mpr (horder.mem_iff.mpr query.mem_all)
    · exact .inl ⟨_, _, _, rfl⟩
  intro w₂ did₂ s w₂' hans s' _
  refine ⟨_, List.mem_cons_self, ?_⟩
  have hdid : did₂ = .ok s := hans.did_eq
  rw [hdid]
  rfl

/-- What a job or a call does by its own entries. -/
theorem summaryCall_honest {env : Env} {c : SummaryCall} (hc : c.Answered) :
    wp ((machine lib).ownLog pid Honest)
      (fun r l => ∀ order groupId, c = .recomputeGroupSummary order groupId → r = .ok () →
        ∃ e ∈ l, stored? e = some groupId)
      (c.body env lib) [] := by
  cases c with
  | recomputeGroupSummary order groupId =>
    -- Only the recomputation stores metrics, and it stores what it has read.
    refine wp_bind.mpr (wp_mono ?_ (recomputeGroupSummary_honest hc))
    intro r l hr
    cases r with
    | error e =>
      intro _ _ _ he
      cases he
    | ok s =>
      intro order' g heq _
      obtain ⟨-, rfl⟩ := SummaryCall.recomputeGroupSummary.inj heq
      exact hr s rfl
  | store call =>
    -- No other call stores metrics.
    refine wp_ownLog_of_issues (I := fun _ => True) (storeCall_issues call) ?_
      (fun _ _ _ _ _ _ _ _ _ => trivial) ?_ trivial
    · intro l o _ ho
      apply honest_of_ne ho
      rintro g m computedAt rfl
      rcases ho with ⟨f, hf⟩ | ho | ho
      · cases hf
      · cases ho
      · cases ho
    · intro r l _ order g heq
      cases heq

end Jobs

/-! ## What each step does to the summary -/

section Steps

variable {lib : Lib} {d d' : Db} {groupId : Id}

/-- The calls leave the summary of a group alone unless they delete the group. -/
theorem summary_of_transaction {o : DbOp} (ho : StoreWrite o)
    {t : Choice → Time → Tx Db Err Metric o.Res} (ht : o.access = .write t) {c : Choice}
    {now : Time} {r : o.Res} (heval : (t c now).eval d = .ok (r, d'))
    (hgroup : (d'.group? groupId).isSome) : d'.summary? groupId = d.summary? groupId := by
  suffices hcases : d'.groupSummaries = d.groupSummaries ∨ ∃ id,
      d'.groups = d.groups.filter (·.id ≠ id) ∧
        d'.groupSummaries = d.groupSummaries.filter (·.groupId ≠ id) by
    unfold Db.summary?
    rcases hcases with hsame | ⟨id, hgroups, hsummaries⟩
    · rw [hsame]
    · -- The group that is still there is not the deleted one.
      obtain ⟨g, hg⟩ := Option.isSome_iff_exists.mp hgroup
      have hmem : g ∈ d'.groups := List.mem_of_find?_eq_some hg
      have hid : g.id = groupId := by simpa using List.find?_some hg
      rw [hgroups, List.mem_filter, decide_eq_true_iff, hid] at hmem
      rw [hsummaries, List.find?_filter]
      congr 1
      funext s
      by_cases hs : s.groupId = groupId
      · simp [hs, hmem.2]
      · simp [hs]
  rcases ho with ho | ho <;> cases ho <;> obtain rfl := Access.write.inj ht
  case inl.createGroup =>
    obtain ⟨event, -, -, -, hdb⟩ := createGroupWithOwner_eq_ok heval
    exact .inl (by rw [hdb])
  case inl.updateGroup =>
    obtain ⟨old, event, -, -, -, hdb⟩ := updateGroupWithEvent_eq_ok heval
    exact .inl (by rw [hdb])
  case inl.deleteGroup id =>
    have hdb := Prisma.groupDelete_eq_ok heval
    exact .inr ⟨id, by rw [hdb], by rw [hdb]⟩
  case inl.addGroupMember =>
    obtain ⟨event, -, -, -, -, hdb⟩ := addGroupMemberWithEvent_eq_ok heval
    exact .inl (by rw [hdb])
  case inl.createExpense =>
    obtain ⟨e, db₁, event, hcreate, -, hdb, -⟩ := createExpenseWithSplits_eq_ok heval
    obtain ⟨-, -, hdb₁⟩ := Prisma.expenseCreate_eq_ok hcreate
    exact .inl (by rw [hdb, hdb₁])
  case inl.updateExpense =>
    obtain ⟨e, db₁, event, hupdate, -, hdb, -⟩ := updateExpenseWithSplits_eq_ok heval
    obtain ⟨old, -, -, -, -, hdb₁⟩ := Prisma.expenseUpdate_eq_ok hupdate
    exact .inl (by rw [hdb, hdb₁])
  case inl.deleteExpense =>
    obtain ⟨e, event, -, -, hdb⟩ := deleteExpenseWithEvent_eq_ok heval
    exact .inl (by rw [hdb])
  case inl.settle =>
    obtain ⟨-, -, event, records, -, -, hdb⟩ := claimAndSettle_eq_ok heval
    exact .inl (by rw [hdb])
  case inr.removeGroupMember =>
    obtain ⟨event, -, -, hdb⟩ := removeGroupMemberWithEvent_eq_ok heval
    exact .inl (by rw [hdb])

/-- One operation: it stores figures of the group, or else the group's summary stays as it was. -/
theorem summary_of_entry {e : BackendEntry} {own : List BackendEntry} (ho : Honest own e.op)
    (hans : (machine lib).Answer e.op e.pre e.did e.seen e.post)
    (hgroup : (e.post.db.group? groupId).isSome) :
    (stored? e = some groupId ∧ ∃ m computedAt s,
        e.op = .db (.summary (.upsertSummary groupId m computedAt)) ∧
        Upserts groupId m s e.pre.db e.post.db) ∨
      stored? e ≠ some groupId ∧ e.post.db.summary? groupId = e.pre.db.summary? groupId := by
  obtain ⟨pid, o, pre, did, seen, post⟩ := e
  obtain ⟨-, ⟨g, m, computedAt, ho⟩ | ho⟩ := ho
  · obtain rfl : o = .db (.summary (.upsertSummary g m computedAt)) := ho
    obtain ⟨-, -, ⟨e, hdid, hdb⟩ | ⟨c, s, hdid, heval⟩⟩ :=
      answer_write (o := .summary (.upsertSummary g m computedAt)) rfl hans
    · -- Nothing was stored.
      obtain rfl : did = .error e := hdid
      have hdb : post.db = pre.db := hdb
      refine .inr ⟨fun hstored => ?_, by rw [hdb]⟩
      cases hstored
    · obtain rfl : did = .ok s := hdid
      have hups : Upserts g m s pre.db post.db := Prisma.groupSummaryUpsert_eq_ok heval
      by_cases hg : g = groupId
      · subst hg
        exact .inl ⟨rfl, m, computedAt, s, rfl, hups⟩
      · refine .inr ⟨fun hstored => hg (Option.some.inj hstored), ?_⟩
        exact hups.others groupId (Ne.symm hg)
  · have hstored : stored? ⟨pid, o, pre, did, seen, post⟩ ≠ some groupId := by
      intro hstored
      unfold stored? at hstored
      split at hstored
      · next heq =>
        obtain ⟨-, rfl, -⟩ := Entry.mk.inj heq
        rcases ho with ⟨f, hf⟩ | ho | ho
        · cases hf
        · cases ho
        · cases ho
      · cases hstored
    refine .inr ⟨hstored, ?_⟩
    obtain hdb | ⟨d, t, c, r, rfl, hd, hacc, heval⟩ := answer_transaction ho hans
    · have hdb : post.db = pre.db := hdb
      rw [hdb]
    · exact summary_of_transaction hd hacc heval hgroup

end Steps

/-! ## Runs -/

section Runs

variable {lib : Lib} {env : Env} {cfg cfg₀ cfg₁ cfg₂ : (orderedSystem lib env).Config}
  {groupId : Id}

/-- The operations of a reachable state, and the jobs that have run to their end in it. -/
theorem honest_of_reachable (h : (orderedSystem lib env).Reachable (fun _ => True) cfg) :
    (∀ e l, e :: l <:+ cfg.hist.log → Honest (l.filter (·.pid = e.pid)) e.op) ∧
      ∀ pid c, cfg.procs[pid]? = some (c, .ret ()) → ∀ order groupId,
        c = .recomputeGroupSummary order groupId →
          ∃ e ∈ cfg.hist.own pid, stored? e = some groupId := by
  obtain ⟨hfollows, hends⟩ := System.follows_of_ownLog (A := fun _ => Honest)
    (fun _ _ hc => summaryCall_honest hc) h
  exact ⟨hfollows, fun pid c hp order g hc => hends pid c () hp order g hc rfl⟩

/-- What holds from a moment on at which `n` calls had started, as long as nothing is written: every
later job sees the present figures, and once one of them has stored figures the summary is right. -/
structure LeftAlone (groupId : Id) (n : ℕ) (h : Hist backend Err World) : Prop where
  saw : ∀ pid, n ≤ pid → SawPresent groupId pid h
  upToDate : (∃ e ∈ h.log, n ≤ e.pid ∧ stored? e = some groupId) →
    UpToDate h.world.db groupId

/-- A step that writes nothing. -/
theorem LeftAlone.step {n : ℕ} (h : (orderedSystem lib env).Reachable (fun _ => True) cfg₀)
    (hleft : LeftAlone groupId n cfg₀.hist) (hquiet : Quiet groupId cfg₀ cfg₁) :
    LeftAlone groupId n cfg₁.hist := by
  obtain ⟨hstep, hgroup, hmetrics⟩ := hquiet
  have hfollows := (honest_of_reachable (h.step hstep)).1
  cases hstep with
  | spawn c hc => exact hleft
  | env w henv =>
    have henv : w.db.groupSummaries = cfg₀.hist.world.db.groupSummaries := henv
    constructor
    · intro pid hpid e he hagg
      rw [hmetrics]
      exact hleft.saw pid hpid e he hagg
    · intro hstored
      have hold : UpToDate cfg₀.hist.world.db groupId := hleft.upToDate hstored
      unfold UpToDate at *
      rw [hmetrics, ← hold]
      unfold Db.summary?
      rw [Hist.withWorld_world, henv]
  | op pid c o k hp hallow did seen w hans =>
    have hhonest : Honest (cfg₀.hist.own pid) o := hfollows _ _ List.suffix_rfl
    have hsaw : ∀ q, n ≤ q → SawPresent groupId q (cfg₀.hist.record pid o did seen w) := by
      intro q hq e he hagg
      rw [hmetrics]
      obtain ⟨hmem, hpid⟩ := Hist.mem_own.mp he
      rcases List.mem_cons.mp hmem with rfl | hmem
      · rfl
      · exact hleft.saw q hq e (Hist.mem_own.mpr ⟨hmem, hpid⟩) hagg
    refine ⟨hsaw, fun hstored => ?_⟩
    let e : BackendEntry := ⟨pid, o, cfg₀.hist.world, did, seen, w⟩
    rcases @summary_of_entry lib groupId e _ hhonest hans hgroup with
      ⟨-, m, computedAt, s, ho, hups⟩ | ⟨hnot, hsame⟩
    · -- The figures of the group are stored, and they have to be the present ones.
      obtain rfl : o = .db (.summary (.upsertSummary groupId m computedAt)) := ho
      have hpresent : SawPresent groupId pid cfg₀.hist := by
        rcases hallow with hpresent | hfirst
        · exact hpresent
        · obtain ⟨e, he, hn, hg⟩ := hstored
          rcases List.mem_cons.mp he with rfl | he
          · exact hleft.saw pid hn
          · exact absurd (hleft.saw e.pid hn) (hfirst e he hg)
      have hm : m = cfg₀.hist.world.db.metrics groupId :=
        hhonest.stores groupId m computedAt rfl _ hpresent
      unfold UpToDate
      rw [hmetrics, ← hm]
      exact (congrArg _ hups.row).trans (congrArg some hups.metrics)
    · obtain ⟨e, he, hn, hg⟩ := hstored
      rcases List.mem_cons.mp he with rfl | he
      · exact absurd hg hnot
      · have hold : UpToDate cfg₀.hist.world.db groupId := hleft.upToDate ⟨e, he, hn, hg⟩
        unfold UpToDate at *
        rw [hmetrics, ← hold]
        exact congrArg _ hsame

/-- Any number of steps that write nothing. -/
theorem leftAlone_of_quietRun (h : (orderedSystem lib env).Reachable (fun _ => True) cfg₀)
    (hquiet : QuietRun groupId cfg₀ cfg₁) :
    (orderedSystem lib env).Reachable (fun _ => True) cfg₁ ∧
      LeftAlone groupId cfg₀.procs.length cfg₁.hist := by
  induction hquiet with
  | refl =>
    -- The calls that are yet to start have no entries.
    have hlog : ∀ e ∈ cfg₀.hist.log, e.pid < cfg₀.procs.length := (System.replays h).2.1
    refine ⟨h, fun pid hpid e he => ?_, ?_⟩
    · rw [Hist.own_eq_nil hlog hpid] at he
      cases he
    · rintro ⟨e, he, hpid, -⟩
      exact absurd (hlog e he) (Nat.not_lt.mpr hpid)
  | tail _ hquiet ih => exact ⟨ih.1.step hquiet.step, ih.2.step ih.1 hquiet⟩

/-- Once nothing is written any more and a job that started since has run to its end, the summary of
the group stays right. -/
theorem summary_converges {pid : ℕ} {order : List Aggregate}
    (h : (orderedSystem lib env).Reachable (fun _ => True) cfg₀)
    (hquiet : QuietRun groupId cfg₀ cfg₁) (hpid : cfg₀.procs.length ≤ pid)
    (hdone : cfg₁.procs[pid]? = some (.recomputeGroupSummary order groupId, .ret ()))
    (hrest : QuietRun groupId cfg₁ cfg₂) : UpToDate cfg₂.hist.world.db groupId := by
  obtain ⟨hreach, -⟩ := leftAlone_of_quietRun h hquiet
  obtain ⟨e, he, hstored⟩ := (honest_of_reachable hreach).2 pid _ hdone order groupId rfl
  obtain ⟨hmem, hepid⟩ := Hist.mem_own.mp he
  have hlog : cfg₁.hist.log <:+ cfg₂.hist.log :=
    System.log_suffix (hrest.lift id fun _ _ hquiet => hquiet.step)
  exact (leftAlone_of_quietRun h (hquiet.trans hrest)).2.upToDate
    ⟨e, hlog.subset hmem, hepid ▸ hpid, hstored⟩

end Runs

/-! ## A late job -/

section Schedules

variable {sys : System backend Err Unit World} [DecidablePred sys.valid]

/-- No instruction of the schedule writes anything: all along the group has these figures. -/
def Quietly (groupId : Id) (m : GroupSummaryMetrics) :
    List (System.Action sys) → sys.Config → Prop
  | [], cfg => cfg.hist.world.db.metrics groupId = m
  | a :: as, cfg => cfg.hist.world.db.metrics groupId = m ∧ ∀ cfg' ∈ sys.act cfg a,
    (cfg'.hist.world.db.group? groupId).isSome = true ∧ Quietly groupId m as cfg'

instance (groupId : Id) (m : GroupSummaryMetrics) (as : List (System.Action sys)) :
    DecidablePred (Quietly groupId m as) := by
  induction as with
  | nil => exact fun cfg => inferInstanceAs (Decidable (_ = m))
  | cons a as ih => exact fun cfg => inferInstanceAs (Decidable (_ ∧ ∀ cfg' ∈ sys.act cfg a, _ ∧ _))

/-- A schedule that writes nothing is a run that writes nothing. -/
theorem quietRun_of_play {groupId : Id} {m : GroupSummaryMetrics} {as : List (System.Action sys)}
    {cfg cfg' : sys.Config} (h : sys.play as cfg = some cfg') (hquiet : Quietly groupId m as cfg)
    (hall : sys.Allowed cfg'.hist.log) :
    QuietRun groupId cfg cfg' ∧ cfg'.hist.world.db.metrics groupId = m := by
  induction as generalizing cfg with
  | nil =>
    obtain rfl := Option.some.inj h
    exact ⟨.refl, hquiet⟩
  | cons a as ih =>
    obtain ⟨cfg₁, hact, hplay⟩ := Option.bind_eq_some_iff.mp h
    obtain ⟨hmetrics, hnext⟩ := hquiet
    obtain ⟨hgroup, hquiet⟩ := hnext cfg₁ hact
    have hmetrics₁ : cfg₁.hist.world.db.metrics groupId = m := by
      cases as with
      | nil => exact hquiet
      | cons _ _ => exact hquiet.1
    have hstep : sys.Step cfg cfg₁ :=
      (System.step_of_act hact).2 (hall.of_suffix (System.suffix_of_play hplay))
    obtain ⟨hrun, hlast⟩ := ih hplay hquiet
    exact ⟨hrun.head ⟨hstep, hgroup, hmetrics₁.trans hmetrics.symm⟩, hlast⟩

end Schedules

/-- The call is a job of the group that has run to its end. -/
def jobDone (groupId : Id) : SummaryCall × Act Unit → Bool
  | (.recomputeGroupSummary _ g, .ret ()) => g = groupId
  | _ => false

/-- A job that is done is a recomputation that has returned. -/
theorem exists_of_jobDone {groupId : Id} {p : Option (SummaryCall × Act Unit)}
    (h : p.any (jobDone groupId) = true) :
    ∃ order, p = some (.recomputeGroupSummary order groupId, .ret ()) := by
  cases p with
  | none => cases h
  | some cp =>
    have hdone : jobDone groupId cp = true := h
    unfold jobDone at hdone
    split at hdone
    · next order g =>
      obtain rfl := of_decide_eq_true hdone
      exact ⟨order, rfl⟩
    · cases hdone

/-- A job of the group of `threeMembers`. -/
def recomputes : SummaryCall := .recomputeGroupSummary Aggregate.all 10

/-- An expense of that group. -/
def spends : SummaryCall :=
  .store (.group (.createExpense 1 ⟨10, "Dinner", 1000, 1, .equal, [⟨1, none⟩, ⟨2, none⟩], none⟩))

/-- The figures of the group afterwards. -/
def spentMetrics : GroupSummaryMetrics := ⟨1000, 1, 0, 3⟩

/-- A job reads the figures, and an expense is added before it has stored them. A second job reads
and stores the new figures. Then the first one stores the old ones, and they stay. -/
theorem not_summary_converges : ∃ (cfg₀ cfg₁ cfg₂ : (summarySystem .plain {}).Config) (pid : ℕ)
    (order : List Aggregate),
    (summarySystem .plain {}).Reachable (fun _ => True) cfg₀ ∧ QuietRun 10 cfg₀ cfg₁ ∧
      cfg₀.procs.length ≤ pid ∧
      cfg₁.procs[pid]? = some (.recomputeGroupSummary order 10, .ret ()) ∧
      QuietRun 10 cfg₁ cfg₂ ∧ ¬UpToDate cfg₂.hist.world.db 10 := by
  -- The first job reads, an expense commits, the second job stores, and then the first does.
  let sys := summarySystem .plain {}
  let reads : List (System.Action sys) := .spawn recomputes :: System.turns sys 0 {} 5 ++
    .spawn spends :: System.turns sys 1 {} 5
  let renews : List (System.Action sys) := .spawn recomputes :: System.turns sys 2 {} 7
  let isLate : List (System.Action sys) := System.turns sys 0 {} 2
  obtain ⟨cfg₀, h₀, hlen, hquiet₀, hrest⟩ : ∃ cfg₀, sys.play reads (sys.start threeMembers) =
      some cfg₀ ∧ cfg₀.procs.length ≤ 2 ∧ Quietly 10 spentMetrics renews cfg₀ ∧
      (sys.play renews cfg₀).any (fun cfg₁ => decide ((cfg₁.procs[2]?).any (jobDone 10) = true ∧
        Quietly 10 spentMetrics isLate cfg₁ ∧ (sys.play isLate cfg₁).any (fun cfg₂ =>
          decide ¬UpToDate cfg₂.hist.world.db 10) = true)) = true :=
    System.exists_of_play (by decide +kernel)
  obtain ⟨cfg₁, h₁, hdone, hquiet₁, hrest⟩ := System.exists_of_play hrest
  obtain ⟨cfg₂, h₂, hwrong⟩ := System.exists_of_play hrest
  obtain ⟨order, hdone⟩ := exists_of_jobDone hdone
  have hreach : sys.Reachable (fun _ => True) cfg₀ :=
    System.reachable_of_play (fun _ _ _ => trivial) (.start trivial) h₀
  have hall : ∀ log, sys.Allowed log := System.allowed_of_forall fun _ _ _ => trivial
  exact ⟨cfg₀, cfg₁, cfg₂, 2, order, hreach, (quietRun_of_play h₁ hquiet₀ (hall _)).1, hlen, hdone,
    (quietRun_of_play h₂ hquiet₁ (hall _)).1, hwrong⟩

/-- The first job stores the old figures before the second one stores the new ones, and a third job
runs as well. -/
theorem summary_converges_in_order : ∃ (cfg₀ cfg₁ cfg₂ : (orderedSystem .plain {}).Config),
    (orderedSystem .plain {}).Reachable (fun _ => True) cfg₀ ∧ QuietRun 10 cfg₀ cfg₁ ∧
      QuietRun 10 cfg₁ cfg₂ ∧ cfg₂.hist.world.db.metrics 10 = spentMetrics ∧
      UpToDate cfg₂.hist.world.db 10 := by
  -- The job that read first stores first, and the one after it stores the newer rows.
  let sys := orderedSystem .plain {}
  let reads : List (System.Action sys) := .spawn recomputes :: System.turns sys 0 {} 5 ++
    .spawn spends :: System.turns sys 1 {} 5
  let renews : List (System.Action sys) := .spawn recomputes :: System.turns sys 2 {} 5 ++
    System.turns sys 0 {} 2 ++ System.turns sys 2 {} 2
  let repeats : List (System.Action sys) := .spawn recomputes :: System.turns sys 3 {} 7
  obtain ⟨cfg₀, h₀, hall₀, hlen, hquiet₀, hrest⟩ : ∃ cfg₀, sys.play reads (sys.start threeMembers) =
      some cfg₀ ∧ sys.Allowed cfg₀.hist.log ∧ cfg₀.procs.length ≤ 2 ∧
      Quietly 10 spentMetrics renews cfg₀ ∧
      (sys.play renews cfg₀).any (fun cfg₁ => decide (sys.Allowed cfg₁.hist.log ∧
        (cfg₁.procs[2]?).any (jobDone 10) = true ∧ Quietly 10 spentMetrics repeats cfg₁ ∧
        (sys.play repeats cfg₁).any (fun cfg₂ => decide (sys.Allowed cfg₂.hist.log)) =
          true)) = true :=
    System.exists_of_play (by decide +kernel)
  obtain ⟨cfg₁, h₁, hall₁, hdone, hquiet₁, hrest⟩ := System.exists_of_play hrest
  obtain ⟨cfg₂, h₂, hall₂⟩ := System.exists_of_play hrest
  obtain ⟨order, hdone⟩ := exists_of_jobDone hdone
  have hreach : sys.Reachable (fun _ => True) cfg₀ :=
    System.reachable_of_allowed (.start trivial) h₀ hall₀
  obtain ⟨hrun₁, -⟩ := quietRun_of_play h₁ hquiet₀ hall₁
  obtain ⟨hrun₂, hmetrics⟩ := quietRun_of_play h₂ hquiet₁ hall₂
  exact ⟨cfg₀, cfg₁, cfg₂, hreach, hrun₁, hrun₂, hmetrics,
    summary_converges hreach hrun₁ hlen hdone hrun₂⟩

end SplitBill
