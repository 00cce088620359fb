import SplitBill.Calls
import SplitBill.Interleave.Replay

/-!
# Concurrent updates of one expense

`updateExpense` reads the expense, merges the fields of the request over what it read, and writes
every column and all splits back. Two calls whose reads and transactions overlap therefore lose what
the first of them wrote. In runs in which each transaction commits what was merged over the latest
state, two successful calls have the effect of one after the other.
-/

namespace SplitBill

open Interleave

/-- A call of `updateExpense` on a given expense. -/
structure UpdateCall where
  requesterId : Id
  input : UpdateExpenseInput
  deriving DecidableEq

/-- The program of the call. -/
def UpdateCall.body (expenseId : Id) (c : UpdateCall) : Act ExpenseDetailDto :=
  ExpenseService.updateExpense c.requesterId expenseId c.input

/-- Updates of one expense, side by side. -/
abbrev updateSystem (lib : Lib) (expenseId : Id) :
    System backend Err ExpenseDetailDto World where
  machine := machine lib
  Call := UpdateCall
  body := UpdateCall.body expenseId
  valid c := c.input.Accepted
  env := World.Later

/-- The columns of an expense that an update may change, and its splits. -/
def Expense.data (e : Expense) : Prisma.UpdateExpenseData where
  paidById := e.paidById
  description := e.description
  amountMinorUnits := e.amountMinorUnits
  splitType := e.splitType
  expenseDate := e.expenseDate
  splits := e.splits.map fun s => ⟨s.userId, s.amountMinorUnits⟩

/-- Run one after the other, the calls `c` and `d` are both successful and make of the expense what
it is in the world `w'`. -/
def RunsSerially (lib : Lib) (expenseId : Id) (w w' : World) (c d : UpdateCall) : Prop :=
  ∃ rc rd w₁ w₂, Exec (machine lib) World.Later (c.body expenseId) w (.ok rc) w₁ ∧
    Exec (machine lib) World.Later (d.body expenseId) w₁ (.ok rd) w₂ ∧
    (w₂.db.expense? expenseId).map Expense.data = (w'.db.expense? expenseId).map Expense.data

/-! ## What the log says -/

/-- The expense that an entry read in order to update it. -/
def expenseRead? : BackendEntry → Option Id
  | ⟨_, .db (.expense (.findExpenseById id)), _, _, _, _⟩ => some id
  | _ => none

/-- The expense that an entry updated. -/
def expenseUpdated? : BackendEntry → Option Id
  | ⟨_, .db (.expense (.updateExpenseWithSplits id _ _)), _, .ok _, _, _⟩ => some id
  | _ => none

/-- The entries since a call read the expense. -/
def sinceRead (pid : ℕ) (id : Id) (log : List BackendEntry) : List BackendEntry :=
  sinceLast pid (fun e => expenseRead? e = some id) log

/-- An update commits only when no other one of the expense has committed since the call read it. -/
def ReadsLatest (pid : ℕ) (o : Op) (h : Hist backend Err World) : Prop :=
  match o with
  | .db (.expense (.updateExpenseWithSplits id _ _)) =>
    ∀ e ∈ sinceRead pid id h.log, expenseUpdated? e ≠ some id
  | _ => True

instance (pid : ℕ) (o : Op) (h : Hist backend Err World) : Decidable (ReadsLatest pid o h) := by
  unfold ReadsLatest
  split <;> infer_instance

/-- Updates of one expense, in runs in which each is merged over the latest state. -/
abbrev latestSystem (lib : Lib) (expenseId : Id) : System backend Err ExpenseDetailDto World :=
  { updateSystem lib expenseId with allow := ReadsLatest }

/-! ## The entries of a successful call -/

/-- The entries of a successful call, the last one first: it counted the update that it committed,
after it had read the members and the expense. -/
structure UpdateEntries (expenseId : Id) (X U M R : BackendEntry) : Prop where
  counts : ∃ m, X.op = .metric m
  updates : expenseUpdated? U = some expenseId
  write : ∃ data a, U.op = .db (.expense (.updateExpenseWithSplits expenseId data a))
  members : ∃ g, M.op = .db (.expense (.findGroupMemberIds g))
  reads : R.op = .db (.expense (.findExpenseById expenseId))

variable {lib : Lib} {expenseId : Id}

/-- A successful call has these four entries. -/
theorem entries_of_replay {c : UpdateCall} {l : List BackendEntry}
    (hans : ∀ e ∈ l, (machine lib).Answer e.op e.pre e.did e.seen e.post) {r : ExpenseDetailDto}
    (h : Replay (c.body expenseId) l (.ret r)) :
    ∃ R M U X, l = [R, M, U, X] ∧ UpdateEntries expenseId X U M R := by
  obtain ⟨p₁, w₁, did₁, expense, w₁', l₁, hl, h₁⟩ := h.perform_bind
  obtain ⟨e, -, h₁⟩ := h₁.expect_bind
  obtain ⟨p₂, w₂, did₂, memberIds, w₂', l₂, rfl, h₂⟩ := h₁.perform_bind
  obtain ⟨-, h₂⟩ := h₂.ensure_bind
  obtain ⟨-, h₂⟩ := h₂.ensure_bind
  obtain ⟨splits, -, h₂⟩ := h₂.ofExcept_bind
  obtain ⟨p₃, w₃, did₃, updated, w₃', l₃, rfl, h₃⟩ := h₂.perform_bind
  obtain ⟨p₄, w₄, did₄, u, w₄', l₄, rfl, h₄⟩ := h₃.perform_bind
  obtain ⟨rfl, -⟩ := h₄.ret
  subst hl
  have hdid : did₃ = .ok updated :=
    answer_seen_ok (hans _ (List.mem_cons_of_mem _ (List.mem_cons_of_mem _ List.mem_cons_self)))
  subst hdid
  exact ⟨_, _, _, _, rfl, ⟨_, rfl⟩, rfl, ⟨_, _, rfl⟩, ⟨_, rfl⟩, rfl⟩

namespace UpdateEntries

variable {X U M R : BackendEntry}

/-- Only the update is an update. -/
theorem updated (h : UpdateEntries expenseId X U M R) : expenseUpdated? X = none ∧
    expenseUpdated? M = none ∧ expenseUpdated? R = none := by
  obtain ⟨⟨m, hX⟩, -, -, ⟨g, hM⟩, hR⟩ := h
  obtain ⟨_, _, _, _, _, _⟩ := X
  obtain ⟨_, _, _, _, _, _⟩ := M
  obtain ⟨_, _, _, _, _, _⟩ := R
  subst hX hM hR
  exact ⟨rfl, rfl, rfl⟩

/-- Only the first entry reads the expense. -/
theorem read_iff (h : UpdateEntries expenseId X U M R) : expenseRead? M = none ∧
    expenseRead? R = some expenseId := by
  obtain ⟨-, -, -, ⟨g, hM⟩, hR⟩ := h
  obtain ⟨_, _, _, _, _, _⟩ := M
  obtain ⟨_, _, _, _, _, _⟩ := R
  subst hM hR
  exact ⟨rfl, rfl⟩

/-- Only the update changes the tables. -/
theorem db_eq (h : UpdateEntries expenseId X U M R) {e : BackendEntry}
    (he : e = X ∨ e = M ∨ e = R)
    (hans : (machine lib).Answer e.op e.pre e.did e.seen e.post) : e.post.db = e.pre.db := by
  obtain ⟨⟨m, hX⟩, -, -, ⟨g, hM⟩, hR⟩ := h
  obtain ⟨pid, o, pre, did, seen, post⟩ := e
  rcases he with rfl | rfl | rfl
  · subst hX
    exact answer_db_eq (by rintro d ⟨⟩) hans
  · subst hM
    rw [(answer_read (o := .expense (.findGroupMemberIds g)) rfl hans).1]
  · subst hR
    rw [(answer_read (o := .expense (.findExpenseById expenseId)) rfl hans).1]

/-- Where the update stands in the log, the other entries of the call stand around it. -/
theorem around (h : UpdateEntries expenseId X U M R) {pid : ℕ} {later earlier : List BackendEntry}
    {u : BackendEntry} (hpid : u.pid = pid) (hu : expenseUpdated? u = some expenseId)
    (hown : (later ++ u :: earlier).filter (·.pid = pid) = [X, U, M, R]) :
    u = U ∧ later.filter (·.pid = pid) = [X] ∧ earlier.filter (·.pid = pid) = [M, R] := by
  obtain ⟨hX, hM, hR⟩ := h.updated
  have hne : u ≠ X ∧ u ≠ M ∧ u ≠ R := by
    refine ⟨?_, ?_, ?_⟩ <;> rintro rfl
    · rw [hu] at hX
      cases hX
    · rw [hu] at hM
      cases hM
    · rw [hu] at hR
      cases hR
  rw [List.filter_append, List.filter_cons_of_pos (by simpa using hpid)] at hown
  -- Of the four entries of the call only the second one writes.
  rcases hlater : later.filter (·.pid = pid) with _ | ⟨a, _ | ⟨b, _ | ⟨c, l⟩⟩⟩
  · rw [hlater] at hown
    exact absurd (List.cons.inj hown).1 hne.1
  · rw [hlater] at hown
    obtain ⟨hX, h₁⟩ := List.cons.inj hown
    obtain ⟨hU, h₂⟩ := List.cons.inj h₁
    exact ⟨hU, by rw [hlater, hX], h₂⟩
  · rw [hlater] at hown
    exact absurd (List.cons.inj (List.cons.inj (List.cons.inj hown).2).2).1 hne.2.1
  · rw [hlater] at hown
    have htail := (List.cons.inj (List.cons.inj (List.cons.inj hown).2).2).2
    rcases l with _ | ⟨d, l⟩
    · exact absurd (List.cons.inj htail).1 hne.2.2
    · have hnil := (List.cons.inj htail).2
      simp at hnil

end UpdateEntries

/-! ## Running the entries again -/

/-- An access to the database can be repeated in a world with the same tables. -/
theorem runs_db {e : BackendEntry} {o : DbOp} (ho : e.op = .db o)
    (hans : (machine lib).Answer e.op e.pre e.did e.seen e.post) {l : List BackendEntry} {w : World}
    (hdb : w.db = e.pre.db) (hnow : w.now ≤ e.pre.now) {P : World → Prop}
    (hl : ∀ v : World, v.db = e.post.db → v.now = e.post.now →
      ∃ w', Runs (machine lib) World.Later l v w' ∧ P w') :
    ∃ w', Runs (machine lib) World.Later (e :: l) w w' ∧ P w' := by
  obtain ⟨pid, _, pre, did, seen, post⟩ := e
  subst ho
  obtain ⟨v, hv, hvdb, hvnow⟩ := answer_db_congr hans (v := { w with now := pre.now }) hdb rfl
  obtain ⟨w', hruns, hP⟩ := hl v hvdb hvnow
  exact ⟨w', .cons ⟨pre.now, hnow, rfl⟩ hv hruns, hP⟩

/-- Counting a metric can be repeated anywhere. -/
theorem runs_metric {e : BackendEntry} {m : Metric} (ho : e.op = .metric m)
    (hans : (machine lib).Answer e.op e.pre e.did e.seen e.post) (w : World) :
    ∃ w', Runs (machine lib) World.Later [e] w w' ∧ w'.db = w.db ∧ w'.now = w.now := by
  obtain ⟨pid, _, pre, did, seen, post⟩ := e
  subst ho
  obtain ⟨u, -, hseen⟩ := answer_of_fault_none rfl hans
  have hseen : seen = .ok () := hseen
  subst hseen
  have hv : (machine lib).Answer (.metric m) w (.ok ()) (.ok ())
      { w with metrics := m :: w.metrics } :=
        @Machine.Answer.done _ _ _ (machine lib) (.metric m) w {}
  exact ⟨_, .cons (World.later_refl w) hv (.nil _), rfl, rfl⟩

/-- The entries of a successful call can be repeated from the tables that it read, if no other
change of the tables came between them. -/
theorem UpdateEntries.runs {X U M R : BackendEntry} (h : UpdateEntries expenseId X U M R)
    (hans : ∀ e ∈ [R, M, U, X], (machine lib).Answer e.op e.pre e.did e.seen e.post) {w : World}
    (hR : w.db = R.pre.db) (hM : R.post.db = M.pre.db) (hU : M.post.db = U.pre.db)
    (hnow : w.now ≤ R.pre.now) (hRM : R.post.now ≤ M.pre.now) (hMU : M.post.now ≤ U.pre.now) :
    ∃ w', Runs (machine lib) World.Later [R, M, U, X] w w' ∧ w'.db = U.post.db ∧
      w'.now = U.post.now := by
  obtain ⟨⟨m, hXop⟩, -, ⟨data, a, hUop⟩, ⟨g, hMop⟩, hRop⟩ := h
  simp only [List.forall_mem_cons, List.not_mem_nil, false_imp_iff, implies_true, and_true] at hans
  obtain ⟨hansR, hansM, hansU, hansX⟩ := hans
  refine runs_db hRop hansR hR hnow fun v hvdb hvnow => ?_
  refine runs_db hMop hansM (hvdb.trans hM) (hvnow ▸ hRM) fun v hvdb hvnow => ?_
  refine runs_db hUop hansU (hvdb.trans hU) (hvnow ▸ hMU) fun v hvdb hvnow => ?_
  obtain ⟨w', hruns, hdb, hnow⟩ := runs_metric hXop hansX v
  exact ⟨w', hruns, hdb.trans hvdb, hnow.trans hvnow⟩

/-! ## Runs in which each update is merged over the latest state -/

/-- The entries of one call in a run, seen from the place where it committed its update. -/
structure Updated (expenseId : Id) (pid : ℕ) (later : List BackendEntry) (U : BackendEntry)
    (earlier : List BackendEntry) (X M R : BackendEntry) : Prop where
  entries : UpdateEntries expenseId X U M R
  issued : U.pid = pid
  after : later.filter (·.pid = pid) = [X]
  before : earlier.filter (·.pid = pid) = [M, R]

/-- A call that committed an update of the expense has entries around it. -/
theorem updated_of_replay {c : UpdateCall} {pid : ℕ} {later earlier : List BackendEntry}
    {u : BackendEntry} {r : ExpenseDetailDto}
    (hans : ∀ e ∈ later ++ u :: earlier, (machine lib).Answer e.op e.pre e.did e.seen e.post)
    (h : Replay (c.body expenseId) ((later ++ u :: earlier).filter (·.pid = pid)).reverse (.ret r))
    (hpid : u.pid = pid) (hu : expenseUpdated? u = some expenseId) :
    ∃ X M R, Updated expenseId pid later u earlier X M R := by
  obtain ⟨R, M, U, X, hl, hentries⟩ := entries_of_replay
    (fun e he => hans e (List.mem_filter.mp (List.mem_reverse.mp he)).1) h
  have hown : (later ++ u :: earlier).filter (·.pid = pid) = [X, U, M, R] := by
    rw [← List.reverse_reverse ((later ++ u :: earlier).filter _), hl]
    rfl
  obtain ⟨rfl, hlater, hearlier⟩ := hentries.around hpid hu hown
  exact ⟨X, M, R, hentries, hpid, hlater, hearlier⟩

/-- These are all entries of the call. -/
theorem Updated.own_eq {pid : ℕ} {later earlier : List BackendEntry} {U X M R : BackendEntry}
    (h : Updated expenseId pid later U earlier X M R) :
    ((later ++ U :: earlier).filter (·.pid = pid)).reverse = [R, M, U, X] := by
  rw [List.filter_append, List.filter_cons_of_pos (by simpa using h.issued), h.after, h.before]
  rfl

/-- What holds of the entries of the log holds of the call's. -/
theorem Updated.forall_own {pid : ℕ} {later earlier : List BackendEntry}
    {U X M R : BackendEntry} (h : Updated expenseId pid later U earlier X M R)
    {P : BackendEntry → Prop} (hP : ∀ e ∈ later ++ U :: earlier, P e) :
    ∀ e ∈ [R, M, U, X], P e := by
  intro e he
  rw [← h.own_eq] at he
  exact hP e (List.mem_filter.mp (List.mem_reverse.mp he)).1

/-- The other entries of the call leave the tables as they were. -/
theorem Updated.db_eq {pid : ℕ} {later earlier : List BackendEntry} {U X M R e : BackendEntry}
    (h : Updated expenseId pid later U earlier X M R) (he : e ∈ later ∨ e ∈ earlier)
    (hpid : e.pid = pid) (hans : (machine lib).Answer e.op e.pre e.did e.seen e.post) :
    e.post.db = e.pre.db := by
  refine h.entries.db_eq ?_ hans
  rcases he with he | he
  · have hmem : e ∈ later.filter (·.pid = pid) := List.mem_filter.mpr ⟨he, decide_eq_true hpid⟩
    rw [h.after] at hmem
    exact .inl (List.mem_singleton.mp hmem)
  · have hmem : e ∈ earlier.filter (·.pid = pid) := List.mem_filter.mpr ⟨he, decide_eq_true hpid⟩
    rw [h.before, List.mem_cons, List.mem_singleton] at hmem
    exact .inr hmem

/-- A call whose update is merged over the latest state read the expense after the last update. -/
theorem Updated.read_since {pid : ℕ} {later l₂ l₁ : List BackendEntry} {U v X M R : BackendEntry}
    (h : Updated expenseId pid later U (l₂ ++ v :: l₁) X M R) (hv : v.pid ≠ pid)
    (hvu : expenseUpdated? v = some expenseId)
    (hlatest : ∀ e ∈ sinceRead pid expenseId (l₂ ++ v :: l₁), expenseUpdated? e ≠ some expenseId) :
    l₂.filter (·.pid = pid) = [M, R] := by
  obtain ⟨hM, -⟩ := h.entries.read_iff
  have hearlier : l₂.filter (·.pid = pid) ++ l₁.filter (·.pid = pid) = [M, R] := by
    rw [← h.before, List.filter_append, List.filter_cons_of_neg (by simpa using hv)]
  -- The call read the expense among the entries after `v`, for otherwise `v` came since its read.
  obtain ⟨r, hr, hpid, hread⟩ : ∃ r ∈ l₂, r.pid = pid ∧ expenseRead? r = some expenseId := by
    by_contra hnone
    refine hlatest v ?_ hvu
    unfold sinceRead sinceLast
    rw [List.takeWhile_append_of_pos]
    · refine List.mem_append_right _ ?_
      rw [List.takeWhile_cons_of_pos (by simp [hv])]
      exact List.mem_cons_self
    · intro e he
      exact decide_eq_true fun hboth => hnone ⟨e, he, hboth.1, of_decide_eq_true hboth.2⟩
  have hmem : r ∈ l₂.filter (·.pid = pid) := List.mem_filter.mpr ⟨hr, decide_eq_true hpid⟩
  rcases hl₂ : l₂.filter (·.pid = pid) with _ | ⟨a, _ | ⟨b, l⟩⟩
  · rw [hl₂] at hmem
    cases hmem
  · -- One entry only would be the query of the members.
    rw [hl₂] at hmem hearlier
    obtain rfl := List.mem_singleton.mp hmem
    rw [(List.cons.inj hearlier).1, hM] at hread
    cases hread
  · rw [hl₂] at hearlier
    obtain ⟨ha, h₁⟩ := List.cons.inj hearlier
    obtain ⟨hb, h₂⟩ := List.cons.inj h₁
    rw [hl₂, ha, hb, (List.append_eq_nil_iff.mp h₂).1]

/-- The entries of a call up to its update, as they follow from each other between the worlds `w₀`
and `w`, and those of the others in between that left the tables as they were, can be repeated from
the tables of `w₀`. -/
theorem UpdateEntries.runs_between {X U M R : BackendEntry} (h : UpdateEntries expenseId X U M R)
    (hans : ∀ e ∈ [R, M, U, X], (machine lib).Answer e.op e.pre e.did e.seen e.post)
    {l : List BackendEntry} {pid : ℕ} (hl : l.filter (·.pid = pid) = [M, R]) {d : Db}
    (hdb : ∀ e ∈ U :: l, e.pre.db = d)
    (hnow : (U :: l).Pairwise fun x e => e.post.now ≤ x.pre.now) {w : World} (hw : w.db = d)
    (hfirst : ∀ e ∈ l, w.now ≤ e.pre.now) :
    ∃ w', Runs (machine lib) World.Later [R, M, U, X] w w' ∧ w'.db = U.post.db ∧
      w'.now = U.post.now := by
  have hMl : M ∈ l := (List.mem_filter.mp (hl ▸ List.mem_cons_self)).1
  have hRl : R ∈ l :=
    (List.mem_filter.mp (hl ▸ List.mem_cons_of_mem _ (List.mem_singleton.mpr rfl))).1
  -- The two reads see the same tables as the transaction.
  have hRdb : R.pre.db = d := hdb R (List.mem_cons_of_mem _ hRl)
  have hMdb : M.pre.db = d := hdb M (List.mem_cons_of_mem _ hMl)
  have hUdb : U.pre.db = d := hdb U List.mem_cons_self
  have hRpost : R.post.db = R.pre.db := h.db_eq (.inr (.inr rfl)) (hans R (by simp))
  have hMpost : M.post.db = M.pre.db := h.db_eq (.inr (.inl rfl)) (hans M (by simp))
  have hpair : ([M, R] : List BackendEntry).Pairwise fun x e => e.post.now ≤ x.pre.now :=
    hl ▸ (List.pairwise_cons.mp hnow).2.filter _
  refine h.runs hans (hw.trans hRdb.symm) ?_ ?_ (hfirst R hRl) ?_ ?_
  · rw [hRpost, hRdb, hMdb]
  · rw [hMpost, hMdb, hUdb]
  · exact (List.pairwise_cons.mp hpair).1 R (List.mem_singleton.mpr rfl)
  · exact (List.pairwise_cons.mp hnow).1 M hMl

/-- Between two updates, and before and after them, the tables stayed as they were. -/
theorem tables_between {w₀ w : World} {l₃ l₂ l₁ : List BackendEntry} {u v : BackendEntry}
    (hlinked : (latestSystem lib expenseId).Linked w₀ (l₃ ++ u :: (l₂ ++ v :: l₁)) w)
    (hquiet : ∀ e, e ∈ l₃ ∨ e ∈ l₂ ∨ e ∈ l₁ → e.post.db = e.pre.db) :
    (∀ e ∈ v :: l₁, e.pre.db = w₀.db) ∧ (∀ e ∈ u :: l₂, e.pre.db = v.post.db) ∧
      w.db = u.post.db := by
  have hkeep : ∀ d : Db, ∀ w w' : World, w.db = d → World.Later w w' → w'.db = d := by
    rintro d w _ hw ⟨t, -, rfl⟩
    exact hw
  have hlinked₂ := (hlinked.of_suffix (List.suffix_append l₃ _)).1
  have hlinked₁ := (hlinked₂.of_suffix (List.suffix_append l₂ _)).1
  rw [← List.append_nil l₁] at hlinked₁
  refine ⟨List.forall_mem_cons.mpr ?_, List.forall_mem_cons.mpr ?_, ?_⟩
  · refine hlinked₁.persists (hkeep w₀.db) (fun w hw => System.keeps_star (hkeep w₀.db) rfl hw) ?_
    exact fun e he hpre => (hquiet e (.inr (.inr he))).trans hpre
  · refine hlinked₂.keeps (P := fun w => w.db = v.post.db) (hkeep _) rfl ?_
    exact fun e he hpre => (hquiet e (.inr (.inl he))).trans hpre
  · refine (hlinked.keeps (P := fun w => w.db = u.post.db) (hkeep _) rfl ?_).1
    exact fun e he hpre => (hquiet e (.inl he)).trans hpre

/-- If the update of `d` was committed after the one of `c`, the calls have the effect of `c` before
`d`. -/
theorem serial_of_earlier {c d : UpdateCall} {p q : ℕ} (hpq : p ≠ q) {w₀ w : World}
    {l₃ l₂ l₁ : List BackendEntry} {u v : BackendEntry}
    (hlinked : (latestSystem lib expenseId).Linked w₀ (l₃ ++ u :: (l₂ ++ v :: l₁)) w)
    (honly : ∀ e ∈ l₃ ++ u :: (l₂ ++ v :: l₁), e.pid = p ∨ e.pid = q) {rc rd : ExpenseDetailDto}
    (hc : Replay (c.body expenseId)
      ((l₃ ++ u :: (l₂ ++ v :: l₁)).filter (·.pid = p)).reverse (.ret rc))
    (hd : Replay (d.body expenseId)
      ((l₃ ++ u :: (l₂ ++ v :: l₁)).filter (·.pid = q)).reverse (.ret rd))
    (hvp : v.pid = p) (huq : u.pid = q) (hv : expenseUpdated? v = some expenseId)
    (hu : expenseUpdated? u = some expenseId) : RunsSerially lib expenseId w₀ w c d := by
  have hassoc : l₃ ++ u :: (l₂ ++ v :: l₁) = (l₃ ++ u :: l₂) ++ v :: l₁ := by simp
  have hans : ∀ e ∈ l₃ ++ u :: (l₂ ++ v :: l₁),
      (machine lib).Answer e.op e.pre e.did e.seen e.post := fun e he => hlinked.answer he
  obtain ⟨X', M', R', hD⟩ := updated_of_replay hans hd huq hu
  rw [hassoc] at hc
  obtain ⟨X, M, R, hC⟩ := updated_of_replay (hassoc ▸ hans) hc hvp hv
  rw [hC.own_eq] at hc
  rw [hD.own_eq] at hd
  -- The second call read the expense after the first one committed.
  have hl₂ : l₂.filter (·.pid = q) = [M', R'] := by
    refine hD.read_since (hvp.trans_ne hpq) hv ?_
    have hallow : ReadsLatest u.pid u.op ⟨u.pre, l₂ ++ v :: l₁⟩ :=
      (hlinked.of_suffix (List.suffix_append l₃ _)).2.1
    obtain ⟨data, a, hop⟩ := hD.entries.write
    rw [hop, huq] at hallow
    exact hallow
  -- Nothing but the two updates changed the tables.
  have hquiet : ∀ e, e ∈ l₃ ∨ e ∈ l₂ ∨ e ∈ l₁ → e.post.db = e.pre.db := by
    intro e he
    have hmem : e ∈ l₃ ++ u :: (l₂ ++ v :: l₁) := by
      simp only [List.mem_append, List.mem_cons]
      tauto
    rcases honly e hmem with hp | hq
    · refine hC.db_eq ?_ hp (hans e hmem)
      simp only [List.mem_append, List.mem_cons]
      tauto
    · refine hD.db_eq ?_ hq (hans e hmem)
      simp only [List.mem_append, List.mem_cons]
      tauto
  obtain ⟨hl₁db, hl₂db, hfinal⟩ := tables_between hlinked hquiet
  obtain ⟨hpair, hfirst, -⟩ := hlinked.mono (f := World.now)
    (by rintro w _ ⟨t, ht, rfl⟩; exact ht) fun e he => (answer_now he).ge
  have hpair₂ := List.Pairwise.sublist (List.sublist_append_right l₃ _) hpair
  have hpair₁ := List.Pairwise.sublist (List.sublist_append_right l₂ _)
    (List.pairwise_cons.mp hpair₂).2
  -- The two calls, one after the other.
  obtain ⟨w₁, hruns₁, hdb₁, hnow₁⟩ := hC.entries.runs_between (hC.forall_own (hassoc ▸ hans))
    hC.before hl₁db hpair₁ rfl fun e he => (hfirst e (by simp [he])).1
  obtain ⟨w₂, hruns₂, hdb₂, -⟩ := hD.entries.runs_between (hD.forall_own hans) hl₂ hl₂db
    (List.Pairwise.sublist (by simp) hpair₂) hdb₁ fun e he => by
      rw [hnow₁]
      exact (List.pairwise_append.mp (List.pairwise_cons.mp hpair₂).2).2.2 e he v
        List.mem_cons_self
  exact ⟨rc, rd, w₁, w₂, hc.exec hruns₁ (.ret rc w₁), hd.exec hruns₂ (.ret rd w₂),
    by rw [hfinal, hdb₂]⟩

/-- A call that has returned committed an update of the expense. -/
theorem exists_updated {c : UpdateCall} {r : ExpenseDetailDto} {pid : ℕ} {log : List BackendEntry}
    (hans : ∀ e ∈ log, (machine lib).Answer e.op e.pre e.did e.seen e.post)
    (h : Replay (c.body expenseId) (log.filter (·.pid = pid)).reverse (.ret r)) :
    ∃ U ∈ log, U.pid = pid ∧ expenseUpdated? U = some expenseId := by
  obtain ⟨R, M, U, X, hl, hentries⟩ := entries_of_replay
    (fun e he => hans e (List.mem_filter.mp (List.mem_reverse.mp he)).1) h
  have hU : U ∈ (log.filter (·.pid = pid)).reverse := by simp [hl]
  obtain ⟨hmem, hpid⟩ := List.mem_filter.mp (List.mem_reverse.mp hU)
  exact ⟨U, hmem, of_decide_eq_true hpid, hentries.updates⟩

/-- If each transaction commits what was merged over the latest state, two successful calls have the
effect of one after the other. -/
theorem updates_serial {w₀ : World} {cfg : (latestSystem lib expenseId).Config}
    (h : (latestSystem lib expenseId).Reachable (· = w₀) cfg) {c d : UpdateCall}
    {rc rd : ExpenseDetailDto} (hprocs : cfg.procs = [(c, .ret rc), (d, .ret rd)]) :
    RunsSerially lib expenseId w₀ cfg.hist.world c d ∨
      RunsSerially lib expenseId w₀ cfg.hist.world d c := by
  obtain ⟨⟨_, rfl, hlinked⟩, hpids, hreplays⟩ := System.replays h
  have hc := hreplays 0 c (.ret rc) (by rw [hprocs]; rfl)
  have hd := hreplays 1 d (.ret rd) (by rw [hprocs]; rfl)
  have honly : ∀ e ∈ cfg.hist.log, e.pid = 0 ∨ e.pid = 1 := by
    intro e he
    have hlt := hpids e he
    rw [hprocs, List.length_cons, List.length_singleton] at hlt
    omega
  have hans : ∀ e ∈ cfg.hist.log, (machine lib).Answer e.op e.pre e.did e.seen e.post :=
    fun e he => hlinked.answer he
  obtain ⟨U, hU, hpid, hupd⟩ := exists_updated hans hc
  obtain ⟨U', hU', hpid', hupd'⟩ := exists_updated hans hd
  -- Whichever update was committed first belongs to the call that comes first.
  rcases eq_or_earlier hU hU' with rfl | ⟨l, ⟨l₃, hl⟩, hmem⟩ | ⟨l, ⟨l₃, hl⟩, hmem⟩
  · omega
  · obtain ⟨l₂, l₁, rfl⟩ := List.append_of_mem hmem
    unfold Hist.own at hc hd
    rw [← hl] at hlinked honly hc hd
    exact .inr (serial_of_earlier (by omega) hlinked (fun e he => (honly e he).symm) hd hc hpid'
      hpid hupd' hupd)
  · obtain ⟨l₂, l₁, rfl⟩ := List.append_of_mem hmem
    unfold Hist.own at hc hd
    rw [← hl] at hlinked honly hc hd
    exact .inl (serial_of_earlier (by omega) hlinked honly hc hd hpid hpid' hupd hupd')

/-! ## Runs in which updates are lost -/

instance (lib : Lib) (expenseId : Id) : DecidablePred (updateSystem lib expenseId).valid :=
  fun c => inferInstanceAs (Decidable c.input.Accepted)

instance (lib : Lib) (expenseId : Id) : DecidablePred (latestSystem lib expenseId).valid :=
  fun c => inferInstanceAs (Decidable c.input.Accepted)

/-- The bodies of two requests set no field both. -/
def UpdateExpenseInput.DisjointFrom (a b : UpdateExpenseInput) : Prop :=
  (a.description = none ∨ b.description = none) ∧
    (a.amountMinorUnits = none ∨ b.amountMinorUnits = none) ∧
    (a.payerId = none ∨ b.payerId = none) ∧ (a.splitType = none ∨ b.splitType = none) ∧
    (a.participants = none ∨ b.participants = none) ∧
    (a.expenseDate = none ∨ b.expenseDate = none)

/-- A query answers a call that runs alone from the tables of the world in which it started. -/
theorem read_alone {o : DbOp} {f : Choice → Db → o.Res} (ho : o.access = .read f)
    {w w₁ w₂ : World} (hlater : w.Later w₁) {did : Except Err o.Res} {v : o.Res}
    (hans : (machine lib).Answer (.db o) w₁ did (.ok v) w₂) :
    w₂.db = w.db ∧ ∃ c, v = f c w.db := by
  obtain ⟨t, -, rfl⟩ := hlater
  obtain ⟨rfl, ⟨c, hv⟩ | hv⟩ := answer_read ho hans
  · exact ⟨rfl, c, Except.ok.inj hv⟩
  · cases hv

/-- A successful call that runs alone gives the expense the description that it was sent. -/
theorem description_of_exec {c : UpdateCall} {w w' : World} {r : ExpenseDetailDto}
    (h : Exec (machine lib) World.Later (c.body expenseId) w (.ok r) w') :
    ∃ e, w.db.expense? expenseId = some e ∧
      (w'.db.expense? expenseId).map (·.description) =
        some (c.input.description.getD e.description) := by
  -- The operations of the body, one after the other: none before the transaction changes the
  -- tables.
  obtain ⟨w₁, did₁, expense, w₂, hw₁, hans₁, h⟩ := h.perform_bind
  obtain ⟨hdb₂, ch, hread⟩ := read_alone rfl hw₁ hans₁
  obtain ⟨expense, rfl, h⟩ := h.expect_bind
  obtain ⟨e, he, rfl⟩ := Option.map_eq_some_iff.mp hread.symm
  obtain ⟨w₃, did₃, memberIds, w₄, hw₃, hans₃, h⟩ := h.perform_bind
  obtain ⟨hdb₄, -⟩ := read_alone rfl hw₃ hans₃
  obtain ⟨-, h⟩ := h.ensure_bind
  obtain ⟨-, h⟩ := h.ensure_bind
  obtain ⟨splits, -, h⟩ := h.ofExcept_bind
  obtain ⟨w₅, did₅, updated, w₆, ⟨t, -, rfl⟩, hans₅, h⟩ := h.perform_bind
  obtain ⟨w₇, did₇, u, w₈, hw₇, hans₇, h⟩ := h.perform_bind
  obtain ⟨-, rfl⟩ := h.of_ret
  refine ⟨e, he, ?_⟩
  obtain ⟨-, -, ⟨err, herr, -⟩ | ⟨ch', r', -, heval⟩⟩ := answer_write rfl hans₅
  · have hok := answer_seen_ok hans₅
    rw [herr] at hok
    cases hok
  -- After the transaction only a counter goes up.
  · have hdb₈ : w'.db = w₆.db := by
      have hcount := answer_db_eq (o := .metric .expensesUpdatedTotal) (by rintro d ⟨⟩) hans₇
      obtain ⟨t, -, rfl⟩ := hw₇
      exact hcount
    obtain ⟨old, hold, hnew⟩ := expense?_updateExpenseWithSplits heval
    have hsame : w₄.db.expense? expenseId = some e := by rw [hdb₄, hdb₂, he]
    obtain rfl := Option.some.inj (hsame.symm.trans hold)
    rw [hdb₈, hnew]
    rfl

/-- The description after two successful calls is the last one that was sent. -/
theorem RunsSerially.description {c d : UpdateCall} {w w' : World}
    (h : RunsSerially lib expenseId w w' c d) :
    ∃ e, w.db.expense? expenseId = some e ∧ (w'.db.expense? expenseId).map (·.description) =
      some (d.input.description.getD (c.input.description.getD e.description)) := by
  obtain ⟨rc, rd, w₁, w₂, hc, hd, hdata⟩ := h
  obtain ⟨e, he, h₁⟩ := description_of_exec hc
  obtain ⟨e₁, he₁, h₂⟩ := description_of_exec hd
  rw [he₁, Option.map_some, Option.some.injEq] at h₁
  have hsame := congrArg (Option.map Prisma.UpdateExpenseData.description) hdata
  rw [Option.map_map, Option.map_map] at hsame
  exact ⟨e, he, hsame.symm.trans (h₁ ▸ h₂)⟩

/-- Both calls of a run have returned. -/
theorem both_returned {procs : List (UpdateCall × Act ExpenseDetailDto)} {c d : UpdateCall}
    (hcalls : procs.map (·.1) = [c, d])
    (hret : procs.map (fun p => p.2.result?.isSome) = [true, true]) :
    ∃ rc rd, procs = [(c, .ret rc), (d, .ret rd)] := by
  rcases procs with _ | ⟨⟨c', p⟩, _ | ⟨⟨d', q⟩, _ | ⟨_, _⟩⟩⟩
  · cases hcalls
  · cases hcalls
  · obtain ⟨rfl, h₁⟩ := List.cons.inj hcalls
    obtain ⟨rfl, -⟩ := List.cons.inj h₁
    obtain ⟨hp, h₂⟩ := List.cons.inj hret
    obtain ⟨rc, rfl⟩ := Prog.exists_ret hp
    obtain ⟨rd, rfl⟩ := Prog.exists_ret (List.cons.inj h₂).1
    exact ⟨rc, rd, rfl⟩
  · have hlen := congrArg List.length hcalls
    simp at hlen

/-- Two members of a group and an expense that they share. -/
def sharedLunch : World where
  db :=
    { users := [⟨1, "A", "a@x.io", none, none⟩, ⟨2, "B", "b@x.io", none, none⟩]
      groups := [⟨10, "Trip", 1, 0, 0⟩]
      groupMembers := [⟨11, 10, 1, 0⟩, ⟨12, 10, 2, 0⟩]
      expenses := [⟨20, 10, 1, "Lunch", 1000, "PKR", .equal, 0,
        [⟨21, 1, 500, 0⟩, ⟨22, 2, 500, 0⟩], 0, 0⟩]
      nextId := 30 }

/-- One request renames the expense and the other one corrects its amount. -/
def retitling : UpdateCall := ⟨1, { description := some "Dinner" }⟩

def correction : UpdateCall := ⟨2, { amountMinorUnits := some 1200 }⟩

/-- Both requests read the expense before either of them writes it. -/
def crossedUpdates : List (System.Action (updateSystem .plain 20)) := List.flatten
  [[.spawn retitling, .spawn correction, .op 0 {}, .op 1 {}],
    System.turns _ 0 {} 3, System.turns _ 1 {} 3]

/-- The second request reads the expense when the first one has written it. -/
def followingUpdates : List (System.Action (latestSystem .plain 20)) := List.flatten
  [[.spawn retitling, .spawn correction], System.turns _ 0 {} 3, System.turns _ 1 {} 4, [.op 0 {}]]

/-- An update that follows another one. -/
theorem updates_serial_following : ∃ cfg,
    (latestSystem .plain 20).play followingUpdates ((latestSystem .plain 20).start sharedLunch) =
      some cfg ∧
    (RunsSerially .plain 20 sharedLunch cfg.hist.world retitling correction ∨
      RunsSerially .plain 20 sharedLunch cfg.hist.world correction retitling) := by
  obtain ⟨cfg, hplay, hall, hcalls, hret⟩ : ∃ cfg, (latestSystem .plain 20).play followingUpdates
      ((latestSystem .plain 20).start sharedLunch) = some cfg ∧
      (latestSystem .plain 20).Allowed cfg.hist.log ∧ cfg.procs.map (·.1) =
        [retitling, correction] ∧
      cfg.procs.map (fun p => p.2.result?.isSome) = [true, true] :=
    System.exists_of_play (by decide +kernel)
  obtain ⟨rc, rd, hprocs⟩ := both_returned hcalls hret
  have hreach : (latestSystem .plain 20).Reachable (· = sharedLunch) cfg :=
    System.reachable_of_allowed (.start rfl) hplay hall
  exact ⟨cfg, hplay, updates_serial hreach hprocs⟩

/-- Requests that set different fields, and of which the one that wrote last put the description
back that it had read. -/
theorem updates_lost : ¬∀ (lib : Lib) (expenseId : Id) (w₀ : World)
    (cfg : (updateSystem lib expenseId).Config) (c d : UpdateCall) (rc rd : ExpenseDetailDto),
    (updateSystem lib expenseId).Reachable (· = w₀) cfg →
    cfg.procs = [(c, .ret rc), (d, .ret rd)] → c.input.DisjointFrom d.input →
    RunsSerially lib expenseId w₀ cfg.hist.world c d ∨
      RunsSerially lib expenseId w₀ cfg.hist.world d c := by
  intro hserial
  obtain ⟨cfg, hplay, hcalls, hret, hlunch⟩ : ∃ cfg, (updateSystem .plain 20).play
      crossedUpdates ((updateSystem .plain 20).start sharedLunch) = some cfg ∧
      cfg.procs.map (·.1) = [retitling, correction] ∧
      cfg.procs.map (fun p => p.2.result?.isSome) = [true, true] ∧
      (cfg.hist.world.db.expense? 20).map (·.description) = some "Lunch" :=
    System.exists_of_play (by decide +kernel)
  obtain ⟨rc, rd, hprocs⟩ := both_returned hcalls hret
  have hreach : (updateSystem .plain 20).Reachable (· = sharedLunch) cfg :=
    System.reachable_of_play (fun _ _ _ => trivial) (.start rfl) hplay
  have hdisjoint : retitling.input.DisjointFrom correction.input := by
    unfold UpdateExpenseInput.DisjointFrom
    decide
  -- Either order would leave the new description.
  rcases hserial .plain 20 sharedLunch cfg retitling correction rc rd hreach hprocs hdisjoint with
    h | h
  · obtain ⟨e, -, hdinner⟩ := h.description
    rw [hlunch] at hdinner
    have hboth : some "Lunch" = some "Dinner" := hdinner
    exact absurd hboth (by decide)
  · obtain ⟨e, -, hdinner⟩ := h.description
    rw [hlunch] at hdinner
    have hboth : some "Lunch" = some "Dinner" := hdinner
    exact absurd hboth (by decide)

end SplitBill
