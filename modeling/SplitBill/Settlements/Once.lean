import SplitBill.Rules
import SplitBill.Settlements.CreateSettlement

/-!
# One settlement for each lifetime of a key

Any number of `SettlementRepository.createSettlement` calls side by side, with any keys, users,
bodies and groups. The claims of the keys are read off the log: `commits` are the transactions that
took effect, and `checks` are the records that a call compared with the clock.

The invariant is that every key which was ever claimed still has a record, of the user who claimed
it, and that an earlier claim of the key is past its expiry unless the record is its own. A record
is deleted only by a call that has seen it expired, and only by its id, so whatever the others do
meanwhile the deleted record is the one that the call has seen.
-/

namespace SplitBill

open Interleave
open Prisma (SettlementCreateData)

/-- A call of `SettlementRepository.createSettlement`. -/
structure SettlementCall where
  data : SettlementCreateData
  idempotency : IdempotencyContext
  activity : ActivityEventInput

/-- What may happen to the world around the calls: settlements are deleted along with their groups,
but nothing touches the idempotency records or changes a settlement. -/
def Undisturbed (w w' : World) : Prop :=
  w.now ≤ w'.now ∧ w.db.nextId ≤ w'.db.nextId ∧
    w'.db.idempotencyRecords = w.db.idempotencyRecords ∧
    ∀ s ∈ w'.db.settlements, s ∈ w.db.settlements

/-- Settlement calls side by side. -/
def settlementSystem (lib : Lib) : System backend Err SettlementRecord World where
  machine := machine lib
  Call := SettlementCall
  body c := SettlementRepository.createSettlement c.data c.idempotency c.activity
  valid _ := True
  env := Undisturbed

instance (lib : Lib) : DecidablePred (settlementSystem lib).valid := fun _ => isTrue trivial

/-- The worlds from which the runs start: no key has been claimed yet. -/
def Unclaimed (w : World) : Prop :=
  w.db.idempotencyRecords = [] ∧ ∀ s ∈ w.db.settlements, s.id < w.db.nextId

/-! ## What the log says -/

/-- A committed transaction of `createSettlement`. -/
structure Commit where
  pid : ℕ
  key : String
  userId : Id
  requestHash : String
  expiresAt : Time
  committedAt : Time
  settlement : Settlement

/-- The transaction that an entry committed, if it committed one. -/
def commit? : BackendEntry → Option Commit
  | ⟨pid, .db (.settlement (.claimAndSettle _ _ context _ expiresAt)), pre, .ok s, _, _⟩ =>
    some ⟨pid, context.key, context.userId, context.requestHash, expiresAt, pre.now, s.row⟩
  | _ => none

/-- The record that an entry found for its key. -/
def found? : BackendEntry → Option IdempotencyRecord
  | ⟨_, .db (.settlement (.findIdempotencyRecord _)), _, _, .ok (some r), _⟩ => some r
  | _ => none

/-- The time that an entry read. -/
def clock? : BackendEntry → Option Time
  | ⟨_, .now, _, _, .ok t, _⟩ => some t
  | _ => none

/-- The committed transactions of a log, latest first. -/
def commits (log : List BackendEntry) : List Commit := log.filterMap commit?

/-- The records that a call found, with the times that it read right afterwards, latest first. -/
def checks : List BackendEntry → List (IdempotencyRecord × Time)
  | [] => []
  | e :: log =>
    match clock? e, log.head?.bind found? with
    | some t, some r => (r, t) :: checks log
    | _, _ => checks log

/-- A record that is unexpired at the time `t` and belongs to another user or another request. -/
def Mismatch (context : IdempotencyContext) (record : IdempotencyRecord) (t : Time) : Prop :=
  t < record.expiresAt ∧
    (record.userId ≠ context.userId ∨ record.requestHash ≠ context.requestHash)

/-- The record has the key, the user and the request hash of the context. -/
def IdempotencyRecord.For (record : IdempotencyRecord) (context : IdempotencyContext) : Prop :=
  record.key = context.key ∧ record.userId = context.userId ∧
    record.requestHash = context.requestHash

/-- The transaction was committed with the key, the user and the request hash of the context. -/
def Commit.For (k : Commit) (context : IdempotencyContext) : Prop :=
  k.key = context.key ∧ k.userId = context.userId ∧ k.requestHash = context.requestHash

/-- The record is the one that the transaction left. -/
def Commit.Left (k : Commit) (record : IdempotencyRecord) : Prop :=
  k.key = record.key ∧ k.userId = record.userId ∧ k.requestHash = record.requestHash ∧
    k.expiresAt = record.expiresAt ∧ record.resourceId = some k.settlement.id

section

variable {e : BackendEntry} {log : List BackendEntry}

/-- An entry that commits no settlement. -/
theorem commits_cons_none (h : commit? e = none) : commits (e :: log) = commits log :=
  List.filterMap_cons_none h

/-- An entry that commits a settlement. -/
theorem commits_cons_some {k : Commit} (h : commit? e = some k) :
    commits (e :: log) = k :: commits log :=
  List.filterMap_cons_some h

/-- An entry that is no look at the clock. -/
theorem checks_cons_none (h : clock? e = none) : checks (e :: log) = checks log := by
  simp only [checks, h]

/-- A look at the clock right after a record was found checks that record. -/
theorem checks_cons_some {t : Time} {r : IdempotencyRecord} (h : clock? e = some t)
    (hr : log.head?.bind found? = some r) : checks (e :: log) = (r, t) :: checks log := by
  simp only [checks, h, hr]

/-- Where no record was found, none is checked. -/
theorem checks_cons_of_not_found (hr : log.head?.bind found? = none) :
    checks (e :: log) = checks log := by
  simp only [checks, hr]
  split <;> simp_all

end

/-! ## The invariant -/

/-- How the tables and the clock go with the transactions that were committed so far. -/
structure Claims (w : World) (ks : List Commit) : Prop where
  recordIds : ∀ r ∈ w.db.idempotencyRecords, r.id < w.db.nextId
  distinct : ∀ r ∈ w.db.idempotencyRecords, ∀ r' ∈ w.db.idempotencyRecords, r'.id = r.id → r' = r
  /-- Every record is completed and was left by a transaction. -/
  origin : ∀ r ∈ w.db.idempotencyRecords, r.status = .completed ∧ ∃ k ∈ ks, k.Left r
  /-- A key that was claimed has a record of its user, and a claim that is not expired yet expires
  no later than the record. -/
  owner : ∀ k ∈ ks, ∃ r ∈ w.db.idempotencyRecords, r.key = k.key ∧ r.userId = k.userId ∧
    (k.expiresAt ≤ r.expiresAt ∨ k.expiresAt ≤ w.now)
  /-- A key is claimed again only by its user, and only after the earlier claim expired. -/
  lifetimes : ks.Pairwise fun later earlier => later.key = earlier.key →
    earlier.expiresAt ≤ later.committedAt ∧ later.userId = earlier.userId
  settlementIds : ∀ s ∈ w.db.settlements, s.id < w.db.nextId
  commitIds : ∀ k ∈ ks, k.settlement.id < w.db.nextId
  /-- The settlement of a transaction is never changed. -/
  rows : ∀ s ∈ w.db.settlements, ∀ k ∈ ks, k.settlement.id = s.id → k.settlement = s

/-- The surroundings keep the invariant. -/
theorem Claims.undisturbed {w w' : World} {ks : List Commit} (h : Claims w ks)
    (hw : Undisturbed w w') : Claims w' ks := by
  -- Time only moves on, identifiers only grow and rows only go.
  obtain ⟨hnow, hnext, hrecords, hsettlements⟩ := hw
  constructor
  case recordIds =>
    rw [hrecords]
    exact fun r hr => lt_of_lt_of_le (h.recordIds r hr) hnext
  case distinct =>
    rw [hrecords]
    exact h.distinct
  case origin =>
    rw [hrecords]
    exact h.origin
  case owner =>
    rw [hrecords]
    intro k hk
    obtain ⟨r, hr, hkey, huser, hexp⟩ := h.owner k hk
    exact ⟨r, hr, hkey, huser, hexp.imp_right fun h' => le_trans h' hnow⟩
  case lifetimes =>
    exact h.lifetimes
  case settlementIds =>
    exact fun s hs => lt_of_lt_of_le (h.settlementIds s (hsettlements s hs)) hnext
  case commitIds =>
    exact fun k hk => lt_of_lt_of_le (h.commitIds k hk) hnext
  case rows =>
    exact fun s hs => h.rows s (hsettlements s hs)

/-- The record that a request is about to delete has the key and the user of the request, and has
expired. -/
def MayClaim (existing : Option Id) (context : IdempotencyContext) (w : World) : Prop :=
  ∀ r ∈ w.db.idempotencyRecords, existing = some r.id →
    r.key = context.key ∧ r.userId = context.userId ∧ r.expiresAt ≤ w.now

/-- A transaction of a request that may claim its key keeps the invariant. -/
theorem Claims.commit {w w' : World} {ks : List Commit} (h : Claims w ks) {pid : ℕ}
    {existing : Option Id} {data : SettlementCreateData} {context : IdempotencyContext}
    {activity : ActivityEventInput} {expiresAt : Time} {s : SettlementRecord}
    (hmay : MayClaim existing context w) (hnow : w'.now = w.now)
    (heval : (claimAndSettle w.now existing data context activity expiresAt).eval w.db =
      .ok (s, w'.db)) :
    Claims w' (⟨pid, context.key, context.userId, context.requestHash, expiresAt, w.now, s.row⟩ ::
      ks) := by
  obtain ⟨hfree, hrow, event, _, -, hrecords, hdb⟩ := claimAndSettle_eq_ok heval
  rw [hrecords h.recordIds] at hdb
  have hkept : ∀ r ∈ recordsWithout existing w.db, r ∈ w.db.idempotencyRecords :=
    fun r hr => List.mem_of_mem_filter hr
  -- The record of an earlier claim of the key is the one that the transaction deleted.
  have hclaimed : ∀ k ∈ ks, ∀ r ∈ w.db.idempotencyRecords, r.key = k.key →
      r ∈ recordsWithout existing w.db ∨ existing = some r.id := by
    intro k hk r hr hkey
    by_cases hd : existing = some r.id
    · exact .inr hd
    · exact .inl (List.mem_filter.mpr ⟨hr, by simpa using hd⟩)
  rw [hrow]
  constructor
  case recordIds =>
    rw [hdb]
    rintro r (- | ⟨-, hr⟩)
    · exact Nat.lt_add_of_pos_right (by omega)
    · exact Nat.lt_add_right 3 (h.recordIds r (hkept r hr))
  case distinct =>
    rw [hdb]
    rintro r (- | ⟨-, hr⟩) r' (- | ⟨-, hr'⟩) hid
    · rfl
    · exact absurd hid (h.recordIds r' (hkept r' hr')).ne
    · exact absurd hid.symm (h.recordIds r (hkept r hr)).ne
    · exact h.distinct r (hkept r hr) r' (hkept r' hr') hid
  case origin =>
    rw [hdb]
    rintro r (- | ⟨-, hr⟩)
    · exact ⟨rfl, _, List.mem_cons_self, rfl, rfl, rfl, rfl, rfl⟩
    · obtain ⟨hstatus, k, hk, hleft⟩ := h.origin r (hkept r hr)
      exact ⟨hstatus, k, List.mem_cons_of_mem _ hk, hleft⟩
  case owner =>
    rw [hdb, hnow]
    rintro k (- | ⟨-, hk⟩)
    · exact ⟨_, List.mem_cons_self, rfl, rfl, .inl le_rfl⟩
    · obtain ⟨r, hr, hkey, huser, hexp⟩ := h.owner k hk
      rcases hclaimed k hk r hr hkey with hr' | hd
      · exact ⟨r, List.mem_cons_of_mem _ hr', hkey, huser, hexp⟩
      · obtain ⟨hkey', huser', hexp'⟩ := hmay r hr hd
        refine ⟨_, List.mem_cons_self, hkey'.symm.trans hkey, huser'.symm.trans huser, .inr ?_⟩
        exact hexp.elim (fun h' => le_trans h' hexp') fun h' => h'
  case lifetimes =>
    refine List.pairwise_cons.mpr ⟨fun k hk hkey => ?_, h.lifetimes⟩
    obtain ⟨r, hr, hkey', huser, hexp⟩ := h.owner k hk
    rcases hclaimed k hk r hr hkey' with hr' | hd
    · exact absurd (hkey'.trans hkey.symm) (hfree r hr')
    · obtain ⟨-, huser', hexp'⟩ := hmay r hr hd
      exact ⟨hexp.elim (fun h' => le_trans h' hexp') fun h' => h', huser'.symm.trans huser⟩
  case settlementIds =>
    rw [hdb]
    rintro s' (- | ⟨-, hs'⟩)
    · exact Nat.add_lt_add_left (by omega) _
    · exact Nat.lt_add_right 3 (h.settlementIds s' hs')
  case commitIds =>
    rw [hdb]
    rintro k (- | ⟨-, hk⟩)
    · exact Nat.add_lt_add_left (by omega) _
    · exact Nat.lt_add_right 3 (h.commitIds k hk)
  case rows =>
    rw [hdb]
    intro s' hs' k hk hid
    rcases List.mem_cons.mp hs' with rfl | hs' <;> rcases List.mem_cons.mp hk with rfl | hk
    · rfl
    · exact absurd hid (Nat.lt_succ_of_lt (h.commitIds k hk)).ne
    · exact absurd hid.symm (Nat.lt_succ_of_lt (h.settlementIds s' hs')).ne
    · exact h.rows s' hs' k hk hid

/-! ## What every step keeps -/

/-- What a step did to the tables: one that commits no transaction leaves all of them as they
were, and one that commits adds the transaction's settlement and leaves the completed record of
its key. -/
def Accounted (e : BackendEntry) : Prop :=
  (commit? e = none → e.post.db = e.pre.db) ∧
    ∀ k, commit? e = some k → e.post.db.settlements = k.settlement :: e.pre.db.settlements ∧
      ∃ r ∈ e.post.db.idempotencyRecords, r.status = .completed ∧ k.Left r

/-- What holds in every reachable state. -/
structure SettlementInv (h : Hist backend Err World) : Prop where
  claims : Claims h.world (commits h.log)
  accounted : ∀ e ∈ h.log, Accounted e

/-- What every step of a run keeps. -/
structure SettlementRely (h h' : Hist backend Err World) : Prop where
  log : h.log <:+ h'.log
  now : h.world.now ≤ h'.world.now
  nextId : h.world.db.nextId ≤ h'.world.db.nextId
  records : ∀ r ∈ h'.world.db.idempotencyRecords, r.id < h.world.db.nextId →
    r ∈ h.world.db.idempotencyRecords
  inv : SettlementInv h → SettlementInv h'

namespace SettlementRely

/-- Nothing has happened elsewhere. -/
theorem refl (h : Hist backend Err World) : SettlementRely h h :=
  ⟨List.suffix_rfl, le_rfl, le_rfl, fun _ hr _ => hr, fun hi => hi⟩

/-- What happens elsewhere happens in parts. -/
theorem trans {a b c : Hist backend Err World} (h₁ : SettlementRely a b)
    (h₂ : SettlementRely b c) : SettlementRely a c where
  log := h₁.log.trans h₂.log
  now := le_trans h₁.now h₂.now
  nextId := le_trans h₁.nextId h₂.nextId
  records r hr hlt := h₁.records r (h₂.records r hr (lt_of_lt_of_le hlt h₁.nextId)) hlt
  inv hi := h₂.inv (h₁.inv hi)

/-- A transaction that was committed stays in the log. -/
theorem mem_commits {h h' : Hist backend Err World} (hR : SettlementRely h h') {k : Commit}
    (hk : k ∈ commits h.log) : k ∈ commits h'.log :=
  (hR.log.filterMap commit?).mem hk

/-- The surroundings. -/
theorem env {h : Hist backend Err World} {w : World} (hw : Undisturbed h.world w) :
    SettlementRely h (h.withWorld w) where
  log := List.suffix_rfl
  now := hw.1
  nextId := hw.2.1
  records _ hr _ := hw.2.2.1 ▸ hr
  inv hi := ⟨hi.claims.undisturbed hw, hi.accounted⟩

/-- A step that leaves the tables and the clock alone. -/
theorem quiet {h : Hist backend Err World} {pid : ℕ} {o : Op} {did seen : Except Err o.Res}
    {w : World} (hdb : w.db = h.world.db) (hnow : w.now = h.world.now)
    (hc : commit? ⟨pid, o, h.world, did, seen, w⟩ = none) :
    SettlementRely h (h.record pid o did seen w) := by
  have hw : Undisturbed h.world w := by
    refine ⟨hnow.ge, ?_, ?_, ?_⟩ <;> rw [hdb]
    exact fun s hs => hs
  refine ⟨List.suffix_cons _ _, hw.1, hw.2.1, fun r hr _ => hw.2.2.1 ▸ hr, fun hi => ⟨?_, ?_⟩⟩
  · rw [Hist.record_log, commits_cons_none hc]
    exact hi.claims.undisturbed hw
  · refine List.forall_mem_cons.mpr ⟨⟨fun _ => hdb, fun k hk => ?_⟩, hi.accounted⟩
    rw [hc] at hk
    cases hk

/-- A transaction that takes effect. -/
theorem commit {h : Hist backend Err World} (hi : SettlementInv h) {pid : ℕ}
    {existing : Option Id} {data : SettlementCreateData} {context : IdempotencyContext}
    {activity : ActivityEventInput} {expiresAt : Time} {s : SettlementRecord}
    {seen : Except Err SettlementRecord} {w : World} (hmay : MayClaim existing context h.world)
    (hnow : w.now = h.world.now)
    (heval : (claimAndSettle h.world.now existing data context activity expiresAt).eval h.world.db =
      .ok (s, w.db)) :
    SettlementRely h (h.record pid
      (.db (.settlement (.claimAndSettle existing data context activity expiresAt)))
      (.ok s) seen w) := by
  obtain ⟨-, hrow, event, _, -, hrecords, hdb⟩ := claimAndSettle_eq_ok heval
  rw [hrecords hi.claims.recordIds] at hdb
  -- The transaction puts one record and one row in, and drops the expired record of the key.
  refine ⟨List.suffix_cons _ _, hnow.ge, ?_, ?_, fun _ => ⟨?_, ?_⟩⟩
  · rw [Hist.record_world, hdb]
    exact Nat.le_add_right _ 3
  · rw [Hist.record_world, hdb]
    intro r hr hlt
    rcases List.mem_cons.mp hr with rfl | hr
    · exact absurd rfl hlt.ne
    · exact List.mem_of_mem_filter hr
  · rw [Hist.record_log, commits_cons_some rfl]
    exact hi.claims.commit hmay hnow heval
  · refine List.forall_mem_cons.mpr ⟨⟨fun hc => ?_, fun k hk => ?_⟩, hi.accounted⟩
    · cases hc
    · obtain rfl := Option.some.inj hk
      show w.db.settlements = s.row :: h.world.db.settlements ∧
        ∃ r ∈ w.db.idempotencyRecords, r.status = .completed ∧ Commit.Left _ r
      rw [hdb, hrow]
      exact ⟨rfl, _, List.mem_cons_self, rfl, rfl, rfl, rfl, rfl, rfl⟩

end SettlementRely

/-! ## What one call knows -/

/-- What a call has learnt of a record that it found: no other record ever takes the record's id,
and the transaction that left it is in the log. -/
structure Known (r : IdempotencyRecord) (h : Hist backend Err World) : Prop where
  id_lt : r.id < h.world.db.nextId
  unique : ∀ r' ∈ h.world.db.idempotencyRecords, r'.id = r.id → r' = r
  left : ∃ k ∈ commits h.log, k.Left r

/-- A record that is known stays known whatever the others do. -/
theorem Known.rely {r : IdempotencyRecord} {h h' : Hist backend Err World} (hr : Known r h)
    (hR : SettlementRely h h') : Known r h' where
  id_lt := lt_of_lt_of_le hr.id_lt hR.nextId
  unique r' hr' hid := hr.unique r' (hR.records r' hr' (hid ▸ hr.id_lt)) hid
  left := by
    obtain ⟨k, hk, hleft⟩ := hr.left
    exact ⟨k, hR.mem_commits hk, hleft⟩

/-- A call that has committed nothing and has met no unexpired record of another request. `last` is
the record that its last step found, if it found one. -/
structure Waiting (context : IdempotencyContext) (pid : ℕ) (last : Option IdempotencyRecord)
    (h : Hist backend Err World) : Prop where
  inv : SettlementInv h
  commits : commits (h.own pid) = []
  matching : ∀ c ∈ checks (h.own pid), ¬Mismatch context c.1 c.2
  last : (h.own pid).head?.bind found? = last

/-- A call that waits still waits whatever the others do. -/
theorem Waiting.rely {context : IdempotencyContext} {pid : ℕ} {last : Option IdempotencyRecord}
    {h h' : Hist backend Err World} (hw : Waiting context pid last h) (hR : SettlementRely h h')
    (hown : h'.own pid = h.own pid) : Waiting context pid last h' :=
  ⟨hR.inv hw.inv, hown ▸ hw.commits, hown ▸ hw.matching, hown ▸ hw.last⟩

/-- A call that waits still waits after a step that neither commits a transaction nor reads the
clock. -/
theorem Waiting.quiet {context : IdempotencyContext} {pid : ℕ}
    {last last' : Option IdempotencyRecord}
    {h : Hist backend Err World} (hw : Waiting context pid last h) {o : Op}
    {did seen : Except Err o.Res} {w : World} (hdb : w.db = h.world.db) (hnow : w.now = h.world.now)
    (hc : commit? ⟨pid, o, h.world, did, seen, w⟩ = none)
    (ht : clock? ⟨pid, o, h.world, did, seen, w⟩ = none)
    (hf : found? ⟨pid, o, h.world, did, seen, w⟩ = last') :
    Waiting context pid last' (h.record pid o did seen w) := by
  constructor
  case inv => exact (SettlementRely.quiet hdb hnow hc).inv hw.inv
  case commits =>
    rw [Hist.own_record_self, commits_cons_none hc]
    exact hw.commits
  case matching =>
    rw [Hist.own_record_self, checks_cons_none ht]
    exact hw.matching
  case last =>
    rw [Hist.own_record_self]
    exact hf

/-- A call that met an unexpired record of another user or another request has committed nothing. -/
def Refused (c : SettlementCall) (pid : ℕ) (h : Hist backend Err World) : Prop :=
  (∃ chk ∈ checks (h.own pid), Mismatch c.idempotency chk.1 chk.2) → commits (h.own pid) = []

/-- Where the settlement that a call returns comes from: a transaction with the call's key, user and
request hash, which is the call's own, or which left a record that the call found unexpired. -/
def Returned (context : IdempotencyContext) (pid : ℕ) (s : SettlementRecord)
    (h : Hist backend Err World) : Prop :=
  (∃ k ∈ commits h.log, k.For context ∧ k.settlement = s.row ∧
    (k.pid = pid ∨ ∃ chk ∈ checks (h.own pid), chk.1.For context ∧
      chk.1.resourceId = some s.id ∧ chk.2 < chk.1.expiresAt)) ∧
  ∀ chk ∈ checks (h.own pid), ¬Mismatch context chk.1 chk.2

/-- How the transaction of `createSettlement` ends: a call that may look at the record again has
committed nothing yet. -/
def Ended (context : IdempotencyContext) (pid : ℕ) :
    Except Err SettlementRecord → Hist backend Err World → Prop
  | .ok s, h => Returned context pid s h
  | .error e, h => e = .prisma .uniqueConstraint → Waiting context pid none h

/-! ## The steps of a call -/

section Steps

variable {lib : Lib} {c : SettlementCall} {pid : ℕ} {last : Option IdempotencyRecord}
  {x : Hist backend Err World}

/-- The discipline of a settlement call. -/
abbrev settlementDiscipline (lib : Lib) (c : SettlementCall) (pid : ℕ) :
    Discipline backend Err (Hist backend Err World) :=
  (settlementSystem lib).discipline SettlementRely (Refused c pid) pid

/-- The call reads the record of its key. -/
theorem findIdempotencyRecord_wp (hx : Waiting c.idempotency pid last x) {key : String}
    {Q : Except Err (Option IdempotencyRecord) → Hist backend Err World → Prop}
    (hok : ∀ r y, Waiting c.idempotency pid r y →
      (∀ r', r = some r' → r'.key = key ∧ r'.status = .completed ∧ Known r' y) → Q (.ok r) y)
    (herr : ∀ y, Waiting c.idempotency pid none y → Q (.error (.prisma .unavailable)) y) :
    wp (settlementDiscipline lib c pid) Q (SettlementRepository.findIdempotencyRecord key) x := by
  refine wp_perform.mpr ?_
  rintro x₁ ⟨hR, hown⟩ r y ⟨-, did, w, hans, rfl⟩
  have hx₁ := hx.rely hR hown
  obtain ⟨rfl, hr⟩ := answer_read rfl hans
  refine ⟨⟨.quiet rfl rfl rfl, fun _ => ?_⟩, ?_⟩
  · rw [Hist.own_record_self, commits_cons_none rfl]
    exact hx₁.commits
  -- The record that was found is completed and its settlement is known.
  rcases hr with ⟨ch, rfl⟩ | rfl
  · refine hok _ _ (hx₁.quiet rfl rfl rfl rfl ?_) ?_
    · cases x₁.world.db.idempotencyRecords.find? (·.key = key) <;> rfl
    · intro r hr
      have hmem := List.mem_of_find?_eq_some hr
      obtain ⟨hstatus, hleft⟩ := hx₁.inv.claims.origin r hmem
      exact ⟨by simpa using List.find?_some hr, hstatus, hx₁.inv.claims.recordIds r hmem,
        hx₁.inv.claims.distinct r hmem, hleft⟩
  · exact herr _ (hx₁.quiet rfl rfl rfl rfl rfl)

/-- The call reads the clock, and so checks the record that it has just found. -/
theorem newDate_wp (hx : Waiting c.idempotency pid last x)
    {Q : Except Err Time → Hist backend Err World → Prop}
    (hQ : ∀ y, SettlementRely x y → SettlementInv y → commits (y.own pid) = [] →
      (∀ r, last = some r → (r, y.world.now) ∈ checks (y.own pid)) →
      ((∀ r, last = some r → ¬Mismatch c.idempotency r y.world.now) →
        Waiting c.idempotency pid none y) → Q (.ok y.world.now) y) :
    wp (settlementDiscipline lib c pid) Q newDate x := by
  refine wp_perform.mpr ?_
  rintro x₁ ⟨hR, hown⟩ r y ⟨-, did, w, hans, rfl⟩
  have hx₁ := hx.rely hR hown
  -- The clock is read without failure.
  have hw : w = x₁.world ∧ r = .ok x₁.world.now := by
    rcases answer_cases hans with ⟨_, rfl, rfl, rfl | ⟨e, he, -⟩⟩ | ⟨-, e, he, -⟩
    · exact ⟨rfl, rfl⟩
    · cases he
    · cases he
  obtain ⟨rfl, rfl⟩ := hw
  have hR₁ : SettlementRely x₁ (x₁.record pid .now did (.ok x₁.world.now) x₁.world) :=
    .quiet rfl rfl rfl
  have hcommits : commits ((x₁.record pid .now did (.ok x₁.world.now) x₁.world).own pid) = [] := by
    rw [Hist.own_record_self, commits_cons_none rfl]
    exact hx₁.commits
  have hlast : ((x₁.record pid .now did (.ok x₁.world.now) x₁.world).own pid).head?.bind found? =
      none := by
    rw [Hist.own_record_self]
    rfl
  refine ⟨⟨hR₁, fun _ => hcommits⟩, hQ _ (hR.trans hR₁) (hR₁.inv hx₁.inv) hcommits ?_ ?_⟩
  · intro r hr
    rw [Hist.own_record_self, checks_cons_some rfl (hx₁.last.trans hr)]
    exact List.mem_cons_self
  · intro hr
    refine ⟨hR₁.inv hx₁.inv, hcommits, ?_, hlast⟩
    rw [Hist.own_record_self]
    -- The check of the record that was found, if there was one.
    cases last with
    | none =>
      rw [checks_cons_of_not_found hx₁.last]
      exact hx₁.matching
    | some r =>
      rw [checks_cons_some rfl hx₁.last]
      exact List.forall_mem_cons.mpr ⟨hr r rfl, hx₁.matching⟩

/-- The call commits, or tries to. -/
theorem claimAndSettle_wp (hx : Waiting c.idempotency pid last x) {existing : Option Id}
    {data : SettlementCreateData} {activity : ActivityEventInput} {expiresAt : Time}
    (hmay : ∀ y, SettlementRely x y → MayClaim existing c.idempotency y.world) :
    wp (settlementDiscipline lib c pid) (Ended c.idempotency pid)
      (SettlementRepository.claimAndSettle existing data c.idempotency activity expiresAt) x := by
  refine wp_perform.mpr ?_
  rintro x₁ ⟨hR, hown⟩ r y ⟨-, did, w, hans, rfl⟩
  have hx₁ := hx.rely hR hown
  have hnow : w.now = x₁.world.now := answer_now hans
  obtain ⟨-, hseen, ⟨e, rfl, hdb⟩ | ⟨ch, s, rfl, heval⟩⟩ := answer_write rfl hans
  · -- The transaction was aborted.
    have hw : Waiting c.idempotency pid none (x₁.record pid _ (.error e) r w) :=
      hx₁.quiet hdb hnow rfl rfl rfl
    refine ⟨⟨.quiet hdb hnow rfl, fun _ => hw.commits⟩, ?_⟩
    rcases hseen with rfl | rfl <;> exact fun _ => hw
  · -- The transaction took effect, whatever the call is told.
    have hR₁ : SettlementRely x₁ (x₁.record pid _ (.ok s) r w) :=
      .commit hx₁.inv (hmay x₁ hR) hnow heval
    have hmatching : ∀ chk ∈ checks ((x₁.record pid _ (.ok s) r w).own pid),
        ¬Mismatch c.idempotency chk.1 chk.2 := by
      rw [Hist.own_record_self, checks_cons_none rfl]
      exact hx₁.matching
    refine ⟨⟨hR₁, fun ⟨chk, hchk, hm⟩ => absurd hm (hmatching chk hchk)⟩, ?_⟩
    rcases hseen with rfl | rfl
    · exact ⟨⟨_, List.mem_cons_self, ⟨rfl, rfl, rfl⟩, rfl, .inl rfl⟩, hmatching⟩
    · rintro ⟨⟩

/-- The call answers with the settlement of a record that it found unexpired. -/
theorem replaySettlement_wp {r : IdempotencyRecord} {t : Time} (hinv : SettlementInv x)
    (hcommits : commits (x.own pid) = []) (hknown : Known r x)
    (hcheck : (r, t) ∈ checks (x.own pid)) (hr : r.For c.idempotency) (ht : t < r.expiresAt)
    (hmatching : ∀ chk ∈ checks (x.own pid), ¬Mismatch c.idempotency chk.1 chk.2) :
    wp (settlementDiscipline lib c pid) (Ended c.idempotency pid)
      (SettlementRepository.replaySettlement r) x := by
  unfold SettlementRepository.replaySettlement
  refine wp_expect_bind.mpr ⟨fun id hid => ?_, by rintro - ⟨⟩⟩
  refine wp_perform_bind.mpr ?_
  rintro x₁ ⟨hR, hown⟩ res y ⟨-, did, w, hans, rfl⟩
  obtain ⟨rfl, hres⟩ := answer_read rfl hans
  have hchecks : checks ((x₁.record pid (.db (.settlement (.findSettlementById id))) did res
      x₁.world).own pid) = checks (x.own pid) := by
    rw [Hist.own_record_self, checks_cons_none rfl, hown]
  refine ⟨⟨.quiet rfl rfl rfl, fun _ => ?_⟩, ?_⟩
  · rw [Hist.own_record_self, commits_cons_none rfl, hown]
    exact hcommits
  rcases hres with ⟨ch, rfl⟩ | rfl
  -- The row is the one of the commit that the record stands for.
  · refine wp_expect.mpr ⟨fun s hs => ?_, by rintro - ⟨⟩⟩
    obtain ⟨row, hfind, rfl⟩ := Option.map_eq_some_iff.mp hs
    have hmem : row ∈ x₁.world.db.settlements := List.mem_of_find?_eq_some hfind
    have hrow : row.id = id := by simpa using List.find?_some hfind
    obtain ⟨k, hk, hkey, huser, hhash, -, hresource⟩ := (hknown.rely hR).left
    have hkid : k.settlement.id = row.id := by
      rw [hrow]
      exact Option.some.inj (hresource.symm.trans hid)
    refine ⟨⟨k, ?_, ⟨hkey.trans hr.1, huser.trans hr.2.1, hhash.trans hr.2.2⟩,
      (hR.inv hinv).claims.rows row hmem k hk hkid, .inr ⟨(r, t), ?_, hr, ?_, ht⟩⟩, ?_⟩
    · rw [Hist.record_log, commits_cons_none rfl]
      exact hk
    · rw [hchecks]
      exact hcheck
    · rw [hid, ← hrow]
      rfl
    · rw [hchecks]
      exact hmatching
  · rintro ⟨⟩

/-! ## Whole calls -/

/-- A request that goes on. -/
theorem settle_wp (hx : Waiting c.idempotency pid none x) {existing : Option Id}
    (hmay : ∀ y, SettlementRely x y → MayClaim existing c.idempotency y.world) :
    wp (settlementDiscipline lib c pid) (Ended c.idempotency pid)
      (SettlementRepository.settle existing c.data c.idempotency c.activity) x := by
  refine wp_bind.mpr (newDate_wp hx fun y hR _ _ _ hw => ?_)
  exact claimAndSettle_wp (hw fun _ h => by cases h) fun z hz => hmay z (hR.trans hz)

/-- A record that its own request found unexpired. -/
theorem replay_wp {r : IdempotencyRecord} {y : Hist backend Err World} (hknown : Known r y)
    (hkey : r.key = c.idempotency.key) (hinv : SettlementInv y)
    (hcommits : commits (y.own pid) = [])
    (hcheck : (r, y.world.now) ∈ checks (y.own pid))
    (hw : ¬Mismatch c.idempotency r y.world.now → Waiting c.idempotency pid none y)
    (hrec : reconcileIdempotencyRecord r c.idempotency y.world.now = .ok .replay) :
    wp (settlementDiscipline lib c pid) (Ended c.idempotency pid)
      (SettlementRepository.replaySettlement r) y := by
  obtain ⟨huser, ht, hhash, -, -⟩ := reconcile_eq_replay.mp hrec
  have hmatch : ¬Mismatch c.idempotency r y.world.now := fun hm =>
    hm.2.elim (fun h => h huser) fun h => h hhash
  exact replaySettlement_wp hinv hcommits hknown hcheck ⟨hkey, huser, hhash⟩ ht (hw hmatch).matching

/-- The transaction. -/
theorem settleOnce_wp (hx : Waiting c.idempotency pid none x) :
    wp (settlementDiscipline lib c pid) (Ended c.idempotency pid)
      (SettlementRepository.settleOnce c.data c.idempotency c.activity) x := by
  refine wp_bind.mpr (findIdempotencyRecord_wp hx ?_ fun y _ => by rintro ⟨⟩)
  rintro (_ | r) x₁ hx₁ hfound
  · -- Nothing to delete.
    exact settle_wp hx₁ fun _ _ _ _ h => by cases h
  obtain ⟨hkey, -, hknown⟩ := hfound r rfl
  refine wp_bind.mpr (newDate_wp hx₁ fun y hR hinv hcommits hcheck hw => ?_)
  refine wp_ofExcept_bind.mpr ⟨?_, fun e he h => absurd h (reconcile_ne_uniqueConstraint he)⟩
  rintro (_ | _) hrec
  · exact replay_wp (hknown.rely hR) hkey hinv hcommits (hcheck r rfl)
      (fun hm => hw fun r' hr' => Option.some.inj hr' ▸ hm) hrec
  · -- The record has expired, and it is still the only one with its id when it is deleted.
    obtain ⟨huser, hexp⟩ := reconcile_eq_reuse.mp hrec
    refine settle_wp (hw fun r' hr' hm => ?_) fun z hz r' hr' hid => ?_
    · exact absurd hm.1 (Option.some.inj hr' ▸ not_lt.mpr hexp)
    · have hr := ((hknown.rely hR).rely hz).unique r' hr' (Option.some.inj hid).symm
      rw [hr]
      exact ⟨hkey, huser, le_trans hexp hz.now⟩

/-- The second look at the record, after another request claimed the key first. -/
theorem settleClash_wp (hx : Waiting c.idempotency pid none x) :
    wp (settlementDiscipline lib c pid) (Ended c.idempotency pid)
      (SettlementRepository.settleClash c.idempotency) x := by
  refine wp_bind.mpr (findIdempotencyRecord_wp hx ?_ fun y _ => by rintro ⟨⟩)
  rintro (_ | r) x₁ hx₁ hfound
  · rintro ⟨⟩
  obtain ⟨hkey, -, hknown⟩ := hfound r rfl
  refine wp_bind.mpr (newDate_wp hx₁ fun y hR hinv hcommits hcheck hw => ?_)
  refine wp_ofExcept_bind.mpr ⟨?_, fun e he h => absurd h (reconcile_ne_uniqueConstraint he)⟩
  rintro (_ | _) hrec
  · exact replay_wp (hknown.rely hR) hkey hinv hcommits (hcheck r rfl)
      (fun hm => hw fun r' hr' => Option.some.inj hr' ▸ hm) hrec
  · rintro ⟨⟩

/-- A call returns only what it may. -/
theorem createSettlement_wp (hinv : SettlementInv x) (hown : x.own pid = []) :
    wp (settlementDiscipline lib c pid)
      (fun r y => ∀ s, r = .ok s → Returned c.idempotency pid s y)
      (SettlementRepository.createSettlement c.data c.idempotency c.activity) x := by
  have hx : Waiting c.idempotency pid none x := by
    refine ⟨hinv, ?_, ?_, ?_⟩ <;> rw [hown]
    · rfl
    · exact fun _ h => absurd h List.not_mem_nil
    · rfl
  refine wp_tryCatch.mpr (wp_mono ?_ (settleOnce_wp hx))
  rintro (e | s) y hy
  · show wp _ _ (if e = .prisma .uniqueConstraint then _ else _) y
    split_ifs with he
    · refine wp_mono ?_ (settleClash_wp (hy he))
      rintro (_ | s') z hz s hs
      · cases hs
      · exact Except.ok.inj hs ▸ hz
    · rintro s ⟨⟩
  · rintro s' hs
    exact Except.ok.inj hs ▸ hy

end Steps

/-! ## Runs -/

/-- What the calls of a run are held to. -/
def settlementOutline (lib : Lib) : (settlementSystem lib).Outline SettlementRely Unclaimed where
  I := SettlementInv
  L pid c := Refused c pid
  Q pid c r h := ∀ s, r = .ok s → Returned c.idempotency pid s h
  refl := SettlementRely.refl
  trans := SettlementRely.trans
  init w hw := by
    obtain ⟨hrecords, hsettlements⟩ := hw
    have hnone : ∀ r, r ∉ w.db.idempotencyRecords := by simp [hrecords]
    exact ⟨⟨fun r hr => absurd hr (hnone r), fun r hr => absurd hr (hnone r),
      fun r hr => absurd hr (hnone r), by simp [commits], by simp [commits], hsettlements,
      by simp [commits], by simp [commits]⟩, by simp⟩
  inv _ _ hi hR := hR.inv hi
  env _ _ _ he := .env he
  begins pid c h _ hown := by
    rintro ⟨chk, hchk, -⟩
    rw [hown] at hchk
    cases hchk
  steps pid c h h' hL _ hown := by
    unfold Refused
    rw [hown]
    exact hL
  ends pid c r h h' hQ hR hown := by
    intro s hs
    obtain ⟨⟨k, hk, hrest⟩, hmatching⟩ := hQ s hs
    unfold Returned
    rw [hown]
    exact ⟨⟨k, hR.mem_commits hk, hrest⟩, hmatching⟩
  body pid c h hi _ hown := createSettlement_wp hi hown

/-- Settlements are idempotent, in every state that any calls side by side reach. While a record is
unexpired nothing else is committed for its key, and no other user ever claims the key; a call that
returns answers with the settlement of a record of its own key, user and request; a call that meets
an unexpired record of another user or request neither commits nor returns; and a step that commits
no transaction changes no table. -/
theorem settlement_idempotent {lib : Lib} {cfg : (settlementSystem lib).Config}
    (h : (settlementSystem lib).Reachable Unclaimed cfg) :
    ((commits cfg.hist.log).Pairwise fun later earlier => later.key = earlier.key →
      earlier.expiresAt ≤ later.committedAt ∧ later.userId = earlier.userId) ∧
    (∀ pid c s, cfg.procs[pid]? = some (c, .ret s) → ∃ k ∈ commits cfg.hist.log,
      k.For c.idempotency ∧ k.settlement = s.row ∧
        (k.pid = pid ∨ ∃ chk ∈ checks (cfg.hist.own pid), chk.1.For c.idempotency ∧
          chk.1.resourceId = some s.id ∧ chk.2 < chk.1.expiresAt)) ∧
    (∀ pid c p, cfg.procs[pid]? = some (c, p) → ∀ chk ∈ checks (cfg.hist.own pid),
      Mismatch c.idempotency chk.1 chk.2 → commits (cfg.hist.own pid) = [] ∧ ∀ s, p ≠ .ret s) ∧
    ∀ e ∈ cfg.hist.log, Accounted e := by
  have hinv := (settlementOutline lib).holds h
  refine ⟨hinv.claims.lifetimes, fun pid c s hp => ?_, fun pid c p hp chk hchk hm => ⟨?_, ?_⟩,
    hinv.accounted⟩
  · exact ((settlementOutline lib).returned h hp s rfl).1
  · exact (settlementOutline lib).started h hp ⟨chk, hchk, hm⟩
  · rintro s rfl
    exact ((settlementOutline lib).returned h hp s rfl).2 chk hchk hm

/-- Two members of a group. -/
def twoMembers : World where
  db :=
    { users := [⟨1, "A", "a@x.io", none, none⟩, ⟨2, "B", "b@x.io", none, none⟩]
      groups := [⟨10, "Trip", 1, 0, 0⟩]
      groupMembers := [⟨11, 10, 1, 0⟩, ⟨12, 10, 2, 0⟩]
      nextId := 20 }

/-- A settlement of user 1 with user 2 that is sent twice, and the key again from user 2. -/
def repeatedSettlement (userId : Id) : SettlementCall where
  data := ⟨10, 1, 2, 500, "USD", 0⟩
  idempotency := ⟨"key", userId, "hash"⟩
  activity := ⟨userId, .settlementAdded, "A paid B"⟩

/-- Two requests that both find the key unclaimed, and a third one of another user. -/
def overlappingSettlements : List (System.Action (settlementSystem .plain)) :=
  [.spawn (repeatedSettlement 1), .spawn (repeatedSettlement 1), .op 0 {}, .op 1 {}, .op 1 {},
    .op 0 {}, .op 0 {}, .op 1 {}, .op 1 {}, .op 1 {}, .op 1 {}, .spawn (repeatedSettlement 2),
    .op 2 {}, .op 2 {}]

/-- Two overlapping requests with one key are answered with one settlement, and another user's
request with the same key is not. -/
theorem settlement_idempotent_overlapping : ∃ cfg,
    (settlementSystem .plain).play overlappingSettlements
      ((settlementSystem .plain).start twoMembers) = some cfg ∧
    cfg.procs.map (fun p => p.2.result?.map (·.id)) = [some 21, some 21, none] ∧
    (checks (cfg.hist.own 2)).length = 1 ∧
    (commits cfg.hist.log).Pairwise (fun later earlier => later.key = earlier.key →
      earlier.expiresAt ≤ later.committedAt ∧ later.userId = earlier.userId) := by
  have hrun : ((settlementSystem .plain).play overlappingSettlements
      ((settlementSystem .plain).start twoMembers)).map (fun cfg =>
        (cfg.procs.map (fun p => p.2.result?.map (·.id)), (checks (cfg.hist.own 2)).length)) =
      some ([some 21, some 21, none], 1) := by decide
  obtain ⟨cfg, h, hcfg⟩ := Option.map_eq_some_iff.mp hrun
  have hreach : (settlementSystem .plain).Reachable Unclaimed cfg :=
    System.reachable_of_play (fun _ _ _ => trivial) (.start ⟨rfl, by simp [twoMembers]⟩) h
  obtain ⟨hids, hchecks⟩ := Prod.mk.inj hcfg
  exact ⟨cfg, h, hids, hchecks, (settlement_idempotent hreach).1⟩

end SplitBill
