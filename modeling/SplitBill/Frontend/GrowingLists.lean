import SplitBill.AppendOnly
import SplitBill.Audit
import SplitBill.Frontend.GroupLists

/-!
# Lists that grow while they are read

The activity feed of a group and the list of its settlements are read page by page, and between two
pages the members of the group go on working. Both tables only grow, as long as the group is there,
and both lists are sorted by a time and an id, so that the client may be shown an entry twice but
passes none by. A page and its total are two queries: a client that is told the total first, and the
page after the list has grown, may stop too early (`Overtaken`). Otherwise it ends up with
everything that was in the table when it began.
-/

namespace SplitBill

open Interleave

/-! ## The tables -/

/-- The order of the activity feed. -/
def activityListing : Listing ActivityEvent := ⟨(·.id), (·.groupId), (·.occurredAt)⟩

/-- The order of the list of settlements. -/
def settlementListing : Listing Settlement := ⟨(·.id), (·.groupId), (·.settledAt)⟩

/-- What the calls do to the two tables. -/
structure Appends (d d' : Db) : Prop where
  events : activityListing.Grows d.nextId d.activityEvents d'.nextId d'.activityEvents
  settlements : settlementListing.Grows d.nextId d.settlements d'.nextId d'.settlements

section Transactions

variable {d d' d'' : Db} {now : Time} {a : ActivityEventInput}

/-- Tables that stay as they are. -/
theorem Appends.of_eq (he : d'.activityEvents = d.activityEvents)
    (hs : d'.settlements = d.settlements) (hn : d.nextId ≤ d'.nextId) : Appends d d' := by
  constructor
  · rw [he]
    exact .of_eq hn
  · rw [hs]
    exact .of_eq hn

/-- Nothing is appended to the same tables. -/
theorem Appends.refl (d : Db) : Appends d d := .of_eq rfl rfl (le_refl _)

/-- What appends twice appends. -/
theorem Appends.trans (h : Appends d d') (h' : Appends d' d'') : Appends d d'' :=
  ⟨h.events.trans h'.events, h.settlements.trans h'.settlements⟩

/-- A transaction that appends to the two tables at most. -/
def AppendsOnly {α : Type} (t : Tx Db Err Metric α) : Prop := t.Within Appends

/-- Statements that only append. -/
theorem AppendsOnly.bind {α β : Type} {t : Tx Db Err Metric α} {f : α → Tx Db Err Metric β}
    (ht : AppendsOnly t) (hf : ∀ a, AppendsOnly (f a)) : AppendsOnly (t >>= f) :=
  Tx.Within.bind (R := Appends) Appends.trans ht hf

/-- An event comes on top of the table. -/
theorem createActivityEvent_appends (data : Prisma.ActivityEventData) :
    AppendsOnly (createActivityEvent now data) := by
  refine .bind (Tx.within_statement ?_) fun id =>
    .bind (Tx.within_note Appends.refl _) fun _ => Tx.within_pure Appends.refl id
  intro d id d' h
  simp only [Prisma.activityEventCreate, ite_error_eq_ok, Except.ok.injEq, Prod.mk.injEq] at h
  obtain ⟨-, -, rfl⟩ := h
  exact ⟨.cons rfl (Nat.lt_succ_self _), .of_eq (Nat.le_succ _)⟩

/-- The event with which a transaction ends. -/
theorem event_appends {β : Type} (data : Prisma.ActivityEventData) (b : β) :
    AppendsOnly (createActivityEvent now data >>= fun _ => (return b : Tx Db Err Metric β)) :=
  .bind (createActivityEvent_appends data) fun _ => Tx.within_pure Appends.refl b

/-- `createGroupWithOwner` only appends. -/
theorem createGroup_appends {ownerId : Id} {name : String} :
    AppendsOnly (createGroupWithOwner now ownerId name a) := by
  refine .bind (Tx.within_statement ?_) fun g =>
    .bind (Tx.within_statement ?_) fun _ => event_appends _ g
  · intro d g d' h
    obtain ⟨-, rfl⟩ := Prisma.groupCreate_eq_ok h
    exact .of_eq rfl rfl (Nat.le_succ _)
  · intro d m d' h
    obtain ⟨-, -, -, rfl⟩ := Prisma.groupMemberCreate_eq_ok h
    exact .of_eq rfl rfl (Nat.le_succ _)

/-- `updateGroupWithEvent` only appends. -/
theorem updateGroup_appends {id : Id} {name : String} :
    AppendsOnly (updateGroupWithEvent now id name a) := by
  refine .bind (Tx.within_statement ?_) fun g => event_appends _ g
  intro d g d' h
  obtain ⟨-, -, -, rfl⟩ := Prisma.groupUpdate_eq_ok h
  exact .of_eq rfl rfl (le_refl _)

/-- Of a deleted group nothing is left, and the lists of the others stay. -/
theorem deleteGroup_appends {id : Id} {r : Unit} (h : Prisma.groupDelete id d = .ok (r, d')) :
    Appends d d' := by
  obtain rfl := Prisma.groupDelete_eq_ok h
  exact ⟨.drop id, .drop id⟩

/-- `addGroupMemberWithEvent` only appends. -/
theorem addGroupMember_appends {groupId memberId : Id} :
    AppendsOnly (addGroupMemberWithEvent now groupId memberId a) := by
  refine .bind (Tx.within_statement ?_) fun m => event_appends _ m
  intro d m d' h
  obtain ⟨-, -, -, rfl⟩ := Prisma.groupMemberCreate_eq_ok h
  exact .of_eq rfl rfl (Nat.le_succ _)

/-- `removeGroupMemberWithEvent` only appends. -/
theorem removeGroupMember_appends {groupId memberId : Id} :
    AppendsOnly (removeGroupMemberWithEvent now groupId memberId a) := by
  refine .bind (Tx.within_statement ?_) fun _ => event_appends _ ()
  intro d m d' h
  obtain ⟨-, rfl⟩ := Prisma.groupMemberDelete_eq_ok h
  exact .of_eq rfl rfl (le_refl _)

/-- `createExpenseWithSplits` only appends to these tables. -/
theorem createExpense_appends {c : Choice} {data : Prisma.CreateExpenseData} :
    AppendsOnly (createExpenseWithSplits c now data a) := by
  refine .bind (Tx.within_including ?_) fun e => event_appends _ e
  intro d e d' h
  obtain ⟨-, -, rfl⟩ := Prisma.expenseCreate_eq_ok h
  exact .of_eq rfl rfl (Nat.le_add_right_of_le (Nat.le_succ _))

/-- `updateExpenseWithSplits` only appends to these tables. -/
theorem updateExpense_appends {c : Choice} {id : Id} {data : Prisma.UpdateExpenseData} :
    AppendsOnly (updateExpenseWithSplits c now id data a) := by
  refine .bind (Tx.within_including ?_) fun e => event_appends _ e
  intro d e d' h
  obtain ⟨-, -, -, -, -, rfl⟩ := Prisma.expenseUpdate_eq_ok h
  exact .of_eq rfl rfl (Nat.le_add_right _ _)

/-- `deleteExpenseWithEvent` only appends to these tables. -/
theorem deleteExpense_appends {id : Id} : AppendsOnly (deleteExpenseWithEvent now id a) := by
  refine .bind (Tx.within_statement ?_) fun _ => event_appends _ ()
  intro d e d' h
  obtain ⟨-, rfl⟩ := Prisma.expenseDelete_eq_ok h
  exact .of_eq rfl rfl (le_refl _)

/-- A settlement comes on top of its table, and its event on top of the other. -/
theorem settle_appends {existing : Option Id} {data : Prisma.SettlementCreateData}
    {context : IdempotencyContext} {expiresAt : Time} :
    AppendsOnly (claimAndSettle now existing data context a expiresAt) := by
  have hdelete : AppendsOnly (deleteExpired existing) := by
    intro d r d' h
    rw [eval_deleteExpired] at h
    obtain ⟨-, rfl⟩ := Prod.mk.inj (Except.ok.inj h)
    exact .of_eq rfl rfl (le_refl _)
  -- The statements of the transaction in their order: only the settlement and its event are new.
  refine .bind hdelete fun _ => .bind (Tx.within_statement ?_)
    fun claim => .bind (Tx.within_including ?_) fun s =>
      .bind (createActivityEvent_appends _) fun _ =>
        .bind (Tx.within_statement ?_) fun _ => Tx.within_pure Appends.refl s
  · intro d r d' h
    obtain ⟨-, -, rfl⟩ := Prisma.idempotencyRecordCreate_eq_ok h
    exact .of_eq rfl rfl (Nat.le_succ _)
  · intro d s d' h
    obtain ⟨-, rfl, rfl⟩ := Prisma.settlementCreate_eq_ok h
    exact ⟨.of_eq (Nat.le_succ _), .cons rfl (Nat.lt_succ_self _)⟩
  · intro d r d' h
    simp only [Prisma.idempotencyRecordUpdate, ite_error_eq_ok, Except.ok.injEq,
      Prod.mk.injEq] at h
    obtain ⟨-, -, rfl⟩ := h
    exact .of_eq rfl rfl (le_refl _)

/-- What each transaction of a call does to the two tables. -/
theorem appends_of_transaction {o : DbOp} (ho : Transaction o ∨ Removal o)
    {t : Choice → Time → Tx Db Err Metric o.Res} (ht : o.access = .write t) {c : Choice}
    {r : o.Res} (heval : (t c now).eval d = .ok (r, d')) : Appends d d' := by
  rcases ho with ho | ho <;> cases ho <;> obtain rfl := Access.write.inj ht
  case inl.createGroup => exact createGroup_appends _ _ _ heval
  case inl.updateGroup => exact updateGroup_appends _ _ _ heval
  case inl.deleteGroup => exact deleteGroup_appends heval
  case inl.addGroupMember => exact addGroupMember_appends _ _ _ heval
  case inl.createExpense => exact createExpense_appends _ _ _ heval
  case inl.updateExpense => exact updateExpense_appends _ _ _ heval
  case inl.deleteExpense => exact deleteExpense_appends _ _ _ heval
  case inl.settle => exact settle_appends _ _ _ heval
  case inr.removeGroupMember => exact removeGroupMember_appends _ _ _ heval

end Transactions

/-! ## The readers -/

/-- The first `_refresh` of the activity page and its calls of `_loadMore`, one after another as
long as there are more events, `fuel` requests at most: what the page has shown in the end. -/
def readFeed (requesterId groupId : Id) (limit : ℕ) : ℕ → ℕ → List ActivityEventRecord →
    Act (Option (List ActivityEventRecord))
  | 0, _, _ => return none
  | fuel + 1, page, shown => do
    let next ← ActivityService.getGroupActivity requesterId groupId page limit
    let events := shown ++ next.events
    -- `hasMore`
    if next.pagination.page * next.pagination.limit < next.pagination.total then
      readFeed requesterId groupId limit fuel (next.pagination.page + 1) events
    else return some events

/-- What a call leaves on the screen. -/
inductive OnScreen
  | nothing
  | feed (events : List ActivityEventRecord)
  | settlements (settlements : List SettlementDto)
  deriving DecidableEq

deriving instance DecidableEq for GroupCall, StoreCall

/-- The readers and the calls beside them. -/
inductive ListCall
  | feed (requesterId groupId : Id) (limit fuel : ℕ)
  | settlements (requesterId groupId : Id) (fuel : ℕ)
  | store (c : StoreCall)
  deriving DecidableEq

/-- The program of a call. -/
def ListCall.body (env : Env) (lib : Lib) : ListCall → Act OnScreen
  | feed requesterId groupId limit fuel => do
    let events ← readFeed requesterId groupId limit fuel 1 []
    return events.elim .nothing .feed
  | settlements requesterId groupId fuel => do
    let all ← Frontend.SettlementsRemoteDataSource.getGroupSettlements requesterId groupId fuel
    return all.elim .nothing .settlements
  | store c => do
    c.body env lib
    return .nothing

/-- Any number of readers beside any number of calls. -/
abbrev listSystem (lib : Lib) (env : Env) : System backend Err OnScreen World where
  machine := machine lib
  Call := ListCall
  body := ListCall.body env lib
  valid := fun _ => True
  env := fun w w' => Elsewhere w.db w'.db

instance (lib : Lib) (env : Env) : DecidablePred (listSystem lib env).valid :=
  fun _ => isTrue trivial

/-! ## What a reader has -/

section Reads

variable {α : Type} {t : Listing α} {table : Db → List α} {pid : ℕ} {groupId : Id}
  {shown : List Id} {k : ℕ} {h h' : Hist backend Err World}

/-- A reader with the first `k` places behind it: whatever stood in the table when it looked for
the first time has been shown, stands further down, or is gone. -/
structure Reads (t : Listing α) (table : Db → List α) (pid : ℕ) (groupId : Id) (shown : List Id)
    (k : ℕ) (h : Hist backend Err World) : Prop where
  drawn : t.Drawn h.world.db.nextId (table h.world.db)
  start : h.own pid = [] → k = 0
  covered : ∀ first, (h.own pid).getLast? = some first →
    (∀ a ∈ table first.pre.db, t.rowId a < h.world.db.nextId) ∧
    t.Covered groupId (table first.pre.db) (table h.world.db) shown k

/-- A reader that has been shown all that was in the table at its beginning and still is. -/
def Complete (t : Listing α) (table : Db → List α) (pid : ℕ) (groupId : Id) (shown : List Id)
    (h : Hist backend Err World) : Prop :=
  ∃ first, (h.own pid).getLast? = some first ∧
    (∀ a ∈ table first.pre.db, t.rowId a < h.world.db.nextId) ∧
    ∀ a ∈ table first.pre.db, t.group a = groupId → a ∈ table h.world.db → t.rowId a ∈ shown

/-- The last page of a reader was answered after its total, and the list had become longer. -/
def Overtaken (t : Listing α) (table : Db → List α) (count : DbOp) (groupId : Id)
    (own : List BackendEntry) : Prop :=
  ∃ page total rest, own = page :: total :: rest ∧ total.op = .db count ∧
    (t.rowsOf groupId (table total.pre.db)).length < (t.rowsOf groupId (table page.pre.db)).length

/-- The calls only add to a table. -/
def Tracks (t : Listing α) (table : Db → List α) : Prop :=
  ∀ d d', Appends d d' → t.Grows d.nextId (table d) d'.nextId (table d')

/-- What a call has read stays right while the table grows. -/
theorem Reads.later (hr : Reads t table pid groupId shown k h) (ht : Tracks t table)
    (hR : OnTables Appends h h') (hown : h'.own pid = h.own pid) :
    Reads t table pid groupId shown k h' := by
  have hgrows := ht _ _ hR
  refine ⟨hgrows.drawn hr.drawn, hown ▸ hr.start, fun first hfirst => ?_⟩
  rw [hown] at hfirst
  obtain ⟨hlt, hcovered⟩ := hr.covered first hfirst
  exact ⟨fun a ha => lt_of_lt_of_le (hlt a ha) hgrows.le, hcovered.later hlt hgrows⟩

/-- What a client has shown stays right while the table grows. -/
theorem Complete.later (hc : Complete t table pid groupId shown h) (ht : Tracks t table)
    (hR : OnTables Appends h h') (hown : h'.own pid = h.own pid) :
    Complete t table pid groupId shown h' := by
  obtain ⟨first, hfirst, hlt, hall⟩ := hc
  have hgrows := ht _ _ hR
  refine ⟨first, hown ▸ hfirst, fun a ha => lt_of_lt_of_le (hlt a ha) hgrows.le,
    fun a ha hg hmem => hall a ha hg ?_⟩
  exact (hgrows.fresh a hmem).resolve_right (hlt a ha).not_ge

/-- A query of the reader itself. -/
theorem Reads.record (hr : Reads t table pid groupId shown k h) (o : Op)
    (did seen : Except Err o.Res) :
    Reads t table pid groupId shown k (h.record pid o did seen h.world) := by
  refine ⟨hr.drawn, fun hnil => ?_, fun first hfirst => ?_⟩
  · rw [Hist.own_record_self] at hnil
    cases hnil
  · rw [Hist.own_record_self] at hfirst
    cases hown : h.own pid with
    | nil =>
      -- The first query of the reader: no place is behind it.
      rw [hown] at hfirst
      obtain rfl := Option.some.inj hfirst
      rw [hr.start hown]
      exact ⟨hr.drawn.lt, .zero⟩
    | cons e l =>
      refine hr.covered first ?_
      rw [hown] at hfirst ⊢
      exact (List.getLast?_cons_cons).symm.trans hfirst

/-- One more operation of a call leaves what the client has shown. -/
theorem Complete.record (hc : Complete t table pid groupId shown h) (o : Op)
    (did seen : Except Err o.Res) :
    Complete t table pid groupId shown (h.record pid o did seen h.world) := by
  obtain ⟨first, hfirst, hlt, hall⟩ := hc
  refine ⟨first, ?_, hlt, hall⟩
  rw [Hist.own_record_self, List.getLast?_cons, hfirst]
  rfl

/-- The rows on a page. -/
def Listing.pageOf (t : Listing α) (c : Choice) (rows : List α) (page limit : ℕ) : List α :=
  ((c.arrange t.rowId t.newer rows).drop ((page - 1) * limit)).take limit

/-- A page has what is left behind the places before it, and no more than it can hold. -/
theorem Listing.length_pageOf (t : Listing α) (c : Choice) (rows : List α) (page limit : ℕ) :
    (t.pageOf c rows page limit).length = min limit (rows.length - (page - 1) * limit) := by
  unfold Listing.pageOf
  rw [List.length_take, List.length_drop, (c.arrange_perm _ _ _).length_eq]

/-- A page that has been shown. -/
theorem Reads.page {page limit : ℕ} (hr : Reads t table pid groupId shown ((page - 1) * limit) h)
    (hpage : 1 ≤ page) (hown : h.own pid ≠ []) (c : Choice) :
    Reads t table pid groupId
      (shown ++ (t.pageOf c (t.rowsOf groupId (table h.world.db)) page limit).map t.rowId)
      (page * limit) h := by
  refine ⟨hr.drawn, fun hnil => absurd hnil hown, fun first hfirst => ?_⟩
  obtain ⟨hlt, hcovered⟩ := hr.covered first hfirst
  refine ⟨hlt, ?_⟩
  have hids : ((t.rowsOf groupId (table h.world.db)).map t.rowId).Nodup :=
    hr.drawn.nodup.sublist (List.filter_sublist.map _)
  have hnewer : ∀ a b, t.newer a b = true ↔
      newestKey (t.time a) (t.rowId a) < newestKey (t.time b) (t.rowId b) := fun a b => by
    rw [newestKey_lt, Listing.newer_iff]
  have hsorted := pairwise_before_arrange hnewer (fun a b => newestKey_inj) hids c
  have hnext : page * limit = (page - 1) * limit + limit := by
    rw [← Nat.succ_mul]
    congr
    omega
  rw [hnext]
  exact hcovered.page (c.arrange_perm _ _ _) hsorted

/-- A call that has performed an operation has begun. -/
theorem own_record_ne_nil (o : Op) (did seen : Except Err o.Res) :
    (h.record pid o did seen h.world).own pid ≠ [] := by
  rw [Hist.own_record_self]
  exact List.cons_ne_nil _ _

/-- A page that is shown when it is answered. -/
theorem Reads.recordPage {page limit : ℕ}
    (hr : Reads t table pid groupId shown ((page - 1) * limit) h) (hpage : 1 ≤ page) (c : Choice)
    (o : Op) (did seen : Except Err o.Res) :
    Reads t table pid groupId
      (shown ++ (t.pageOf c (t.rowsOf groupId (table h.world.db)) page limit).map t.rowId)
      (page * limit) (h.record pid o did seen h.world) :=
  (hr.record o did seen).page hpage (own_record_ne_nil o did seen) c

/-- The last page. -/
theorem Reads.complete (hr : Reads t table pid groupId shown k h) (hown : h.own pid ≠ [])
    (hk : (t.rowsOf groupId (table h.world.db)).length ≤ k) :
    Complete t table pid groupId shown h := by
  obtain ⟨first, hfirst⟩ := Option.ne_none_iff_exists'.mp (mt List.getLast?_eq_none_iff.mp hown)
  obtain ⟨hlt, hcovered⟩ := hr.covered first hfirst
  exact ⟨first, hfirst, hlt, hcovered.all hk⟩

variable {lib : Lib} {env : Env} {o : DbOp} {f : Choice → Db → o.Res}

/-- A query, in the world in which it is answered. -/
theorem query_wp (ho : o.access = .read f) {Q : Except Err o.Res → Hist backend Err World → Prop}
    (hok : ∀ x did c, OnTables Appends h x → x.own pid = h.own pid →
      Q (.ok (f c x.world.db)) (x.record pid (.db o) did (.ok (f c x.world.db)) x.world))
    (herr : ∀ e y, Q (.error e) y) :
    wp ((listSystem lib env).discipline (OnTables Appends) (fun _ => True) pid) Q
      (Op.perform (.db o)) h := by
  refine wp_perform.mpr fun x hx r y hans => ?_
  obtain ⟨-, did, w, hans, rfl⟩ := hans
  obtain ⟨rfl, hseen⟩ := answer_read ho hans
  refine ⟨⟨Appends.refl _, trivial⟩, ?_⟩
  rcases hseen with ⟨c, rfl⟩ | rfl
  · exact hok x did c hx.1 hx.2
  · exact herr _ _

/-- The choice between two queries. -/
theorem race_wp {Q : Except Err Bool → Hist backend Err World → Prop}
    (hok : ∀ x did first, OnTables Appends h x → x.own pid = h.own pid →
      Q (.ok first) (x.record pid .race did (.ok first) x.world)) :
    wp ((listSystem lib env).discipline (OnTables Appends) (fun _ => True) pid) Q
      (Op.perform .race) h := by
  refine wp_perform.mpr fun x hx r y hans => ?_
  obtain ⟨-, did, w, hans, rfl⟩ := hans
  obtain ⟨first, -, rfl⟩ := answer_of_fault_none rfl hans
  have hw : w = x.world := by
    rcases answer_cases hans with ⟨c, -, hw, -⟩ | ⟨hw, -⟩
    · exact hw
    · exact hw
  subst hw
  exact ⟨⟨Appends.refl _, trivial⟩, hok x did first hx.1 hx.2⟩

/-- A reader's query. -/
theorem read_wp (ht : Tracks t table) (ho : o.access = .read f)
    (hr : Reads t table pid groupId shown k h)
    {Q : Except Err o.Res → Hist backend Err World → Prop}
    (hok : ∀ c y, Reads t table pid groupId shown k y → Q (.ok (f c y.world.db)) y)
    (herr : ∀ e y, Q (.error e) y) :
    wp ((listSystem lib env).discipline (OnTables Appends) (fun _ => True) pid) Q
      (Op.perform (.db o)) h :=
  query_wp ho (fun _ _ c hR hown => hok c _ ((hr.later ht hR hown).record _ _ _)) herr

/-- A page and its total, by two queries. Where the page is not full or the total says that nothing
is behind it, the reader has been shown everything or was overtaken. -/
theorem pageAndTotal_wp {page limit : ℕ} (o count : DbOp) {f : Choice → Db → o.Res}
    {f' : Choice → Db → count.Res} (ids : o.Res → List Id) (number : count.Res → ℕ)
    (ht : Tracks t table) (ho : o.access = .read f) (hcount : count.access = .read f')
    (hids : ∀ c d, ids (f c d) = (t.pageOf c (t.rowsOf groupId (table d)) page limit).map t.rowId)
    (hnumber : ∀ c d, number (f' c d) = (t.rowsOf groupId (table d)).length) (hpage : 1 ≤ page)
    (hr : Reads t table pid groupId shown ((page - 1) * limit) h)
    {Q : Except Err (o.Res × count.Res) → Hist backend Err World → Prop}
    (hok : ∀ c c' d d' y, Reads t table pid groupId (shown ++ ids (f c d)) (page * limit) y →
      (ids (f c d)).length ≤ limit →
      ((ids (f c d)).length < limit ∨ number (f' c' d') ≤ page * limit →
        Overtaken t table count groupId (y.own pid) ∨
          Complete t table pid groupId (shown ++ ids (f c d)) y) →
      Q (.ok (f c d, f' c' d')) y)
    (herr : ∀ e y, Q (.error e) y) :
    wp ((listSystem lib env).discipline (OnTables Appends) (fun _ => True) pid) Q
      (promiseAll (Op.perform (.db o)) (Op.perform (.db count))) h := by
  have hnext : page * limit = (page - 1) * limit + limit := by
    rw [← Nat.succ_mul]
    congr
    omega
  have hlength : ∀ c d, (ids (f c d)).length ≤ limit := by
    intro c d
    rw [hids, List.length_map, Listing.length_pageOf]
    exact min_le_left _ _
  -- A page that is not full ends the list.
  have hshort : ∀ c d, (ids (f c d)).length < limit →
      (t.rowsOf groupId (table d)).length ≤ page * limit := by
    intro c d hlt
    rw [hids, List.length_map, Listing.length_pageOf] at hlt
    omega
  refine wp_bind.mpr (race_wp fun x₀ did₀ first hR₀ hown₀ => ?_)
  have hr₀ := (hr.later ht hR₀ hown₀).record .race did₀ (.ok first)
  cases first with
  | true =>
    refine wp_bind.mpr (query_wp ho (fun x₁ did₁ c hR₁ hown₁ => ?_) herr)
    have hr₁ := (hr₀.later ht hR₁ hown₁).recordPage hpage c (.db o) did₁ (.ok (f c x₁.world.db))
    rw [← hids c] at hr₁
    refine wp_bind.mpr (query_wp hcount (fun x₂ did₂ c' hR₂ hown₂ => ?_) herr)
    have hr₂ := (hr₁.later ht hR₂ hown₂).record (.db count) did₂ (.ok (f' c' x₂.world.db))
    refine hok c c' _ _ _ hr₂ (hlength c _) ?_
    rintro (hlt | hle)
    · -- The page ended the list when it was answered.
      have hcomplete := hr₁.complete (own_record_ne_nil _ _ _) (hshort c _ hlt)
      exact .inr ((hcomplete.later ht hR₂ hown₂).record _ _ _)
    · -- The total tells how long the list is now.
      rw [hnumber] at hle
      exact .inr (hr₂.complete (own_record_ne_nil _ _ _) hle)
  | false =>
    refine wp_bind.mpr (query_wp hcount (fun x₁ did₁ c' hR₁ hown₁ => ?_) herr)
    have hr₁ := (hr₀.later ht hR₁ hown₁).record (.db count) did₁ (.ok (f' c' x₁.world.db))
    refine wp_bind.mpr (query_wp ho (fun x₂ did₂ c hR₂ hown₂ => ?_) herr)
    have hr₂ := (hr₁.later ht hR₂ hown₂).recordPage hpage c (.db o) did₂ (.ok (f c x₂.world.db))
    rw [← hids c] at hr₂
    refine hok c c' _ _ _ hr₂ (hlength c _) fun hend => ?_
    by_cases hmore : (t.rowsOf groupId (table x₁.world.db)).length <
        (t.rowsOf groupId (table x₂.world.db)).length
    · left
      rw [Hist.own_record_self, hown₂, Hist.own_record_self]
      exact ⟨_, _, _, rfl, rfl, hmore⟩
    · -- No row has come since the total was answered.
      right
      refine hr₂.complete (own_record_ne_nil _ _ _) ?_
      rcases hend with hlt | hle
      · exact hshort c _ hlt
      · rw [hnumber] at hle
        exact (not_lt.mp hmore).trans hle

end Reads

/-! ## The loops -/

section Loops

variable {lib : Lib} {env : Env} {pid : ℕ} {requesterId groupId : Id} {shown : List Id} {k : ℕ}
  {h : Hist backend Err World}

/-- The feed is a list that only grows. -/
theorem tracks_events : Tracks activityListing Db.activityEvents := fun _ _ hR => hR.events

/-- The settlements are a list that only grows. -/
theorem tracks_settlements : Tracks settlementListing Db.settlements :=
  fun _ _ hR => hR.settlements

/-- What a reader of the feed has shown when it is done: everything, or it was overtaken. -/
def FeedDone (pid : ℕ) (groupId : Id) (ids : List Id) (h : Hist backend Err World) : Prop :=
  Overtaken activityListing Db.activityEvents (.activity (.count groupId)) groupId (h.own pid) ∨
    Complete activityListing Db.activityEvents pid groupId ids h

/-- What a reader of the settlements has when it is done: everything, or it was overtaken. -/
def SettlementsDone (pid : ℕ) (groupId : Id) (ids : List Id) (h : Hist backend Err World) : Prop :=
  Overtaken settlementListing Db.settlements (.settlement (.count groupId)) groupId (h.own pid) ∨
    Complete settlementListing Db.settlements pid groupId ids h

/-- A page of the feed. -/
theorem getGroupActivity_page_wp {page limit : ℕ} (hpage : 1 ≤ page)
    {Q : Except Err ActivityFeedPage → Hist backend Err World → Prop}
    (hr : Reads activityListing Db.activityEvents pid groupId shown ((page - 1) * limit) h)
    (hok : ∀ (events : List ActivityEventRecord) (total : ℕ) y,
      Reads activityListing Db.activityEvents pid groupId
        (shown ++ (events.map ActivityService.toDto).map (·.event.id)) (page * limit) y →
      (total ≤ page * limit → FeedDone pid groupId
        (shown ++ (events.map ActivityService.toDto).map (·.event.id)) y) →
      Q (.ok ⟨events.map ActivityService.toDto, ⟨page, limit, total⟩⟩) y)
    (herr : ∀ e y, Q (.error e) y) :
    wp ((listSystem lib env).discipline (OnTables Appends) (fun _ => True) pid) Q
      (ActivityService.getGroupActivity requesterId groupId page limit) h := by
  unfold ActivityService.getGroupActivity
  refine wp_bind.mpr (read_wp tracks_events rfl hr (fun _ x hx => ?_) herr)
  refine wp_expect_bind.mpr ⟨fun _ _ => ?_, fun _ => herr _ _⟩
  refine wp_bind.mpr (read_wp tracks_events rfl hx (fun _ y hy => ?_) herr)
  refine wp_ensure_bind.mpr ⟨fun _ => ?_, fun _ => herr _ _⟩
  -- The guards have read only, and the two queries are those of the page.
  refine wp_bind.mpr (pageAndTotal_wp (.activity (.findMany groupId page limit))
    (.activity (.count groupId))
    (fun events : List ActivityEventRecord => (events.map ActivityService.toDto).map (·.event.id))
    (id : ℕ → ℕ) tracks_events rfl rfl (fun c d => ?_) (fun _ _ => rfl) hpage hy
    (fun c c' d d' z hz _ hdone => ?_) herr)
  · rw [List.map_map]
    exact List.map_map
  · exact hok _ _ z hz fun hle => hdone (.inr hle)

/-- A page of the settlements. -/
theorem getGroupSettlements_page_reads {query : PaginationQuery} {page limit : ℕ}
    (hpage : 1 ≤ page) {Q : Except Err SettlementListPage → Hist backend Err World → Prop}
    (hquery : query.pagination = some (page, limit))
    (hr : Reads settlementListing Db.settlements pid groupId shown ((page - 1) * limit) h)
    (hok : ∀ (settlements : List SettlementRecord) (total : ℕ) y,
      Reads settlementListing Db.settlements pid groupId
        (shown ++ (settlements.map SettlementService.toDto).map (·.id)) (page * limit) y →
      settlements.length ≤ limit →
      (settlements.length < limit ∨ total ≤ page * limit → SettlementsDone pid groupId
        (shown ++ (settlements.map SettlementService.toDto).map (·.id)) y) →
      Q (.ok ⟨settlements.map SettlementService.toDto, some ⟨page, limit, total⟩⟩) y)
    (herr : ∀ e y, Q (.error e) y) :
    wp ((listSystem lib env).discipline (OnTables Appends) (fun _ => True) pid) Q
      (SettlementController.getGroupSettlements requesterId groupId query) h := by
  unfold SettlementController.getGroupSettlements SettlementService.getGroupSettlements
    SettlementService.assertMemberOfGroup
  rw [hquery]
  -- The guards read only, and the two queries of the page are the listing's.
  refine wp_bind.mpr (read_wp tracks_settlements rfl hr (fun _ x hx => ?_) herr)
  refine wp_expect_bind.mpr ⟨fun _ _ => ?_, fun _ => herr _ _⟩
  refine wp_bind.mpr (wp_bind.mpr ?_)
  refine read_wp tracks_settlements rfl hx (fun _ y hy => ?_) herr
  refine wp_ensure.mpr ⟨fun _ => ?_, fun _ => herr _ _⟩
  refine wp_bind.mpr (wp_bind.mpr (pageAndTotal_wp
    (.settlement (.findMany groupId (some (page, limit)))) (.settlement (.count groupId))
    (fun settlements : List SettlementRecord =>
      (settlements.map SettlementService.toDto).map (·.id))
    (id : ℕ → ℕ) tracks_settlements rfl rfl (fun c d => ?_) (fun _ _ => rfl) hpage hy
    (fun c c' d d' z hz hlength hdone => ?_) herr))
  · rw [List.map_map]
    exact List.map_map
  · rw [List.length_map, List.length_map] at hlength hdone
    exact hok _ _ z hz hlength hdone

/-- The activity page ends up with everything that it found at its beginning and that is left, or it
was overtaken. -/
theorem readFeed_wp {limit fuel page : ℕ} {events : List ActivityEventRecord} (hpage : 1 ≤ page)
    (hr : Reads activityListing Db.activityEvents pid groupId (events.map (·.event.id))
      ((page - 1) * limit) h) :
    wp ((listSystem lib env).discipline (OnTables Appends) (fun _ => True) pid)
      (fun r y => ∀ l, r = .ok (some l) → FeedDone pid groupId (l.map (·.event.id)) y)
      (readFeed requesterId groupId limit fuel page events) h := by
  induction fuel generalizing page events h with
  | zero =>
    rintro l ⟨⟩
  | succ fuel ih =>
    unfold readFeed
    refine wp_bind.mpr (getGroupActivity_page_wp hpage hr (fun next total y hy hdone => ?_)
      fun e y l hl => ?_)
    · rw [← List.map_append] at hy hdone
      show wp _ _ (ite _ _ _) y
      -- There is another page, or the page says that it was the last one.
      split
      · exact ih (Nat.le_add_left 1 page) hy
      · next hlast =>
        intro l hl
        obtain rfl := Option.some.inj (Except.ok.inj hl)
        exact hdone (not_lt.mp hlast)
    · cases hl

/-- One turn of the loop, if the response has a total. -/
theorem fetchAll_turn_wp {α X : Type} {D : Discipline backend Err X}
    {fetch : ℕ+ → Act (ListResponse α)} {Q : Except Err (Option (List α)) → X → Prop} {fuel : ℕ}
    {page : ℕ+} {all : List α} {x : X}
    (hfetch : wp D (fun r y => (∃ e, r = .error e ∧ Q (.error e) y) ∨
      ∃ (items : List α) (total : ℕ), r = .ok ⟨items, some (some (total : ℤ))⟩ ∧
        (items.length < pageSize ∨ total ≤ (all ++ items).length →
          Q (.ok (some (all ++ items))) y) ∧
        (¬(items.length < pageSize ∨ total ≤ (all ++ items).length) →
          wp D Q (fetchAll fetch fuel (page + 1) (all ++ items)) y)) (fetch page) x) :
    wp D Q (fetchAll fetch (fuel + 1) page all) x := by
  unfold fetchAll
  refine wp_bind.mpr (wp_mono ?_ hfetch)
  rintro r y (⟨e, rfl, he⟩ | ⟨items, total, rfl, hlast, hmore⟩)
  · exact he
  -- The total of the answer is compared as an integer.
  · have hiff : (items.length < pageSize ∨
        (some (total : ℤ)).any (fun n => n ≤ ((all ++ items).length : ℤ)) = true) ↔
          (items.length < pageSize ∨ total ≤ (all ++ items).length) := by
      rw [Option.any_some, decide_eq_true_eq, Nat.cast_le]
    show wp D Q (ite _ _ _) y
    split
    · next h => exact hlast (hiff.mp h)
    · next h => exact hmore (mt hiff.mpr h)

/-- So does the loop that reads the settlements. -/
theorem getGroupSettlements_reads {fuel : ℕ} {page : ℕ+} {all : List SettlementDto}
    {fetch : ℕ+ → Act (ListResponse SettlementDto)}
    (hfetch : fetch = fun page => do
      let decoded ← SettlementController.getGroupSettlements requesterId groupId
        (Frontend.pageQuery page)
      return ⟨decoded.settlements, decoded.pagination.map fun p => some (p.total : ℤ)⟩)
    (hlength : all.length ≤ ((page : ℕ) - 1) * pageSize)
    (hr : Reads settlementListing Db.settlements pid groupId (all.map (·.id))
      (((page : ℕ) - 1) * pageSize) h) :
    wp ((listSystem lib env).discipline (OnTables Appends) (fun _ => True) pid)
      (fun r y => ∀ l, r = .ok (some l) → SettlementsDone pid groupId (l.map (·.id)) y)
      (fetchAll fetch fuel page all) h := by
  induction fuel generalizing page all h with
  | zero =>
    rintro l ⟨⟩
  | succ fuel ih =>
    apply fetchAll_turn_wp
    rw [hfetch]
    have hquery : (Frontend.pageQuery page).pagination = some ((page : ℕ), pageSize) := rfl
    refine wp_bind.mpr (getGroupSettlements_page_reads page.pos hquery hr
      (fun settlements total y hy hfull hdone => ?_) fun e y =>
        .inl ⟨e, rfl, fun l hl => by cases hl⟩)
    refine .inr ⟨settlements.map SettlementService.toDto, total, rfl, ?_⟩
    rw [← List.map_append] at hy hdone
    rw [List.length_append, List.length_map]
    have hpages : (page : ℕ) * pageSize = ((page : ℕ) - 1) * pageSize + pageSize := by
      rw [← Nat.succ_mul]
      congr
      exact (Nat.sub_add_cancel page.pos).symm
    constructor
    · intro hlast l hl
      obtain rfl := Option.some.inj (Except.ok.inj hl)
      -- No more rows have been read than the pages hold.
      exact hdone (hlast.imp_right fun hle => by omega)
    · intro hmore
      have hpage : ((page + 1 : ℕ+) : ℕ) - 1 = page := by
        rw [PNat.add_coe, PNat.one_coe, Nat.add_sub_cancel]
      rw [← hfetch]
      apply ih
      · rw [hpage, List.length_append, List.length_map]
        omega
      · rw [hpage]
        exact hy

end Loops

/-! ## The runs -/

section Runs

variable {lib : Lib} {env : Env}

/-- The ids of both tables are drawn ones, each of one row. -/
def DrawnRecords (d : Db) : Prop :=
  activityListing.Drawn d.nextId d.activityEvents ∧ settlementListing.Drawn d.nextId d.settlements

/-- How a reader is done. -/
def ListEnd (pid : ℕ) (r : Except Err OnScreen) (h : Hist backend Err World) : ListCall → Prop
  | .feed _ groupId _ _ => ∀ l, r = .ok (.feed l) → FeedDone pid groupId (l.map (·.event.id)) h
  | .settlements _ groupId _ => ∀ l, r = .ok (.settlements l) →
    SettlementsDone pid groupId (l.map (·.id)) h
  | .store _ => True

/-- A call that reads a list is done with all of it. -/
theorem listCall_wp {pid : ℕ} {h : Hist backend Err World} (hdrawn : DrawnRecords h.world.db)
    (hown : h.own pid = []) (c : ListCall) :
    wp ((listSystem lib env).discipline (OnTables Appends) (fun _ => True) pid)
      (fun r y => ListEnd pid r y c) (c.body env lib) h := by
  -- A call has issued nothing yet, and its first page starts at the first row.
  have hstart : ∀ {α : Type} {t : Listing α} {table : Db → List α} (groupId : Id),
      t.Drawn h.world.db.nextId (table h.world.db) →
      Reads t table pid groupId [] ((1 - 1) * pageSize) h := by
    intro α t table groupId hd
    refine ⟨hd, fun _ => Nat.zero_mul _, fun first hfirst => ?_⟩
    rw [hown] at hfirst
    cases hfirst
  cases c with
  | feed requesterId groupId limit fuel =>
    have hr : Reads activityListing Db.activityEvents pid groupId [] ((1 - 1) * limit) h := by
      have h₀ := hstart groupId hdrawn.1
      rw [Nat.zero_mul] at h₀ ⊢
      exact h₀
    refine wp_bind.mpr (wp_mono ?_ (readFeed_wp (le_refl 1) hr))
    rintro (e | _ | events) y hy
    · exact fun l hl => by cases hl
    · exact fun l hl => by cases hl
    · intro l hl
      obtain rfl := OnScreen.feed.inj (Except.ok.inj hl)
      exact hy _ rfl
  | settlements requesterId groupId fuel =>
    refine wp_bind.mpr (wp_mono ?_ (getGroupSettlements_reads rfl (Nat.zero_le _)
      (hstart groupId hdrawn.2)))
    rintro (e | _ | all) y hy
    · exact fun l hl => by cases hl
    · exact fun l hl => by cases hl
    · intro l hl
      obtain rfl := OnScreen.settlements.inj (Except.ok.inj hl)
      exact hy _ rfl
  | store c =>
    have hs : Stable lib ((listSystem lib env).discipline (OnTables Appends) (fun _ => True) pid)
        (fun h => h.world.db) (fun _ => True) False :=
      stable_relation rfl Appends.refl (J := fun _ => True) (fun _ _ _ _ => trivial) pid
    refine wp_mono (fun _ _ _ => trivial) (hs.run (T := fun o => Transaction o ∨ Removal o) ?_
      (.bind (storeCall_issues c) fun _ => Prog.issues_ret _ _) trivial)
    exact fun o ho t ht x y c now r _ heval =>
      ⟨⟨appends_of_transaction ho ht heval, trivial⟩, trivial⟩

/-- A reader that is done and was not overtaken has shown every row of the group that was in the
table when it looked for the first time and that is still there, whatever has been written in
between. -/
theorem growing_lists_complete {cfg : (listSystem lib env).Config}
    (hr : (listSystem lib env).Reachable (fun w => DrawnRecords w.db) cfg) {pid : ℕ}
    {requesterId groupId : Id} {limit fuel : ℕ} :
    (∀ events, cfg.procs[pid]? =
        some (.feed requesterId groupId limit fuel, .ret (.feed events)) →
      ¬Overtaken activityListing Db.activityEvents (.activity (.count groupId)) groupId
        (cfg.hist.own pid) →
      ∃ first, (cfg.hist.own pid).getLast? = some first ∧
        ∀ e ∈ first.pre.db.activityEvents, e.groupId = groupId →
          e ∈ cfg.hist.world.db.activityEvents → e.id ∈ events.map (·.event.id)) ∧
    (∀ settlements, cfg.procs[pid]? =
        some (.settlements requesterId groupId fuel, .ret (.settlements settlements)) →
      ¬Overtaken settlementListing Db.settlements (.settlement (.count groupId)) groupId
        (cfg.hist.own pid) →
      ∃ first, (cfg.hist.own pid).getLast? = some first ∧
        ∀ s ∈ first.pre.db.settlements, s.groupId = groupId →
          s ∈ cfg.hist.world.db.settlements → s.id ∈ settlements.map (·.id)) := by
  -- What the others do only appends, and that is all a reader relies on.
  let out : (listSystem lib env).Outline (OnTables Appends) fun w => DrawnRecords w.db :=
    { I := fun h => DrawnRecords h.world.db
      Q := fun pid c r h => ListEnd pid r h c
      refl := fun h => Appends.refl _
      trans := Appends.trans
      init := fun _ hw => hw
      inv := fun _ _ hI hR => ⟨hR.events.drawn hI.1, hR.settlements.drawn hI.2⟩
      env := fun h w _ he => .of_eq he.events he.settlements he.nextId
      begins := fun _ _ _ _ _ => trivial
      steps := fun _ _ _ _ _ _ _ => trivial
      ends := by
        rintro pid c r h h' hq hR hown
        cases c with
        | feed => exact fun l hl => (hq l hl).imp (hown ▸ ·) (·.later tracks_events hR hown)
        | settlements =>
          exact fun l hl => (hq l hl).imp (hown ▸ ·) (·.later tracks_settlements hR hown)
        | store => trivial
      body := fun pid c h hI _ hown => listCall_wp hI hown c }
  refine ⟨fun events hp hno => ?_, fun settlements hp hno => ?_⟩
  · obtain ⟨first, hfirst, -, hall⟩ := (out.returned hr hp events rfl).resolve_left hno
    exact ⟨first, hfirst, hall⟩
  · obtain ⟨first, hfirst, -, hall⟩ := (out.returned hr hp settlements rfl).resolve_left hno
    exact ⟨first, hfirst, hall⟩

end Runs

/-- What is on the screen: a number for the list, and the ids of its rows. -/
def OnScreen.ids : OnScreen → List Id
  | nothing => [0]
  | feed events => 1 :: events.map (·.event.id)
  | settlements all => 2 :: all.map (·.id)

/-- A group with three events and a settlement, at a later time. -/
def writtenGroup : World where
  db :=
    { users := [⟨1, "A", "a@x.io", none, none⟩]
      groups := [⟨10, "Trip", 1, 0, 0⟩]
      groupMembers := [⟨11, 10, 1, 0⟩]
      settlements := [⟨12, 10, 1, 1, 500, "PKR", 0, 0, 0⟩]
      activityEvents :=
        [⟨13, 10, 1, .groupCreated, "created the group", none, none, 0, 0⟩,
          ⟨14, 10, 1, .memberAdded, "added A", none, none, 0, 0⟩,
          ⟨15, 10, 1, .settlementAdded, "settled up", none, none, 0, 0⟩]
      nextId := 20 }
  now := 5

/-- The group is renamed between the two pages of its feed. -/
def renamedBetweenPages : List (System.Action (listSystem .plain {})) :=
  List.flatten [[.spawn (.feed 1 10 2 3), .spawn (.store (.group (.updateGroup 1 10 "Rome"))),
      .spawn (.settlements 1 10 3)],
    System.turns _ 0 {} 5, System.turns _ 1 {} 3, System.turns _ 2 {} 5, System.turns _ 0 {} 5]

/-- How long the list of a group was at the last two queries of a reader. -/
def lengths {α : Type} (t : Listing α) (table : Db → List α) (groupId : Id)
    (own : List BackendEntry) : List ℕ :=
  (own.take 2).map fun e => (t.rowsOf groupId (table e.pre.db)).length

/-- A list that is as long at both queries has overtaken nobody. -/
theorem not_overtaken_of_lengths {α : Type} {t : Listing α} {table : Db → List α} {count : DbOp}
    {groupId : Id} {own : List BackendEntry} {n : ℕ}
    (h : lengths t table groupId own = [n, n]) : ¬Overtaken t table count groupId own := by
  rintro ⟨page, total, rest, rfl, -, hlt⟩
  obtain ⟨hpage, htotal⟩ := List.cons.inj h
  have hsame : (t.rowsOf groupId (table total.pre.db)).length =
      (t.rowsOf groupId (table page.pre.db)).length := (List.cons.inj htotal).1.trans hpage.symm
  exact absurd hsame hlt.ne

/-- The page shows an event twice, and none is missing. -/
theorem growing_lists_complete_renamed : ∃ (cfg : (listSystem .plain {}).Config) (events : List
    ActivityEventRecord) (settlements : List SettlementDto),
    events.map (·.event.id) = [13, 14, 14, 15] ∧ settlements.map (·.id) = [12] ∧
    (∃ first, (cfg.hist.own 0).getLast? = some first ∧
      ∀ e ∈ first.pre.db.activityEvents, e.groupId = 10 →
        e ∈ cfg.hist.world.db.activityEvents → e.id ∈ events.map (·.event.id)) ∧
    ∃ first, (cfg.hist.own 2).getLast? = some first ∧
      ∀ s ∈ first.pre.db.settlements, s.groupId = 10 →
        s ∈ cfg.hist.world.db.settlements → s.id ∈ settlements.map (·.id) := by
  have hdrawn : DrawnRecords writtenGroup.db := ⟨⟨by decide, by decide⟩, ⟨by decide, by decide⟩⟩
  obtain ⟨cfg, hplay, hfeed, hsettlements, hevents, hsettled⟩ : ∃ cfg,
      (listSystem .plain {}).play renamedBetweenPages
        ((listSystem .plain {}).start writtenGroup) = some cfg ∧
      cfg.returned? OnScreen.ids 0 = some (.feed 1 10 2 3, some [1, 13, 14, 14, 15]) ∧
      cfg.returned? OnScreen.ids 2 = some (.settlements 1 10 3, some [2, 12]) ∧
      lengths activityListing Db.activityEvents 10 (cfg.hist.own 0) = [4, 4] ∧
      lengths settlementListing Db.settlements 10 (cfg.hist.own 2) = [1, 1] :=
    System.exists_of_play (by decide +kernel)
  have hr : (listSystem .plain {}).Reachable (fun w => DrawnRecords w.db) cfg :=
    System.reachable_of_play (fun _ _ _ => trivial) (.start hdrawn) hplay
  obtain ⟨shown, hfeed, hids⟩ := System.Config.exists_of_returned? hfeed
  obtain ⟨shown', hsettlements, hids'⟩ := System.Config.exists_of_returned? hsettlements
  -- Each reader has returned a list of its own kind.
  cases shown with
  | feed events =>
    cases shown' with
    | settlements all =>
      exact ⟨cfg, events, all, (List.cons.inj hids).2, (List.cons.inj hids').2,
        (@growing_lists_complete .plain {} cfg hr 0 1 10 2 3).1 events hfeed
          (not_overtaken_of_lengths hevents),
        (@growing_lists_complete .plain {} cfg hr 2 1 10 2 3).2 all hsettlements
          (not_overtaken_of_lengths hsettled)⟩
    | nothing => cases (List.cons.inj hids').1
    | feed events => cases (List.cons.inj hids').1
  | nothing => cases (List.cons.inj hids).1
  | settlements all => cases (List.cons.inj hids).1

/-- The group is renamed between the total of its feed and the page. -/
def renamedBeforePage : List (System.Action (listSystem .plain {})) :=
  List.flatten [[.spawn (.feed 1 10 3 3), .spawn (.store (.group (.updateGroup 1 10 "Rome")))],
    System.turns _ 0 { first := false } 4, System.turns _ 1 {} 3, System.turns _ 0 {} 1]

/-- A reader that is overtaken may miss a row. -/
theorem overtaken_misses : ∃ (cfg : (listSystem .plain {}).Config) (first : BackendEntry)
    (events : List ActivityEventRecord),
    (listSystem .plain {}).Reachable (fun w => DrawnRecords w.db) cfg ∧
    cfg.procs[0]? = some (.feed 1 10 3 3, .ret (.feed events)) ∧
    events.map (·.event.id) = [20, 13, 14] ∧ (cfg.hist.own 0).getLast? = some first ∧
    first.pre.db.activityEvents.map (·.id) = [13, 14, 15] ∧
    cfg.hist.world.db.activityEvents.map (·.id) = [20, 13, 14, 15] := by
  have hdrawn : DrawnRecords writtenGroup.db := ⟨⟨by decide, by decide⟩, ⟨by decide, by decide⟩⟩
  obtain ⟨cfg, hplay, hfeed, hfirst, hevents⟩ : ∃ cfg,
      (listSystem .plain {}).play renamedBeforePage
        ((listSystem .plain {}).start writtenGroup) = some cfg ∧
      cfg.returned? OnScreen.ids 0 = some (.feed 1 10 3 3, some [1, 20, 13, 14]) ∧
      (cfg.hist.own 0).getLast?.map (fun e => e.pre.db.activityEvents.map (·.id)) =
        some [13, 14, 15] ∧
      cfg.hist.world.db.activityEvents.map (·.id) = [20, 13, 14, 15] :=
    System.exists_of_play (by decide +kernel)
  obtain ⟨shown, hfeed, hids⟩ := System.Config.exists_of_returned? hfeed
  obtain ⟨first, hlast, hfirst⟩ := Option.map_eq_some_iff.mp hfirst
  cases shown with
  | feed events =>
    exact ⟨cfg, first, events,
      System.reachable_of_play (fun _ _ _ => trivial) (.start hdrawn) hplay, hfeed,
      (List.cons.inj hids).2, hlast, hfirst, hevents⟩
  | nothing => cases (List.cons.inj hids).1
  | settlements all => cases (List.cons.inj hids).1

end SplitBill
