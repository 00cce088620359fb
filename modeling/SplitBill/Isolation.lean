import SplitBill.Rows
import SplitBill.Scope

/-!
# What a group's outsiders can see and do

A user who is not a member of a group is told the same error whatever the group contains, and can
change none of its rows. Every call is admitted to members only, or to the owner, who is a member of
every reachable group; so a call of an outsider that names the group is refused, and one that names
another group changes rows of that group only.
-/

namespace SplitBill

open Interleave

namespace GroupCall

/-- The user who sends a call. -/
def requester : GroupCall → Id
  | getGroupById userId _ => userId
  | updateGroup userId _ _ => userId
  | deleteGroup userId _ => userId
  | addGroupMember userId _ _ => userId
  | removeGroupMember userId _ _ => userId
  | createExpense requesterId _ => requesterId
  | getExpenseById requesterId _ => requesterId
  | updateExpense requesterId _ _ => requesterId
  | deleteExpense requesterId _ => requesterId
  | getGroupExpenses requesterId _ _ => requesterId
  | getGroupBalances requesterId _ => requesterId
  | createSettlement requesterId _ _ => requesterId
  | getSettlementById requesterId _ => requesterId
  | getGroupSettlements requesterId _ _ => requesterId
  | getGroupActivity requesterId _ _ _ => requesterId
  | getGroupSummary requesterId _ => requesterId
  | enqueueGroupSummaryRecompute requesterId _ _ => requesterId

/-- The group that a call names, itself or by an expense or a settlement. -/
def groupOf (db : Db) : GroupCall → Option Id
  | getGroupById _ groupId => some groupId
  | updateGroup _ groupId _ => some groupId
  | deleteGroup _ groupId => some groupId
  | addGroupMember _ groupId _ => some groupId
  | removeGroupMember _ groupId _ => some groupId
  | createExpense _ input => some input.groupId
  | getExpenseById _ expenseId => (db.expense? expenseId).map (·.groupId)
  | updateExpense _ expenseId _ => (db.expense? expenseId).map (·.groupId)
  | deleteExpense _ expenseId => (db.expense? expenseId).map (·.groupId)
  | getGroupExpenses _ groupId _ => some groupId
  | getGroupBalances _ groupId => some groupId
  | createSettlement _ input _ => some input.groupId
  | getSettlementById _ settlementId => (db.settlement? settlementId).map (·.groupId)
  | getGroupSettlements _ groupId _ => some groupId
  | getGroupActivity _ groupId _ _ => some groupId
  | getGroupSummary _ groupId => some groupId
  | enqueueGroupSummaryRecompute _ groupId _ => some groupId

/-- The call names the group, or an expense or settlement that no other group has. -/
def Addresses (c : GroupCall) (db : Db) (groupId : Id) : Prop := ∀ g ∈ c.groupOf db, g = groupId

instance (c : GroupCall) (db : Db) (groupId : Id) : Decidable (c.Addresses db groupId) :=
  inferInstanceAs (Decidable (∀ g ∈ c.groupOf db, g = groupId))

/-- What a call demands of its requester. -/
def Admits (db : Db) : GroupCall → Prop
  | getGroupById userId groupId => userId ∈ db.memberIds groupId
  | updateGroup userId groupId _ => Owns db groupId userId
  | deleteGroup userId groupId => Owns db groupId userId
  | addGroupMember userId groupId _ => Owns db groupId userId
  | removeGroupMember userId groupId _ => Owns db groupId userId
  | createExpense requesterId input => requesterId ∈ db.memberIds input.groupId
  | getExpenseById requesterId expenseId => SeesExpense db expenseId requesterId
  | updateExpense requesterId expenseId _ => SeesExpense db expenseId requesterId
  | deleteExpense requesterId expenseId => SeesExpense db expenseId requesterId
  | getGroupExpenses requesterId groupId _ => requesterId ∈ db.memberIds groupId
  | getGroupBalances requesterId groupId => requesterId ∈ db.memberIds groupId
  | createSettlement requesterId input _ => requesterId ∈ db.memberIds input.groupId
  | getSettlementById requesterId settlementId => SeesSettlement db settlementId requesterId
  | getGroupSettlements requesterId groupId _ => requesterId ∈ db.memberIds groupId
  | getGroupActivity requesterId groupId _ _ => requesterId ∈ db.memberIds groupId
  | getGroupSummary requesterId groupId => requesterId ∈ db.memberIds groupId
  | enqueueGroupSummaryRecompute requesterId groupId _ => requesterId ∈ db.memberIds groupId

/-- What a call answers a requester whom it does not admit. -/
def denial (lib : Lib) (w : World) : GroupCall → Err
  | getGroupById _ groupId => cachedDenial lib w groupId
  | updateGroup _ groupId _ =>
    ownerDenial w.db groupId "Only the group owner can update this group."
  | deleteGroup _ groupId => ownerDenial w.db groupId "Only the group owner can delete this group."
  | addGroupMember _ groupId _ => ownerDenial w.db groupId "Only the group owner can add members."
  | removeGroupMember _ groupId _ =>
    ownerDenial w.db groupId "Only the group owner can remove members."
  | createExpense _ input => memberDenial w.db input.groupId
  | getExpenseById _ expenseId => expenseDenial w.db expenseId
  | updateExpense _ expenseId _ => expenseDenial w.db expenseId
  | deleteExpense _ expenseId => expenseDenial w.db expenseId
  | getGroupExpenses _ groupId _ => memberDenial w.db groupId
  | getGroupBalances _ groupId => memberDenial w.db groupId
  | createSettlement _ input _ => memberDenial w.db input.groupId
  | getSettlementById _ settlementId => settlementDenial w.db settlementId
  | getGroupSettlements _ groupId _ => memberDenial w.db groupId
  | getGroupActivity _ groupId _ _ => memberDenial w.db groupId
  | getGroupSummary _ groupId => memberDenial w.db groupId
  | enqueueGroupSummaryRecompute _ groupId _ => memberDenial w.db groupId

/-- What the transactions of a call may make of the tables `d`. -/
def Commits (d d' : Db) : GroupCall → Prop
  | updateGroup _ groupId name => UpdatesGroup groupId name d d'
  | deleteGroup _ groupId => DeletesGroup groupId d d'
  | addGroupMember _ groupId memberId => AddsMember groupId memberId d d'
  | removeGroupMember _ groupId memberId => RemovesMember groupId memberId d d'
  | createExpense _ input => CreatesExpense input d d'
  | updateExpense _ expenseId input => UpdatesExpense expenseId input d d'
  | deleteExpense _ expenseId => DeletesExpense expenseId d d'
  | createSettlement _ input _ => CreatesSettlement input d d'
  | _ => False

end GroupCall

/-- A call whose result is forgotten is refused and commits as before. -/
theorem outcome_void {α : Type} {D : Discipline backend Err World} {strict : Prop} {d : Db}
    {admits : Prop} {denial : Err} {commits : Db → Prop} {p : Act α} {w : World}
    (h : wp D (Outcome strict d admits denial commits) p w) :
    wp D (Outcome strict d admits denial commits) (void p) w := by
  refine wp_bind.mpr (wp_mono ?_ h)
  rintro (e | a) y (⟨hy, e', he, hden⟩ | hy)
  · obtain rfl := Except.error.inj he
    exact .inl ⟨hy, e, rfl, hden⟩
  · exact .inr hy
  · cases he
  · exact .inr hy

/-- How every call ends that runs without company. -/
theorem groupCall_outcome {lib : Lib} {D : Discipline backend Err World} {strict : Prop}
    {w : World} (hD : Sequential lib D strict) (env : Env) (c : GroupCall) :
    wp D (Outcome strict w.db (c.Admits w.db) (c.denial lib w) fun d => c.Commits w.db d)
      (c.body env lib) w := by
  cases c with
  | getGroupById => exact outcome_void (getGroupById_outcome hD env _ _)
  | updateGroup => exact outcome_void (updateGroup_outcome hD _ _ _)
  | deleteGroup => exact outcome_void (deleteGroup_outcome hD _ _)
  | addGroupMember => exact outcome_void (addGroupMember_outcome hD _ _ _)
  | removeGroupMember => exact outcome_void (removeGroupMember_outcome hD _ _ _)
  | createExpense => exact outcome_void (createExpense_outcome hD _ _)
  | getExpenseById => exact outcome_void (getExpenseById_outcome hD _ _)
  | updateExpense => exact outcome_void (updateExpense_outcome hD _ _ _)
  | deleteExpense => exact outcome_void (deleteExpense_outcome hD _ _)
  | getGroupExpenses => exact outcome_void (getGroupExpenses_outcome hD _ _ _)
  | getGroupBalances => exact outcome_void (getGroupBalances_outcome hD _ _)
  | createSettlement => exact outcome_void (createSettlement_outcome hD env _ _ _)
  | getSettlementById => exact outcome_void (getSettlementById_outcome hD _ _)
  | getGroupSettlements => exact outcome_void (getGroupSettlements_outcome hD _ _ _)
  | getGroupActivity => exact outcome_void (getGroupActivity_outcome hD _ _ _ _)
  | getGroupSummary => exact outcome_void (getGroupSummary_outcome hD _ _)
  | enqueueGroupSummaryRecompute =>
    exact outcome_void (enqueueGroupSummaryRecompute_outcome hD env _ _ _)

/-! ## Who is admitted is a member -/

/-- In a sound database the owner is a member. -/
theorem mem_of_owns {db : Db} (hs : Sound db) {groupId userId : Id} (h : Owns db groupId userId) :
    userId ∈ db.memberIds groupId := by
  obtain ⟨g, hg, rfl⟩ := h
  have hid : g.id = groupId := by simpa using List.find?_some hg
  exact hid ▸ hs.owner g (List.mem_of_find?_eq_some hg)

/-- A requester who is admitted is a member of the group that the call names. -/
theorem member_of_admits {db : Db} (hs : Sound db) {c : GroupCall} (h : c.Admits db) :
    ∃ g, c.groupOf db = some g ∧ c.requester ∈ db.memberIds g := by
  have hexpense : ∀ {expenseId requesterId : Id}, SeesExpense db expenseId requesterId →
      ∃ g, (db.expense? expenseId).map (·.groupId) = some g ∧ requesterId ∈ db.memberIds g := by
    rintro expenseId requesterId ⟨e, he, hmem⟩
    exact ⟨e.groupId, by rw [he]; rfl, hmem⟩
  cases c with
  | updateGroup => exact ⟨_, rfl, mem_of_owns hs h⟩
  | deleteGroup => exact ⟨_, rfl, mem_of_owns hs h⟩
  | addGroupMember => exact ⟨_, rfl, mem_of_owns hs h⟩
  | removeGroupMember => exact ⟨_, rfl, mem_of_owns hs h⟩
  | getExpenseById => exact hexpense h
  | updateExpense => exact hexpense h
  | deleteExpense => exact hexpense h
  | getSettlementById =>
    obtain ⟨s, hsome, hmem⟩ := h
    exact ⟨s.groupId, congrArg (Option.map _) hsome, hmem⟩
  | _ => exact ⟨_, rfl, h⟩

/-- A call that is admitted for one group leaves the rows of another as they were. -/
theorem rowsOf_of_commits {d d' : Db} (hs : Sound d) {c : GroupCall} {groupId other : Id}
    (hgroup : c.groupOf d = some groupId) (hne : groupId ≠ other) (hc : c.Commits d d') :
    d'.rowsOf other = d.rowsOf other := by
  cases c with
  | updateGroup => exact UpdatesGroup.rowsOf (Option.some.inj hgroup ▸ hne) hc
  | deleteGroup => exact DeletesGroup.rowsOf (Option.some.inj hgroup ▸ hne) hc
  | addGroupMember => exact AddsMember.rowsOf (Option.some.inj hgroup ▸ hne) hc
  | removeGroupMember =>
    obtain ⟨-, now, a, r, heval⟩ := hc
    exact removeGroupMember_rowsOf (Option.some.inj hgroup ▸ hne) heval
  | createExpense =>
    obtain ⟨memberIds, splits, date, -, -, -, c, now, a, r, heval⟩ := hc
    exact createExpense_rowsOf (Option.some.inj hgroup ▸ hne) heval
  | updateExpense =>
    obtain ⟨e, he, rfl⟩ := Option.map_eq_some_iff.mp hgroup
    obtain ⟨_, memberIds, splits, -, -, -, -, c, now, a, r, heval⟩ := hc
    exact updateExpense_rowsOf hs.expense_nodup he hne heval
  | deleteExpense =>
    obtain ⟨e, he, rfl⟩ := Option.map_eq_some_iff.mp hgroup
    exact DeletesExpense.rowsOf hs.expense_nodup he hne hc
  | createSettlement =>
    obtain ⟨-, -, hclaims⟩ := hc
    induction hclaims with
    | refl => rfl
    | tail _ hclaim ih =>
      rw [← ih]
      exact ClaimsAndSettles.rowsOf (Option.some.inj hgroup ▸ hne) hclaim
  | _ => exact hc.elim

/-! ## Isolation -/

/-- The worlds look the same to who is not a member of the group: the same groups, expenses and
settlements exist, and the cache has an entry for the group in both or in neither. -/
structure SameToOutsiders (lib : Lib) (groupId : Id) (w₁ w₂ : World) : Prop where
  group : (w₁.db.group? groupId).isSome = (w₂.db.group? groupId).isSome
  expense : ∀ id, (w₁.db.expense? id).isSome = (w₂.db.expense? id).isSome
  settlement : ∀ id, (w₁.db.settlement? id).isSome = (w₂.db.settlement? id).isSome
  cached : (cachedGroup lib w₁ groupId).isSome = (cachedGroup lib w₂ groupId).isSome

/-- What an outsider is told depends only on what looks the same. -/
theorem denial_congr {lib : Lib} {groupId : Id} {w₁ w₂ : World}
    (h : SameToOutsiders lib groupId w₁ w₂) {c : GroupCall} (hc : c.Addresses w₁.db groupId) :
    c.denial lib w₁ = c.denial lib w₂ := by
  have hmember : memberDenial w₁.db groupId = memberDenial w₂.db groupId := by
    rw [memberDenial, memberDenial, h.group]
  have howner : ∀ message,
      ownerDenial w₁.db groupId message = ownerDenial w₂.db groupId message := by
    intro message
    rw [ownerDenial, ownerDenial, h.group]
  have hexpense : ∀ id, expenseDenial w₁.db id = expenseDenial w₂.db id := by
    intro id
    rw [expenseDenial, expenseDenial, h.expense]
  cases c with
  | getGroupById userId id =>
    obtain rfl : id = groupId := hc id rfl
    show cachedDenial lib w₁ id = cachedDenial lib w₂ id
    rw [cachedDenial, cachedDenial, h.cached, hmember]
  | updateGroup | deleteGroup | addGroupMember | removeGroupMember =>
    obtain rfl := hc _ rfl
    exact howner _
  | createExpense | getGroupExpenses | getGroupBalances | createSettlement | getGroupSettlements
  | getGroupActivity | getGroupSummary | enqueueGroupSummaryRecompute =>
    obtain rfl := hc _ rfl
    exact hmember
  | getExpenseById | updateExpense | deleteExpense => exact hexpense _
  | getSettlementById requesterId settlementId =>
    show settlementDenial w₁.db settlementId = settlementDenial w₂.db settlementId
    rw [settlementDenial, settlementDenial, h.settlement]

/-- A call of an outsider that names the group is not admitted. -/
theorem not_admits {db : Db} (hs : Sound db) {c : GroupCall} {groupId : Id}
    (hout : c.requester ∉ db.memberIds groupId) (hc : c.Addresses db groupId) : ¬c.Admits db := by
  intro hadmits
  obtain ⟨g, hg, hmem⟩ := member_of_admits hs hadmits
  exact hout (hc g hg ▸ hmem)

/-- An outsider changes no row of the group, and a call of theirs that names it changes nothing at
all and fails. -/
theorem outsider_harmless {lib : Lib} {env : Env} {w w' : World} {c : GroupCall} {groupId : Id}
    (hs : Sound w.db) (hout : c.requester ∉ w.db.memberIds groupId) {r : Except Err Unit}
    (hx : Exec (machine lib) World.Later (c.body env lib) w r w') :
    w'.db.rowsOf groupId = w.db.rowsOf groupId ∧
      (c.Addresses w.db groupId → w'.db = w.db ∧ ∃ e, r = .error e) := by
  have h := hx.sound (groupCall_outcome (sequential_alone lib) env c)
  refine ⟨?_, fun hc => ?_⟩
  · refine h.holds (I := fun d => d.rowsOf groupId = w.db.rowsOf groupId) rfl ?_
    intro d' hadmits hcommits
    obtain ⟨g, hg, hmem⟩ := member_of_admits hs hadmits
    have hne : g ≠ groupId := by
      rintro rfl
      exact hout hmem
    exact rowsOf_of_commits hs hg hne hcommits
  · obtain ⟨hdb, e, he, -⟩ := h.refused (not_admits hs hout hc)
    exact ⟨hdb, e, he⟩

/-- Owners are members of every reachable group. Where they are, an outsider changes no row of a
group, a call of theirs that names it fails and changes nothing, and the error is the same in any
two worlds that look the same to outsiders. -/
theorem nonmember_isolation (lib : Lib) (env : Env) :
    (∀ cfg, (groupSystem lib env).Reachable NoGroups cfg → Sound cfg.hist.world.db) ∧
    ∀ (groupId : Id) (c : GroupCall) (w₁ : World), Sound w₁.db →
      c.requester ∉ w₁.db.memberIds groupId →
      (∀ r w', Exec (machine lib) World.Later (c.body env lib) w₁ r w' →
        w'.db.rowsOf groupId = w₁.db.rowsOf groupId ∧
          (c.Addresses w₁.db groupId → w'.db = w₁.db ∧ ∃ e, r = .error e)) ∧
      ∀ w₂ : World, Sound w₂.db → c.requester ∉ w₂.db.memberIds groupId →
        SameToOutsiders lib groupId w₁ w₂ → c.Addresses w₁.db groupId →
        c.Addresses w₂.db groupId → ∃ e, ∀ r w',
          (Exec (machine lib).answered Eq (c.body env lib) w₁ r w' → r = .error e) ∧
          (Exec (machine lib).answered Eq (c.body env lib) w₂ r w' → r = .error e) := by
  refine ⟨fun _ => sound_of_reachable, fun groupId c w₁ hs₁ hout₁ => ⟨fun r w' hx => ?_, ?_⟩⟩
  · exact outsider_harmless hs₁ hout₁ hx
  · intro w₂ hs₂ hout₂ hsame hc₁ hc₂
    -- In either world the call is told the refusal that its own rows call for.
    have htold : ∀ w : World, Sound w.db → c.requester ∉ w.db.memberIds groupId →
        c.Addresses w.db groupId → ∀ r w',
          Exec (machine lib).answered Eq (c.body env lib) w r w' →
            r = .error (c.denial lib w) := by
      intro w hs hout hc r w' hx
      have h := hx.sound (groupCall_outcome (sequential_answered lib) env c)
      obtain ⟨-, e, rfl, he⟩ := h.refused (not_admits hs hout hc)
      rw [he trivial]
    -- The two worlds call for the same one.
    refine ⟨c.denial lib w₁, fun r w' => ⟨htold w₁ hs₁ hout₁ hc₁ r w', fun hx => ?_⟩⟩
    rw [denial_congr hsame hc₁]
    exact htold w₂ hs₂ hout₂ hc₂ r w' hx

/-- A group with one expense, and a user who is not a member. -/
def guardedGroup (name description : String) : World where
  db :=
    { users := [⟨1, "A", "a@x.io", none, none⟩, ⟨2, "B", "b@x.io", none, none⟩]
      groups := [⟨10, name, 1, 0, 0⟩]
      groupMembers := [⟨11, 10, 1, 0⟩]
      expenses := [⟨12, 10, 1, description, 500, "PKR", .equal, 0, [⟨13, 1, 500, 0⟩], 0, 0⟩]
      nextId := 20 }

/-- The database of the example is sound. -/
theorem sound_guardedGroup (name description : String) :
    Sound (guardedGroup name description).db := by
  constructor
  · intro g hg
    obtain rfl := List.mem_singleton.mp hg
    exact List.mem_singleton.mpr rfl
  · intro g hg
    obtain rfl := List.mem_singleton.mp hg
    exact (by decide : 10 < 20)
  · intro g hg g' hg' _
    obtain rfl := List.mem_singleton.mp hg
    obtain rfl := List.mem_singleton.mp hg'
    rfl
  · intro e he
    obtain rfl := List.mem_singleton.mp he
    exact (by decide : 12 < 20)
  · exact List.nodup_singleton _

/-- A stranger asks for an expense of two different groups and gets one answer. -/
theorem nonmember_isolation_expense : ∃ e,
    ((machine .plain).run {} (GroupCall.body {} .plain (.getExpenseById 2 12))
      (guardedGroup "Trip" "Dinner")).1 = .error e ∧
    ((machine .plain).run {} (GroupCall.body {} .plain (.getExpenseById 2 12))
      (guardedGroup "Flat" "Rent")).1 = .error e := by
  have hout : ∀ name description,
      (GroupCall.getExpenseById 2 12).requester ∉ (guardedGroup name description).db.memberIds 10 :=
    fun _ _ => (by decide : 2 ∉ [1])
  have hexpense : ∀ id, ((guardedGroup "Trip" "Dinner").db.expense? id).isSome =
      ((guardedGroup "Flat" "Rent").db.expense? id).isSome := by
    intro id
    by_cases hid : 12 = id <;> simp [guardedGroup, Db.expense?, hid]
  obtain ⟨e, he⟩ := ((nonmember_isolation .plain {}).2 10 (.getExpenseById 2 12)
    (guardedGroup "Trip" "Dinner") (sound_guardedGroup _ _) (hout _ _)).2
    (guardedGroup "Flat" "Rent") (sound_guardedGroup _ _) (hout _ _)
    ⟨rfl, hexpense, fun _ => rfl, rfl⟩ (by decide) (by decide)
  exact ⟨e, (he _ _).1 ((machine .plain).exec_answered {} _ _),
    (he _ _).2 ((machine .plain).exec_answered {} _ _)⟩

end SplitBill
