import Mathlib.Logic.Relation
import SplitBill.Activity.Service
import SplitBill.Expenses.Store
import SplitBill.Groups.Service
import SplitBill.Settlements.Service
import SplitBill.Summary.Service

/-!
# The calls on a group, one at a time

What each service call that belongs to a group does when it runs without company. `Outcome` has the
same form for all of them: either the call is refused, with an error and without a trace in the
tables, or its requester is admitted, and then the tables are as before or as the call's transaction
left them. A requester who is not admitted is told `denial`, if the database answers.
-/

namespace SplitBill

open Interleave

/-- How a call ends that started with the tables `d`: `admits` is what the call demands of its
requester, `denial` what others are told, and `commits` what its transaction may leave. -/
def Outcome {α : Type} (strict : Prop) (d : Db) (admits : Prop) (denial : Err) (commits : Db → Prop)
    (r : Except Err α) (y : World) : Prop :=
  (y.db = d ∧ ∃ e, r = .error e ∧ (strict → ¬admits → e = denial)) ∨
    admits ∧ (y.db = d ∨ commits y.db)

namespace Outcome

variable {α β : Type} {strict : Prop} {d : Db} {admits : Prop} {denial e : Err}
  {commits : Db → Prop} {r : Except Err α} {y : World}

/-- A call that was denied has changed nothing. -/
theorem denied (hy : y.db = d) (he : denial = e) :
    Outcome strict d admits denial commits (.error e : Except Err α) y :=
  .inl ⟨hy, e, rfl, fun _ _ => he.symm⟩

/-- A call that failed on its way has changed nothing. -/
theorem unavailable (hy : y.db = d) (hs : ¬strict) :
    Outcome strict d admits denial commits (.error e : Except Err α) y :=
  .inl ⟨hy, e, rfl, fun h => absurd h hs⟩

/-- A call that was admitted and changed nothing. -/
theorem unchanged (ha : admits) (hy : y.db = d) : Outcome strict d admits denial commits r y :=
  .inr ⟨ha, .inl hy⟩

/-- A call that was admitted and committed its change. -/
theorem committed (ha : admits) (hy : commits y.db) :
    Outcome strict d admits denial commits r y :=
  .inr ⟨ha, .inr hy⟩

/-- Who is not admitted is refused. -/
theorem refused (h : Outcome strict d admits denial commits r y) (ha : ¬admits) :
    y.db = d ∧ ∃ e, r = .error e ∧ (strict → e = denial) := by
  rcases h with ⟨hy, e, he, hden⟩ | ⟨h, -⟩
  · exact ⟨hy, e, he, fun hs => hden hs ha⟩
  · exact absurd h ha

/-- What holds of the old tables and of those that the call's transaction leaves. -/
theorem holds {I : Db → Prop} (h : Outcome strict d admits denial commits r y) (hd : I d)
    (hc : ∀ d', admits → commits d' → I d') : I y.db := by
  rcases h with ⟨hy, -⟩ | ⟨ha, hy | hy⟩
  · exact hy ▸ hd
  · exact hy ▸ hd
  · exact hc _ ha hy

end Outcome

/-- The user owns the group. -/
def Owns (db : Db) (groupId userId : Id) : Prop :=
  ∃ g, db.group? groupId = some g ∧ g.createdById = userId

/-- What a group's owner-only call answers anyone else. -/
def ownerDenial (db : Db) (groupId : Id) (message : String) : Err :=
  if (db.group? groupId).isSome then forbiddenError .notGroupOwner message
  else GroupService.groupNotFound

/-- What a call on a group answers a user who is not a member. -/
def memberDenial (db : Db) (groupId : Id) : Err :=
  if (db.group? groupId).isSome then GroupService.notGroupMember else GroupService.groupNotFound

/-- Who does not own a group is told so. -/
theorem ownerDenial_of_some {db : Db} {groupId : Id} {g : Group} (h : db.group? groupId = some g)
    (message : String) :
    ownerDenial db groupId message = forbiddenError .notGroupOwner message := by
  rw [ownerDenial, h]
  rfl

/-- A missing group has no owner. -/
theorem ownerDenial_of_none {db : Db} {groupId : Id} (h : db.group? groupId = none)
    (message : String) : ownerDenial db groupId message = GroupService.groupNotFound := by
  rw [ownerDenial, h]
  rfl

/-- Who is not a member of a group is told so. -/
theorem memberDenial_of_some {db : Db} {groupId : Id} {g : Group}
    (h : db.group? groupId = some g) : memberDenial db groupId = GroupService.notGroupMember := by
  rw [memberDenial, h]
  rfl

/-- A missing group has no members. -/
theorem memberDenial_of_none {db : Db} {groupId : Id} (h : db.group? groupId = none) :
    memberDenial db groupId = GroupService.groupNotFound := by
  rw [memberDenial, h]
  rfl

/-- Forgets the result of a call. -/
def void {α : Type} (p : Act α) : Act Unit := p.bind fun _ => .ret ()

/-- What a call does to the world it does as well when its result is forgotten. -/
theorem wp_void {α X : Type} {D : Discipline backend Err X} {I : X → Prop} {p : Act α} {x : X}
    (h : wp D (fun _ => I) p x) : wp D (fun _ => I) (void p) x := by
  refine wp_bind.mpr (wp_mono ?_ h)
  rintro (_ | _) y hy <;> exact hy

/-- No transaction at all. -/
def NoTransaction (_ : DbOp) : Prop := False

section

variable {lib : Lib} {α : Type} {D : Discipline backend Err World} {strict : Prop} {w : World}

/-- The rest of a call that only reads. -/
theorem Sequential.rest (hD : Sequential lib D strict) {p : Act α}
    (hp : p.Issues (Op.OnDb (ReadsOr NoTransaction))) {d : Db} {y : World} (hy : y.db = d) :
    wp D (fun _ z => z.db = d) p y :=
  hD.keeps (I := (· = d)) (fun _ h => h.elim) hp hy

/-- A transaction leaves the tables as they were or as it computes them. -/
theorem transaction_wp (hD : Sequential lib D strict) (o : DbOp)
    {t : Choice → Time → Tx Db Err Metric o.Res} (ho : o.access = .write t) {d : Db} {x : World}
    (hx : x.db = d) (commits : Db → Prop)
    (hc : ∀ c now r d', (t c now).eval d = .ok (r, d') → commits d') :
    wp D (fun _ y => y.db = d ∨ commits y.db) (Op.perform (.db o)) x := by
  refine (hD.stable d).write o ho hx ?_ fun _ y hy => .inl hy
  intro x₁ y c now r hx₁ heval
  have hy : commits y.db := hc c now r y.db (hx₁ ▸ heval)
  exact ⟨hD.guar _ _, .inr hy, fun _ => .inr hy⟩

/-- The end of an admitted call: one part with its transaction, and a rest without any. -/
theorem admitted_bind {β : Type} (hD : Sequential lib D strict) {d : Db} {admits : Prop}
    {denial : Err} {commits : Db → Prop} (ha : admits) {p : Act α} {g : α → Act β} {x : World}
    (hp : wp D (fun _ y => y.db = d ∨ commits y.db) p x)
    (hg : ∀ a, (g a).Issues (Op.OnDb (ReadsOr NoTransaction))) :
    wp D (Outcome strict d admits denial commits) (p.bind g) x := by
  refine wp_bind.mpr (wp_mono ?_ hp)
  rintro (e | a) y hy
  · exact .inr ⟨ha, hy⟩
  · refine wp_mono (fun _ z hz => .inr ⟨ha, ?_⟩) (hD.rest (hg a) rfl)
    rw [hz]
    exact hy

/-! ## Groups -/

/-- The owner check with which the owner-only calls begin. -/
theorem ownerCheck_wp (hD : Sequential lib D strict) {userId groupId : Id} {message : String}
    {commits : Db → Prop} {rest : Group → Act α}
    (h : ∀ g y, y.db = w.db → w.db.group? groupId = some g → g.createdById = userId →
      wp D (Outcome strict w.db (Owns w.db groupId userId) (ownerDenial w.db groupId message)
        commits) (rest g) y) :
    wp D (Outcome strict w.db (Owns w.db groupId userId) (ownerDenial w.db groupId message) commits)
      ((GroupRepository.findGroupById groupId).bind fun group =>
        (Prog.expect group GroupService.groupNotFound).bind fun group =>
          (Prog.ensure (group.createdById = userId)
            (forbiddenError .notGroupOwner message)).bind fun _ => rest group) w := by
  refine wp_bind.mpr ((hD.stable w.db).read (.group (.findGroupById _)) rfl rfl ?_
    fun y hy hs => .unavailable hy hs)
  intro _ x₁ hx₁
  rw [hx₁]
  refine wp_expect_bind.mpr ⟨fun g hg => ?_, fun hg => .denied hx₁ (ownerDenial_of_none hg _)⟩
  exact wp_ensure_bind.mpr ⟨fun howner => h g x₁ hx₁ hg howner,
    fun _ => .denied hx₁ (ownerDenial_of_some hg _)⟩

/-- The search for the group with which the calls of its members begin. -/
theorem groupCheck_wp {requesterId groupId : Id} {commits : Db → Prop} {find : Act (Option Group)}
    (hfind : ∀ {Q : Except Err (Option Group) → World → Prop},
      (∀ (_ : Choice) y, y.db = w.db → Q (.ok (y.db.group? groupId)) y) →
      (∀ y, y.db = w.db → ¬strict → Q (.error (.prisma .unavailable)) y) → wp D Q find w)
    {rest : Group → Act α}
    (h : ∀ g y, y.db = w.db → w.db.group? groupId = some g →
      wp D (Outcome strict w.db (requesterId ∈ w.db.memberIds groupId) (memberDenial w.db groupId)
        commits) (rest g) y) :
    wp D (Outcome strict w.db (requesterId ∈ w.db.memberIds groupId) (memberDenial w.db groupId)
      commits) (find.bind fun group => (Prog.expect group GroupService.groupNotFound).bind rest)
      w := by
  refine wp_bind.mpr (hfind (fun _ x₁ hx₁ => ?_) fun y hy hs => .unavailable hy hs)
  rw [hx₁]
  exact wp_expect_bind.mpr ⟨fun g hg => h g x₁ hx₁ hg,
    fun hg => .denied hx₁ (memberDenial_of_none hg)⟩

/-- The search for the group and the look for its member with which the calls on its activity and
its summary begin. -/
theorem memberCheck_wp {requesterId groupId : Id} {commits : Db → Prop} {find : Act (Option Group)}
    (hfind : ∀ {Q : Except Err (Option Group) → World → Prop},
      (∀ (_ : Choice) y, y.db = w.db → Q (.ok (y.db.group? groupId)) y) →
      (∀ y, y.db = w.db → ¬strict → Q (.error (.prisma .unavailable)) y) → wp D Q find w)
    {isMember : Act Bool}
    (hmember : ∀ {Q : Except Err Bool → World → Prop} {x : World}, x.db = w.db →
      (∀ (_ : Choice) y, y.db = w.db → Q (.ok (y.db.member? groupId requesterId).isSome) y) →
      (∀ y, y.db = w.db → ¬strict → Q (.error (.prisma .unavailable)) y) → wp D Q isMember x)
    {rest : Act α}
    (h : ∀ y, y.db = w.db → requesterId ∈ w.db.memberIds groupId →
      wp D (Outcome strict w.db (requesterId ∈ w.db.memberIds groupId) (memberDenial w.db groupId)
        commits) rest y) :
    wp D (Outcome strict w.db (requesterId ∈ w.db.memberIds groupId) (memberDenial w.db groupId)
      commits) (find.bind fun group => (Prog.expect group GroupService.groupNotFound).bind fun _ =>
        isMember.bind fun found => (Prog.ensure found GroupService.notGroupMember).bind fun _ =>
          rest) w := by
  refine groupCheck_wp hfind fun g x₁ hx₁ hg => ?_
  refine wp_bind.mpr (hmember hx₁ (fun _ x₂ hx₂ => ?_) fun y hy hs => .unavailable hy hs)
  rw [hx₂]
  exact wp_ensure_bind.mpr ⟨fun hmem => h x₂ hx₂ (Db.isSome_member?.mp hmem),
    fun _ => .denied hx₂ (memberDenial_of_some hg)⟩

/-- What the transaction of `updateGroup` makes of the tables `d`. -/
def UpdatesGroup (groupId : Id) (name : String) (d d' : Db) : Prop :=
  ∃ now a g, (updateGroupWithEvent now groupId name a).eval d = .ok (g, d')

/-- The owner renames the group, or nothing happens. -/
theorem updateGroup_outcome (hD : Sequential lib D strict) (userId groupId : Id) (name : String) :
    wp D (Outcome strict w.db (Owns w.db groupId userId)
      (ownerDenial w.db groupId "Only the group owner can update this group.")
      (UpdatesGroup groupId name w.db)) (GroupService.updateGroup userId groupId name) w := by
  refine ownerCheck_wp hD fun g x₁ hx₁ hg howner => ?_
  refine admitted_bind hD ⟨g, hg, howner⟩ ?_ fun updated => ?_
  · refine wp_bind.mpr ((hD.stable w.db).read (.group (.updateGroupExists _)) rfl hx₁ ?_
      fun y hy _ => .inl hy)
    intro _ x₂ hx₂
    show wp D _ (if _ then _ else _) x₂
    split
    · refine wp_bind.mpr (wp_mono ?_ (transaction_wp hD (.group (.updateGroup _ _ _)) rfl hx₂
        (UpdatesGroup groupId name w.db) fun _ now g d' h => ⟨now, _, g, h⟩))
      rintro (_ | _) y hy <;> exact hy
    · exact .inl hx₂
  · refine .bind (Prog.issues_expect _ _ _) fun updated => ?_
    exact .bind (GroupCache.issues_invalidateGroupCache _ _) fun _ => trivial

/-- What the transaction of `deleteGroup` makes of the tables `d`. -/
def DeletesGroup (groupId : Id) (d d' : Db) : Prop :=
  Prisma.groupDelete groupId d = .ok ((), d')

/-- The owner deletes the group, or nothing happens. -/
theorem deleteGroup_outcome (hD : Sequential lib D strict) (userId groupId : Id) :
    wp D (Outcome strict w.db (Owns w.db groupId userId)
      (ownerDenial w.db groupId "Only the group owner can delete this group.")
      (DeletesGroup groupId w.db)) (GroupService.deleteGroup userId groupId) w := by
  refine ownerCheck_wp hD fun g x₁ hx₁ hg howner => ?_
  refine admitted_bind hD ⟨g, hg, howner⟩ ?_ fun _ => GroupCache.issues_invalidateGroupCache _ _
  exact transaction_wp hD (.group (.deleteGroup _)) rfl hx₁ _ fun _ _ _ d' h => h

/-- What the transaction of `addGroupMember` makes of the tables `d`. -/
def AddsMember (groupId memberId : Id) (d d' : Db) : Prop :=
  ∃ now a m, (addGroupMemberWithEvent now groupId memberId a).eval d = .ok (m, d')

/-- The owner adds a member, or nothing happens. -/
theorem addGroupMember_outcome (hD : Sequential lib D strict) (userId groupId memberId : Id) :
    wp D (Outcome strict w.db (Owns w.db groupId userId)
      (ownerDenial w.db groupId "Only the group owner can add members.")
      (AddsMember groupId memberId w.db))
      (GroupService.addGroupMember userId groupId memberId) w := by
  have hs := hD.stable w.db
  refine ownerCheck_wp hD fun g x₁ hx₁ hg howner => ?_
  have hadmits : Owns w.db groupId userId := ⟨g, hg, howner⟩
  refine wp_bind.mpr (hs.read (.group (.findUserById _)) rfl hx₁ ?_
    fun y hy _ => .unchanged hadmits hy)
  intro _ x₂ hx₂
  refine wp_expect_bind.mpr ⟨fun user _ => ?_, fun _ => .unchanged hadmits hx₂⟩
  refine wp_bind.mpr (hs.read (.group (.isGroupMember _ _)) rfl hx₂ ?_
    fun y hy _ => .unchanged hadmits hy)
  intro _ x₃ hx₃
  refine wp_ensure_bind.mpr ⟨fun _ => ?_, fun _ => .unchanged hadmits hx₃⟩
  refine admitted_bind hD hadmits ?_ fun member =>
    .bind (GroupCache.issues_invalidateGroupCache _ _) fun _ => trivial
  exact transaction_wp hD (.group (.addGroupMember _ _ _)) rfl hx₃ _
    fun _ now m d' h => ⟨now, _, m, h⟩

/-- What the transaction of `removeGroupMember` makes of the tables `d`. -/
def RemovesMember (groupId memberId : Id) (d d' : Db) : Prop :=
  (∀ g, d.group? groupId = some g → memberId ≠ g.createdById) ∧
    ∃ now a r, (removeGroupMemberWithEvent now groupId memberId a).eval d = .ok (r, d')

/-- The owner removes a member, or nothing happens. -/
theorem removeGroupMember_outcome (hD : Sequential lib D strict) (userId groupId memberId : Id) :
    wp D (Outcome strict w.db (Owns w.db groupId userId)
      (ownerDenial w.db groupId "Only the group owner can remove members.")
      (RemovesMember groupId memberId w.db))
      (GroupService.removeGroupMember userId groupId memberId) w := by
  have hs := hD.stable w.db
  refine ownerCheck_wp hD fun g x₁ hx₁ hg howner => ?_
  have hadmits : Owns w.db groupId userId := ⟨g, hg, howner⟩
  -- The owner has been admitted, so that every refusal from here on leaves the tables.
  refine wp_ensure_bind.mpr ⟨fun hne => ?_, fun _ => .unchanged hadmits hx₁⟩
  refine wp_bind.mpr (hs.read (.group (.findGroupMember _ _)) rfl hx₁ ?_
    fun y hy _ => .unchanged hadmits hy)
  intro _ x₂ hx₂
  refine wp_expect_bind.mpr ⟨fun member _ => ?_, fun _ => .unchanged hadmits hx₂⟩
  refine wp_bind.mpr (hs.read (.group (.findUserById _)) rfl hx₂ ?_
    fun y hy _ => .unchanged hadmits hy)
  intro _ x₃ hx₃
  refine wp_expect_bind.mpr ⟨fun user _ => ?_, fun _ => .unchanged hadmits hx₃⟩
  refine admitted_bind hD hadmits ?_ fun _ => GroupCache.issues_invalidateGroupCache _ _
  refine transaction_wp hD (.group (.removeGroupMember _ _ _)) rfl hx₃
    (RemovesMember groupId memberId w.db) fun _ now r d' h => ⟨fun g' hg' => ?_, now, _, r, h⟩
  obtain rfl := Option.some.inj (hg.symm.trans hg')
  exact hne

/-- The group that the cache has under a group's key. -/
def cachedGroup (lib : Lib) (w : World) (groupId : Id) : Option GroupWithMembers :=
  (w.redis.lookup w.now (.cacheGroup groupId)).bind (GroupCache.deserialize lib · groupId)

/-- The cache answers its entry, or with an error. -/
theorem getCachedGroupById_wp (hD : Sequential lib D strict) {groupId : Id}
    {Q : Except Err (Option GroupWithMembers) → World → Prop}
    (hQ : ∀ r y, y.db = w.db → (strict → r = .ok (cachedGroup lib w groupId)) → Q r y) :
    wp D Q (GroupCache.getCachedGroupById lib groupId) w := by
  unfold GroupCache.getCachedGroupById
  refine wp_bind.mpr (wp_attempt.mpr (wp_perform.mpr ?_))
  intro x hrely r y hans
  obtain ⟨⟨t, -, rfl⟩, hx⟩ := hD.rely hrely
  obtain ⟨did, h, hstrict⟩ := hD.answer hans
  have hne : ∀ d, Op.redis .groupCache (.get (.cacheGroup groupId)) ≠ .db d := by rintro d ⟨⟩
  have hdb := answer_db_eq hne h
  refine ⟨hD.guar _ _, ?_⟩
  have hans : strict → r = .ok (w.redis.lookup w.now (.cacheGroup groupId)) := by
    intro hs
    obtain ⟨c, hr, -⟩ := hstrict hs
    rw [hx hs] at hr
    exact hr
  rcases r with e | _ | raw
  · -- A failed read is counted, and is a miss.
    refine wp_bind.mpr ((hD.stable w.db).quiet (.metric _) (by rintro d ⟨⟩) hdb ?_)
    rintro (_ | _) z hz <;> exact hQ _ z hz fun hs => by cases hans hs
  · refine hQ _ y hdb fun hs => ?_
    rw [cachedGroup, ← Except.ok.inj (hans hs)]
    rfl
  · refine hQ _ y hdb fun hs => ?_
    rw [cachedGroup, ← Except.ok.inj (hans hs)]
    rfl

/-- What `getGroupById` answers a user who is not a member: a cached group exists for it. -/
def cachedDenial (lib : Lib) (w : World) (groupId : Id) : Err :=
  if (cachedGroup lib w groupId).isSome then GroupService.notGroupMember
  else memberDenial w.db groupId

/-- A member is shown the group, and nothing happens. -/
theorem getGroupById_outcome (hD : Sequential lib D strict) (env : Env) (userId groupId : Id) :
    wp D (Outcome strict w.db (userId ∈ w.db.memberIds groupId) (cachedDenial lib w groupId)
      fun _ => False) (GroupService.getGroupById env lib userId groupId) w := by
  have hs := hD.stable w.db
  unfold GroupService.getGroupById
  refine wp_bind.mpr (getCachedGroupById_wp hD ?_)
  rintro (e | _ | cached) x₁ hx₁ hcached
  · exact .unavailable hx₁ fun h => by cases hcached h
  -- On a miss the group is read from the tables, and written to the cache for members only.
  · have hmiss : strict → cachedDenial lib w groupId = memberDenial w.db groupId := by
      intro h
      rw [cachedDenial, ← Except.ok.inj (hcached h)]
      rfl
    refine wp_bind.mpr (hs.read (.group (.findGroupByIdWithMembers _)) rfl hx₁ ?_
      fun y hy h => .unavailable hy h)
    intro c x₂ hx₂
    rw [hx₂]
    refine wp_expect_bind.mpr ⟨fun group hgroup => ?_, fun hnone => ?_⟩
    · obtain ⟨g, hg, -⟩ := Option.map_eq_some_iff.mp hgroup
      refine wp_bind.mpr (hs.read (.group (.isGroupMember _ _)) rfl hx₂ ?_
        fun y hy h => .unavailable hy h)
      intro _ x₃ hx₃
      rw [hx₃]
      refine wp_ensure_bind.mpr ⟨fun hmem => ?_, fun _ => ?_⟩
      · have hadmits := Db.isSome_member?.mp hmem
        refine wp_mono (fun _ z hz => .unchanged hadmits hz) (hD.rest ?_ hx₃)
        refine .bind ?_ fun _ => trivial
        unfold GroupCache.setCachedGroupById
        refine .bind (.attempt (issues_op trivial)) fun r => ?_
        cases r
        · exact issues_op trivial
        · trivial
      · exact .inl ⟨hx₃, _, rfl, fun h _ => ((hmiss h).trans (memberDenial_of_some hg)).symm⟩
    · have hnone : w.db.group? groupId = none := Option.map_eq_none_iff.mp hnone
      exact .inl ⟨hx₂, _, rfl, fun h _ => ((hmiss h).trans (memberDenial_of_none hnone)).symm⟩
  -- On a hit the membership alone is asked for: the group itself is the cached one.
  · refine wp_bind.mpr (hs.read (.group (.isGroupMember _ _)) rfl hx₁ ?_
      fun y hy h => .unavailable hy h)
    intro _ x₂ hx₂
    rw [hx₂]
    refine wp_ensure_bind.mpr ⟨fun hmem => .unchanged (Db.isSome_member?.mp hmem) hx₂, fun _ => ?_⟩
    refine .inl ⟨hx₂, _, rfl, fun h _ => ?_⟩
    rw [cachedDenial, ← Except.ok.inj (hcached h)]
    rfl

/-! ## Expenses -/

/-- The requester is a member of the group of the expense. -/
def SeesExpense (db : Db) (expenseId requesterId : Id) : Prop :=
  ∃ e, db.expense? expenseId = some e ∧ requesterId ∈ db.memberIds e.groupId

/-- What a call on an expense answers a user who is not a member of its group. -/
def expenseDenial (db : Db) (expenseId : Id) : Err :=
  if (db.expense? expenseId).isSome then GroupService.notGroupMember
  else ExpenseService.expenseNotFound

/-- Who is not a member of the expense's group is told so. -/
theorem expenseDenial_of_some {db : Db} {expenseId : Id} {e : Expense}
    (h : db.expense? expenseId = some e) :
    expenseDenial db expenseId = ExpenseService.notGroupMember := by
  rw [expenseDenial, h]
  rfl

/-- A missing expense is not found. -/
theorem expenseDenial_of_none {db : Db} {expenseId : Id} (h : db.expense? expenseId = none) :
    expenseDenial db expenseId = ExpenseService.expenseNotFound := by
  rw [expenseDenial, h]
  rfl

/-- The search for the expense with which the calls on it begin. -/
theorem expenseCheck_wp (hD : Sequential lib D strict) {requesterId expenseId : Id}
    {commits : Db → Prop} {rest : ExpenseWithDetails → Act α}
    (h : ∀ c e y, y.db = w.db → w.db.expense? expenseId = some e →
      wp D (Outcome strict w.db (SeesExpense w.db expenseId requesterId)
        (expenseDenial w.db expenseId) commits) (rest (e.details c w.db byCreatedAt)) y) :
    wp D (Outcome strict w.db (SeesExpense w.db expenseId requesterId)
      (expenseDenial w.db expenseId) commits)
      ((ExpenseRepository.findExpenseById expenseId).bind fun expense =>
        (Prog.expect expense ExpenseService.expenseNotFound).bind rest) w := by
  refine wp_bind.mpr ((hD.stable w.db).read (.expense (.findExpenseById _)) rfl rfl ?_
    fun y hy hs => .unavailable hy hs)
  intro c x₁ hx₁
  rw [hx₁]
  refine wp_expect_bind.mpr ⟨fun expense hexpense => ?_, fun hnone => ?_⟩
  · obtain ⟨e, he, rfl⟩ := Option.map_eq_some_iff.mp hexpense
    exact h c e x₁ hx₁ he
  · exact .denied hx₁ (expenseDenial_of_none (Option.map_eq_none_iff.mp hnone))

/-- What the transaction of `createExpense` makes of the tables `d`. The payer and the participants
are members. -/
def CreatesExpense (input : CreateExpenseInput) (d d' : Db) : Prop :=
  ∃ memberIds splits date, (∀ u, u ∈ memberIds ↔ u ∈ d.memberIds input.groupId) ∧
    input.payerId ∈ memberIds ∧
    ExpenseService.reconcileSplits input.splitType input.amountMinorUnits input.participants
      memberIds = .ok splits ∧
    ∃ c now a r, (createExpenseWithSplits c now
      { groupId := input.groupId, paidById := input.payerId, description := input.description,
        amountMinorUnits := input.amountMinorUnits, currencyCode := "PKR",
        splitType := input.splitType, expenseDate := date, splits } a).eval d = .ok (r, d')

/-- A member creates an expense, or nothing happens. -/
theorem createExpense_outcome (hD : Sequential lib D strict) (requesterId : Id)
    (input : CreateExpenseInput) :
    wp D (Outcome strict w.db (requesterId ∈ w.db.memberIds input.groupId)
      (memberDenial w.db input.groupId) (CreatesExpense input w.db))
      (ExpenseService.createExpense requesterId input) w := by
  have hs := hD.stable w.db
  unfold ExpenseService.createExpense
  refine groupCheck_wp (hs.read (.expense (.findGroupById _)) rfl rfl) fun g x₁ hx₁ hg => ?_
  refine wp_bind.mpr (hs.read (.expense (.findGroupMemberIds _)) rfl hx₁ ?_
    fun y hy h => .unavailable hy h)
  intro c x₂ hx₂
  rw [hx₂]
  refine wp_ensure_bind.mpr ⟨fun hmem => ?_, fun _ => .denied hx₂ (memberDenial_of_some hg)⟩
  -- The requester is a member, so that every refusal from here on leaves the tables.
  have hadmits := mem_findGroupMemberIds.mp hmem
  refine wp_ensure_bind.mpr ⟨fun hpayer => ?_, fun _ => .unchanged hadmits hx₂⟩
  refine wp_ofExcept_bind.mpr ⟨fun splits hsplits => ?_, fun _ _ => .unchanged hadmits hx₂⟩
  refine wp_bind.mpr (hs.dateOrNow hx₂ ?_)
  rintro (_ | date) x₃ hx₃
  · exact .unchanged hadmits hx₃
  refine admitted_bind hD hadmits ?_ fun e => .bind (issues_op trivial) fun _ => trivial
  exact transaction_wp hD (.expense (.createExpenseWithSplits _ _)) rfl hx₃ _
    fun c' now r d' h => ⟨_, splits, date, fun u => mem_findGroupMemberIds, hpayer, hsplits,
      c', now, _, r, h⟩

/-- A member is shown the expense, and nothing happens. -/
theorem getExpenseById_outcome (hD : Sequential lib D strict) (requesterId expenseId : Id) :
    wp D (Outcome strict w.db (SeesExpense w.db expenseId requesterId)
      (expenseDenial w.db expenseId) fun _ => False)
      (ExpenseService.getExpenseById requesterId expenseId) w := by
  have hs := hD.stable w.db
  unfold ExpenseService.getExpenseById
  refine expenseCheck_wp hD fun c e x₁ hx₁ he => ?_
  refine wp_bind.mpr (assertMemberOfGroup_wp hs hx₁ ?_ ?_ fun y hy h => .unavailable hy h)
  · exact fun y hy hmem => .unchanged ⟨e, he, hy ▸ hmem⟩ hy
  · exact fun y hy _ => .denied hy (expenseDenial_of_some he)

/-- What the transaction of `updateExpense` makes of the tables `d`, where the splits are those of
the expense that it read. -/
def UpdatesExpense (expenseId : Id) (input : UpdateExpenseInput) (d d' : Db) : Prop :=
  ∃ e memberIds splits, d.expense? expenseId = some e ∧
    (∀ u, u ∈ memberIds ↔ u ∈ d.memberIds e.groupId) ∧
    input.payerId.getD e.paidById ∈ memberIds ∧
    (∃ c, ExpenseService.nextSplits (e.details c d byCreatedAt) input memberIds = .ok splits) ∧
    ∃ c now a r, (updateExpenseWithSplits c now expenseId
      { paidById := input.payerId.getD e.paidById
        description := input.description.getD e.description
        amountMinorUnits := input.amountMinorUnits.getD e.amountMinorUnits
        splitType := input.splitType.getD e.splitType
        expenseDate := input.expenseDate.getD e.expenseDate
        splits } a).eval d = .ok (r, d')

/-- A member updates the expense, or nothing happens. -/
theorem updateExpense_outcome (hD : Sequential lib D strict) (requesterId expenseId : Id)
    (input : UpdateExpenseInput) :
    wp D (Outcome strict w.db (SeesExpense w.db expenseId requesterId)
      (expenseDenial w.db expenseId) (UpdatesExpense expenseId input w.db))
      (ExpenseService.updateExpense requesterId expenseId input) w := by
  have hs := hD.stable w.db
  unfold ExpenseService.updateExpense
  refine expenseCheck_wp hD fun c e x₁ hx₁ he => ?_
  refine wp_bind.mpr (hs.read (.expense (.findGroupMemberIds _)) rfl hx₁ ?_
    fun y hy h => .unavailable hy h)
  intro c' x₂ hx₂
  rw [hx₂]
  refine wp_ensure_bind.mpr ⟨fun hmem => ?_, fun _ => .denied hx₂ (expenseDenial_of_some he)⟩
  have hadmits : SeesExpense w.db expenseId requesterId := ⟨e, he, mem_findGroupMemberIds.mp hmem⟩
  refine wp_ensure_bind.mpr ⟨fun hpayer => ?_, fun _ => .unchanged hadmits hx₂⟩
  refine wp_ofExcept_bind.mpr ⟨fun splits hsplits => ?_, fun _ _ => .unchanged hadmits hx₂⟩
  refine admitted_bind hD hadmits ?_ fun _ => .bind (issues_op trivial) fun _ => trivial
  exact transaction_wp hD (.expense (.updateExpenseWithSplits _ _ _)) rfl hx₂ _
    fun c'' now r d' h => ⟨e, _, splits, he, fun u => mem_findGroupMemberIds, hpayer,
      ⟨c, hsplits⟩, c'', now, _, r, h⟩

/-- What the transaction of `deleteExpense` makes of the tables `d`. -/
def DeletesExpense (expenseId : Id) (d d' : Db) : Prop :=
  ∃ now a r, (deleteExpenseWithEvent now expenseId a).eval d = .ok (r, d')

/-- A member deletes the expense, or nothing happens. -/
theorem deleteExpense_outcome (hD : Sequential lib D strict) (requesterId expenseId : Id) :
    wp D (Outcome strict w.db (SeesExpense w.db expenseId requesterId)
      (expenseDenial w.db expenseId) (DeletesExpense expenseId w.db))
      (ExpenseService.deleteExpense requesterId expenseId) w := by
  have hs := hD.stable w.db
  unfold ExpenseService.deleteExpense
  refine expenseCheck_wp hD fun c e x₁ hx₁ he => ?_
  refine wp_bind.mpr (assertMemberOfGroup_wp hs hx₁ ?_ ?_ fun y hy h => .unavailable hy h)
  · intro y hy hmem
    refine admitted_bind hD ⟨e, he, hy ▸ hmem⟩ ?_ fun _ => issues_op trivial
    exact transaction_wp hD (.expense (.deleteExpenseWithEvent _ _)) rfl hy _
      fun _ now r d' h => ⟨now, _, r, h⟩
  · exact fun y hy _ => .denied hy (expenseDenial_of_some he)

/-- A member is shown the expenses, and nothing happens. -/
theorem getGroupExpenses_outcome (hD : Sequential lib D strict) (requesterId groupId : Id)
    (pagination : Option (ℕ × ℕ)) :
    wp D (Outcome strict w.db (requesterId ∈ w.db.memberIds groupId) (memberDenial w.db groupId)
      fun _ => False) (ExpenseService.getGroupExpenses requesterId groupId pagination) w := by
  have hs := hD.stable w.db
  unfold ExpenseService.getGroupExpenses
  refine groupCheck_wp (hs.read (.expense (.findGroupById _)) rfl rfl) fun g x₁ hx₁ hg => ?_
  refine wp_bind.mpr (assertMemberOfGroup_wp hs hx₁ ?_ ?_ fun y hy h => .unavailable hy h)
  · intro y hy hmem
    refine wp_mono (fun _ z hz => .unchanged (hy ▸ hmem) hz) (hD.rest ?_ hy)
    refine .bind (ExpenseRepository.issues_findExpensesByGroupId (.inl ⟨_, rfl⟩) (.inl ⟨_, rfl⟩)
      trivial) fun r => ?_
    cases pagination <;> trivial
  · exact fun y hy _ => .denied hy (memberDenial_of_some hg)

/-! ## Settlements -/

/-- The requester is a member of the group of the settlement. -/
def SeesSettlement (db : Db) (settlementId requesterId : Id) : Prop :=
  ∃ s, db.settlement? settlementId = some s ∧ requesterId ∈ db.memberIds s.groupId

/-- What a call on a settlement answers a user who is not a member of its group. -/
def settlementDenial (db : Db) (settlementId : Id) : Err :=
  if (db.settlement? settlementId).isSome then GroupService.notGroupMember
  else SettlementService.settlementNotFound

/-- Who is not a member of the settlement's group is told so. -/
theorem settlementDenial_of_some {db : Db} {settlementId : Id} {s : Settlement}
    (h : db.settlement? settlementId = some s) :
    settlementDenial db settlementId = SettlementService.notGroupMember := by
  rw [settlementDenial, h]
  rfl

/-- A missing settlement is not found. -/
theorem settlementDenial_of_none {db : Db} {settlementId : Id}
    (h : db.settlement? settlementId = none) :
    settlementDenial db settlementId = SettlementService.settlementNotFound := by
  rw [settlementDenial, h]
  rfl

/-- The user ids of the members that a query returns are the stored ones in some order. -/
theorem mem_findGroupMembers {c : Choice} {before : GroupMember → GroupMember → Bool} {db : Db}
    {groupId u : Id} :
    u ∈ ((c.arrange (·.id) before (db.membersOf groupId)).map fun m =>
      (⟨m.userId, db.safeUser m.userId⟩ : MemberWithUser)).map (·.userId) ↔
      u ∈ db.memberIds groupId := by
  rw [List.map_map]
  exact ((c.arrange_perm (·.id) before (db.membersOf groupId)).map (·.userId)).mem_iff

/-- The membership check of the settlement service. -/
theorem settlementMemberCheck_wp (hD : Sequential lib D strict) {d : Db} {x : World} (hx : x.db = d)
    {requesterId groupId : Id} {Q : Except Err Unit → World → Prop}
    (hok : ∀ y, y.db = d → requesterId ∈ d.memberIds groupId → Q (.ok ()) y)
    (hno : ∀ y, y.db = d → Q (.error SettlementService.notGroupMember) y)
    (herr : ∀ y, y.db = d → ¬strict → Q (.error (.prisma .unavailable)) y) :
    wp D Q (SettlementService.assertMemberOfGroup requesterId groupId) x := by
  refine wp_bind.mpr ((hD.stable d).read (.settlement (.findGroupMembers _)) rfl hx ?_ herr)
  intro c y hy
  rw [hy]
  exact wp_ensure.mpr ⟨fun hmem => hok y hy (mem_findGroupMembers.mp hmem), fun _ => hno y hy⟩

/-- A member is shown the balances, and nothing happens. -/
theorem getGroupBalances_outcome (hD : Sequential lib D strict) (requesterId groupId : Id) :
    wp D (Outcome strict w.db (requesterId ∈ w.db.memberIds groupId) (memberDenial w.db groupId)
      fun _ => False) (SettlementService.getGroupBalances requesterId groupId) w := by
  have hs := hD.stable w.db
  unfold SettlementService.getGroupBalances
  refine groupCheck_wp (hs.read (.settlement (.findGroupById _)) rfl rfl) fun g x₁ hx₁ hg => ?_
  refine wp_bind.mpr (hs.read (.settlement (.findGroupMembers _)) rfl hx₁ ?_
    fun y hy h => .unavailable hy h)
  intro c x₂ hx₂
  rw [hx₂]
  refine wp_ensure_bind.mpr ⟨fun hmem => ?_, fun _ => .denied hx₂ (memberDenial_of_some hg)⟩
  have hadmits := mem_findGroupMembers.mp hmem
  refine wp_mono (fun _ z hz => .unchanged hadmits hz) (hD.rest ?_ hx₂)
  refine .bind (issues_op (.inl ⟨_, rfl⟩)) fun expenses => ?_
  exact .bind (issues_op (.inl ⟨_, rfl⟩)) fun settlements => trivial

/-- The transaction of `createSettlement`. -/
def ClaimsAndSettles (input : CreateSettlementInput) (d d' : Db) : Prop :=
  ∃ existing data context a expiresAt now s, data.groupId = input.groupId ∧
    data.payerId = input.payerId ∧ data.payeeId = input.payeeId ∧
    (claimAndSettle now existing data context a expiresAt).eval d = .ok (s, d')

/-- What `createSettlement` makes of the tables `d`. The payer and the payee are members. -/
def CreatesSettlement (input : CreateSettlementInput) (d d' : Db) : Prop :=
  input.payerId ∈ d.memberIds input.groupId ∧ input.payeeId ∈ d.memberIds input.groupId ∧
    Relation.ReflTransGen (ClaimsAndSettles input) d d'

/-- The write makes of any tables what the transaction of `createSettlement` may. -/
def WritesClaim (input : CreateSettlementInput) (o : DbOp) : Prop :=
  ∃ t, o.access = .write t ∧
    ∀ c now d r d', (t c now).eval d = .ok (r, d') → ClaimsAndSettles input d d'

/-- A member settles, or nothing happens. -/
theorem createSettlement_outcome (hD : Sequential lib D strict) (env : Env) (requesterId : Id)
    (input : CreateSettlementInput) (idempotency : IdempotencyContext) :
    wp D (Outcome strict w.db (requesterId ∈ w.db.memberIds input.groupId)
      (memberDenial w.db input.groupId) (CreatesSettlement input w.db))
      (SettlementService.createSettlement env requesterId input idempotency) w := by
  have hs := hD.stable w.db
  unfold SettlementService.createSettlement
  refine groupCheck_wp (hs.read (.settlement (.findGroupById _)) rfl rfl) fun g x₁ hx₁ hg => ?_
  refine wp_bind.mpr (hs.read (.settlement (.findGroupMembers _)) rfl hx₁ ?_
    fun y hy h => .unavailable hy h)
  intro c x₂ hx₂
  rw [hx₂]
  refine wp_ensure_bind.mpr ⟨fun hmem => ?_, fun _ => .denied hx₂ (memberDenial_of_some hg)⟩
  have hadmits := mem_findGroupMembers.mp hmem
  refine wp_ensure_bind.mpr ⟨fun _ => ?_, fun _ => .unchanged hadmits hx₂⟩
  refine wp_ensure_bind.mpr ⟨fun hpayer => ?_, fun _ => .unchanged hadmits hx₂⟩
  refine wp_ensure_bind.mpr ⟨fun hpayee => ?_, fun _ => .unchanged hadmits hx₂⟩
  -- The rest may settle, and does nothing else to the tables.
  have hsettles : ∀ data : Prisma.SettlementCreateData, data.groupId = input.groupId →
      data.payerId = input.payerId → data.payeeId = input.payeeId → ∀ a existing expiresAt,
      ReadsOr (WritesClaim input)
        (.settlement (.claimAndSettle existing data idempotency a expiresAt)) :=
    fun data hg hp hq a existing expiresAt => .inr ⟨_, rfl, fun _ now _ s _ h =>
      ⟨existing, data, idempotency, a, expiresAt, now, s, hg, hp, hq, h⟩⟩
  have hdone : ∀ d', Relation.ReflTransGen (ClaimsAndSettles input) w.db d' →
      CreatesSettlement input w.db d' :=
    fun d' h => ⟨mem_findGroupMembers.mp hpayer, mem_findGroupMembers.mp hpayee, h⟩
  refine wp_mono (fun _ z hz => .committed hadmits (hdone z.db hz)) (hD.keeps
    (T := WritesClaim input) ?_ (.tryCatch ?_ fun e => ?_) (hx₂ ▸ .refl))
  · rintro o ⟨t, ht, hstep⟩ t' ht' c' now d r d' hd heval
    obtain rfl := Access.write.inj (ht.symm.trans ht')
    exact hd.tail (hstep c' now d r d' heval)
  · refine .bind (DistributedLock.issues_withLock (.bind (issues_op trivial) fun settledAt => ?_))
      fun s => .bind (issues_op trivial) fun _ => trivial
    exact SettlementRepository.issues_createSettlement (fun _ => .inl ⟨_, rfl⟩)
      (fun _ => .inl ⟨_, rfl⟩)
      fun existing expiresAt => hsettles _ rfl rfl rfl _ existing expiresAt
  · split <;> trivial

/-- A member is shown the settlements, and nothing happens. -/
theorem getGroupSettlements_outcome (hD : Sequential lib D strict) (requesterId groupId : Id)
    (pagination : Option (ℕ × ℕ)) :
    wp D (Outcome strict w.db (requesterId ∈ w.db.memberIds groupId) (memberDenial w.db groupId)
      fun _ => False) (SettlementService.getGroupSettlements requesterId groupId pagination) w := by
  have hs := hD.stable w.db
  unfold SettlementService.getGroupSettlements
  refine groupCheck_wp (hs.read (.settlement (.findGroupById _)) rfl rfl) fun g x₁ hx₁ hg => ?_
  refine wp_bind.mpr (settlementMemberCheck_wp hD hx₁ ?_ ?_ fun y hy h => .unavailable hy h)
  · intro y hy hmem
    refine wp_mono (fun _ z hz => .unchanged hmem hz) (hD.rest ?_ hy)
    refine .bind (SettlementRepository.issues_findSettlementsByGroupId (.inl ⟨_, rfl⟩)
      (.inl ⟨_, rfl⟩) trivial) fun r => ?_
    cases pagination <;> trivial
  · exact fun y hy => .denied hy (memberDenial_of_some hg)

/-- A member is shown the settlement, and nothing happens. -/
theorem getSettlementById_outcome (hD : Sequential lib D strict) (requesterId settlementId : Id) :
    wp D (Outcome strict w.db (SeesSettlement w.db settlementId requesterId)
      (settlementDenial w.db settlementId) fun _ => False)
      (SettlementService.getSettlementById requesterId settlementId) w := by
  have hs := hD.stable w.db
  unfold SettlementService.getSettlementById
  refine wp_bind.mpr (hs.read (.settlement (.findSettlementById _)) rfl rfl ?_
    fun y hy h => .unavailable hy h)
  intro c x₁ hx₁
  rw [hx₁]
  refine wp_expect_bind.mpr ⟨fun record hrecord => ?_, fun hnone => ?_⟩
  · obtain ⟨s, hsome, rfl⟩ := Option.map_eq_some_iff.mp hrecord
    refine wp_bind.mpr (settlementMemberCheck_wp hD hx₁ ?_ ?_ fun y hy h => .unavailable hy h)
    · exact fun y hy hmem => .unchanged ⟨s, hsome, hmem⟩ hy
    · exact fun y hy => .denied hy (settlementDenial_of_some hsome)
  · exact .denied hx₁ (settlementDenial_of_none (Option.map_eq_none_iff.mp hnone))

/-! ## Activity and summaries -/

/-- A member is shown the activity, and nothing happens. -/
theorem getGroupActivity_outcome (hD : Sequential lib D strict) (requesterId groupId : Id)
    (page limit : ℕ) :
    wp D (Outcome strict w.db (requesterId ∈ w.db.memberIds groupId) (memberDenial w.db groupId)
      fun _ => False) (ActivityService.getGroupActivity requesterId groupId page limit) w := by
  have hs := hD.stable w.db
  unfold ActivityService.getGroupActivity
  refine memberCheck_wp (hs.read (.activity (.findGroupById _)) rfl rfl)
    (hs.read (.activity (.isGroupMember _ _)) rfl) fun x hx hmem => ?_
  refine wp_mono (fun _ z hz => .unchanged hmem hz) (hD.rest ?_ hx)
  exact .bind (issues_promiseAll (issues_op (.inl ⟨_, rfl⟩)) (issues_op (.inl ⟨_, rfl⟩)) trivial)
    fun events => trivial

/-- A member is shown the summary, and nothing happens to the tables. -/
theorem getGroupSummary_outcome (hD : Sequential lib D strict) (requesterId groupId : Id) :
    wp D (Outcome strict w.db (requesterId ∈ w.db.memberIds groupId) (memberDenial w.db groupId)
      fun _ => False) (SummaryService.getGroupSummary requesterId groupId) w := by
  have hs := hD.stable w.db
  unfold SummaryService.getGroupSummary
  refine memberCheck_wp (hs.read (.summary (.findGroupById _)) rfl rfl)
    (hs.read (.summary (.isGroupMember _ _)) rfl) fun x hx hmem => ?_
  refine wp_mono (fun _ z hz => .unchanged hmem hz) (hD.rest ?_ hx)
  refine .bind (issues_op (.inl ⟨_, rfl⟩)) fun summary => ?_
  exact .bind (Prog.issues_expect _ _ _) fun summary => trivial

/-- A member has the summary recomputed, and nothing happens to the tables. -/
theorem enqueueGroupSummaryRecompute_outcome (hD : Sequential lib D strict) (env : Env)
    (requesterId groupId : Id) (requestId : Option String) :
    wp D (Outcome strict w.db (requesterId ∈ w.db.memberIds groupId) (memberDenial w.db groupId)
      fun _ => False)
      (SummaryService.enqueueGroupSummaryRecompute env requesterId groupId requestId) w := by
  have hs := hD.stable w.db
  unfold SummaryService.enqueueGroupSummaryRecompute
  refine memberCheck_wp (hs.read (.summary (.findGroupById _)) rfl rfl)
    (hs.read (.summary (.isGroupMember _ _)) rfl) fun x hx hmem => ?_
  refine wp_mono (fun _ z hz => .unchanged hmem hz) (hD.rest ?_ hx)
  refine .bind (.attempt (.bind (JobQueue.issues_enqueue _ _ _ _ _ _) fun _ => trivial)) fun r => ?_
  rcases r with e | job
  · exact .bind (issues_op trivial) fun _ => trivial
  · trivial

end

end SplitBill
