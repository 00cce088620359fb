import SplitBill.Calls
import SplitBill.Pages

/-!
# The lists of a group in the client

The loops of `expenses_remote_data_source.dart` and `settlements_remote_data_source.dart` in
`src/frontend/lib/features`, and what the backend answers to their requests
(`expense.controller.ts`, `settlement.controller.ts`, `utils/pagination.ts`). The JSON in between is
left out: the client's `ExpenseSummary` and `Settlement` have the fields of the backend's DTOs.
-/

namespace SplitBill

open Interleave

/-- `PaginationQuery`: what `paginationQuerySchema` lets through. -/
structure PaginationQuery where
  page : Option ℕ+
  limit : Option {n : ℕ // 1 ≤ n ∧ n ≤ 50}

/-- The `pagination` that a controller makes of a query. -/
def PaginationQuery.pagination (query : PaginationQuery) : Option (ℕ × ℕ) :=
  if query.page.isSome = true ∨ query.limit.isSome = true then
    some (query.page.elim 1 (·), query.limit.elim 20 (·))
  else none

/-- `getGroupExpenses` of the controller. -/
def ExpenseController.getGroupExpenses (requesterId groupId : Id) (query : PaginationQuery) :
    Act ExpenseListPage :=
  ExpenseService.getGroupExpenses requesterId groupId query.pagination

/-- `getGroupSettlements` of the controller. -/
def SettlementController.getGroupSettlements (requesterId groupId : Id) (query : PaginationQuery) :
    Act SettlementListPage :=
  SettlementService.getGroupSettlements requesterId groupId query.pagination

namespace Frontend

/-- The query of a request of a loop. -/
def pageQuery (page : ℕ+) : PaginationQuery := ⟨some page, some ⟨pageSize, by decide⟩⟩

/-- `getGroupExpenses` of the data source, which sends `fuel` requests at most. -/
def ExpensesRemoteDataSource.getGroupExpenses (requesterId groupId : Id) (fuel : ℕ) :
    Act (Option (List ExpenseSummaryDto)) :=
  fetchAll (fun page => do
    let decoded ← ExpenseController.getGroupExpenses requesterId groupId (pageQuery page)
    return ⟨decoded.expenses, decoded.pagination.map fun p => some (p.total : ℤ)⟩) fuel firstPage []

/-- `getGroupSettlements` of the data source, which sends `fuel` requests at most. -/
def SettlementsRemoteDataSource.getGroupSettlements (requesterId groupId : Id) (fuel : ℕ) :
    Act (Option (List SettlementDto)) :=
  fetchAll (fun page => do
    let decoded ← SettlementController.getGroupSettlements requesterId groupId (pageQuery page)
    return ⟨decoded.settlements, decoded.pagination.map fun p =>
      some (p.total : ℤ)⟩) fuel firstPage []

end Frontend

/-! ## What the backend answers -/

section

variable {lib : Lib} {D : Discipline backend Err World} {d : Db} {x : World}
  {requesterId groupId : Id}

/-- A member is answered the page. -/
theorem getGroupExpenses_page_wp (hD : Sequential lib D True)
    (hgroup : (d.group? groupId).isSome = true) (hmember : requesterId ∈ d.memberIds groupId)
    (hx : x.db = d) (page limit : ℕ) {Q : Except Err ExpenseListPage → World → Prop}
    (hQ : ∀ c y, y.db = d → Q (.ok ⟨(expenseFindMany c d groupId
      (some (page, limit))).map ExpenseService.toSummaryDto,
      some ⟨page, limit, (d.expensesOf groupId).length⟩⟩) y) :
    wp D Q (ExpenseService.getGroupExpenses requesterId groupId (some (page, limit))) x := by
  have hs := hD.stable d
  unfold ExpenseService.getGroupExpenses
  apply wp_bind.mpr
  apply hs.read (.expense (.findGroupById _)) rfl hx
  swap
  · exact fun _ _ h => absurd trivial h
  intro _ x₁ hx₁
  rw [hx₁]
  apply wp_expect_bind.mpr
  constructor
  swap
  · intro hnone
    rw [hnone] at hgroup
    cases hgroup
  -- The group exists and the requester is a member, so that the pages are read.
  intro g _
  apply wp_bind.mpr
  apply assertMemberOfGroup_wp hs hx₁
  · intro x₂ hx₂ _
    apply wp_bind.mpr
    apply wp_bind.mpr
    apply hs.promiseAll (.expense (.findMany _ _)) (.expense (.count _)) rfl rfl hx₂
    · rintro c c' y₁ y₂ y hy₁ hy₂ hy
      rw [hy₁, hy₂]
      exact hQ c y hy
    · exact fun _ _ h => absurd trivial h
  · intro y hy hno
    rw [hy] at hno
    exact absurd hmember hno
  · exact fun _ _ h => absurd trivial h

/-- A member is answered the page. -/
theorem getGroupSettlements_page_wp (hD : Sequential lib D True)
    (hgroup : (d.group? groupId).isSome = true) (hmember : requesterId ∈ d.memberIds groupId)
    (hx : x.db = d) (page limit : ℕ) {Q : Except Err SettlementListPage → World → Prop}
    (hQ : ∀ c y, y.db = d → Q (.ok ⟨(settlementFindMany c d groupId
      (some (page, limit))).map SettlementService.toDto,
      some ⟨page, limit, (d.settlementsOf groupId).length⟩⟩) y) :
    wp D Q (SettlementService.getGroupSettlements requesterId groupId (some (page, limit))) x := by
  have hs := hD.stable d
  unfold SettlementService.getGroupSettlements
  apply wp_bind.mpr
  apply hs.read (.settlement (.findGroupById _)) rfl hx
  swap
  · exact fun _ _ h => absurd trivial h
  intro _ x₁ hx₁
  rw [hx₁]
  apply wp_expect_bind.mpr
  constructor
  swap
  · intro hnone
    rw [hnone] at hgroup
    cases hgroup
  intro g _
  apply wp_bind.mpr
  unfold SettlementService.assertMemberOfGroup
  apply wp_bind.mpr
  apply hs.read (.settlement (.findGroupMembers _)) rfl hx₁
  swap
  · exact fun _ _ h => absurd trivial h
  intro c₂ x₂ hx₂
  rw [hx₂]
  apply wp_ensure.mpr
  constructor
  swap
  · intro hno
    exact absurd (mem_findGroupMembers.mpr hmember) hno
  -- All guards are passed, and what is left are the two queries of the page.
  intro _
  apply wp_bind.mpr
  apply wp_bind.mpr
  apply hs.promiseAll (.settlement (.findMany _ _)) (.settlement (.count _)) rfl rfl hx₂
  · rintro c c' y₁ y₂ y hy₁ hy₂ hy
    rw [hy₁, hy₂]
    exact hQ c y hy
  · exact fun _ _ h => absurd trivial h

end

/-! ## Nothing is lost or repeated -/

/-- The order of expenses on the pages. -/
abbrev Expense.newer (a b : Expense) : Prop :=
  b.createdAt < a.createdAt ∨ a.createdAt = b.createdAt ∧ a.id < b.id

/-- The order of settlements on the pages. -/
abbrev Settlement.newer (a b : Settlement) : Prop :=
  b.settledAt < a.settledAt ∨ a.settledAt = b.settledAt ∧ a.id < b.id

/-- A timestamp, the latest first, and then an id. -/
def newestKey (t : Time) (id : Id) : ℕᵒᵈ ×ₗ ℕ := toLex (OrderDual.toDual t, id)

/-- The order of the keys. -/
theorem newestKey_lt {s t : Time} {i j : Id} :
    newestKey s i < newestKey t j ↔ t < s ∨ s = t ∧ i < j := by
  rw [newestKey, newestKey, Prod.Lex.toLex_lt_toLex]
  exact Iff.rfl

/-- A key is that of one row. -/
theorem newestKey_inj {s t : Time} {i j : Id} (h : newestKey s i = newestKey t j) : i = j :=
  congrArg (fun k => (ofLex k).2) h

/-- All pages of a list, if there are enough of them. -/
theorem flatMap_mapped_pages {α β : Type} {rows : List α} {limit pages : ℕ}
    (h : rows.length ≤ pages * limit) (f : α → β) {page : ℕ → List β}
    (hpage : ∀ p, page p = ((rows.drop ((p + 1 - 1) * limit)).take limit).map f) :
    (List.range pages).flatMap page = rows.map f :=
  calc (List.range pages).flatMap page
      = (List.range pages).flatMap fun p => ((rows.drop (p * limit)).take limit).map f :=
        List.flatMap_congr fun p _ => hpage p
    _ = ((List.range pages).flatMap fun p => (rows.drop (p * limit)).take limit).map f :=
        (List.map_flatMap ..).symm
    _ = rows.map f := by rw [flatMap_pages, List.take_of_length_le h]

section

variable {d : Db} {groupId : Id}

/-- The expenses of a group in the order of the pages. -/
def Db.newestExpenses (d : Db) (groupId : Id) : List Expense :=
  ({} : Choice).arrange (·.id) (fun a b => a.newer b) (d.expensesOf groupId)

/-- The settlements of a group in the order of the pages. -/
def Db.newestSettlements (d : Db) (groupId : Id) : List Settlement :=
  ({} : Choice).arrange (·.id) (fun a b => a.newer b) (d.settlementsOf groupId)

/-- The order of the expenses is that of their keys. -/
theorem newestKey_of_newer (a b : Expense) :
    decide (a.newer b) = true ↔ newestKey a.createdAt a.id < newestKey b.createdAt b.id := by
  rw [newestKey_lt, decide_eq_true_eq]

/-- The order of the settlements is that of their keys. -/
theorem newestKey_of_newer_settlement (a b : Settlement) :
    decide (a.newer b) = true ↔ newestKey a.settledAt a.id < newestKey b.settledAt b.id := by
  rw [newestKey_lt, decide_eq_true_eq]

/-- A page of expenses, whatever the database does with ties. -/
theorem expenseFindMany_page (hids : ((d.expensesOf groupId).map (·.id)).Nodup) (c : Choice)
    (page limit : ℕ) :
    expenseFindMany c d groupId (some (page, limit)) =
      (((d.newestExpenses groupId).drop ((page - 1) * limit)).take limit).map (·.summary d) := by
  have harrange := arrange_eq newestKey_of_newer (fun a b => newestKey_inj) hids c {}
  unfold expenseFindMany Db.newestExpenses
  rw [← harrange]

/-- A page of settlements, whatever the database does with ties. -/
theorem settlementFindMany_page (hids : ((d.settlementsOf groupId).map (·.id)).Nodup)
    (c : Choice) (page limit : ℕ) :
    settlementFindMany c d groupId (some (page, limit)) =
      (((d.newestSettlements groupId).drop ((page - 1) * limit)).take limit).map (·.record d) := by
  have harrange := arrange_eq newestKey_of_newer_settlement (fun a b => newestKey_inj) hids c {}
  unfold settlementFindMany Db.newestSettlements
  rw [← harrange]

/-- Each expense of the group stands in the list once, in order. -/
theorem newestExpenses_spec (hids : ((d.expensesOf groupId).map (·.id)).Nodup) :
    (d.newestExpenses groupId).Perm (d.expensesOf groupId) ∧
    (d.newestExpenses groupId).Pairwise Expense.newer := by
  refine ⟨Choice.arrange_perm _ _ _ _, ?_⟩
  have h := pairwise_before_arrange newestKey_of_newer (fun a b => newestKey_inj) hids {}
  exact h.imp fun hab => of_decide_eq_true hab

/-- Each settlement of the group stands in the list once, in order. -/
theorem newestSettlements_spec (hids : ((d.settlementsOf groupId).map (·.id)).Nodup) :
    (d.newestSettlements groupId).Perm (d.settlementsOf groupId) ∧
    (d.newestSettlements groupId).Pairwise Settlement.newer := by
  refine ⟨Choice.arrange_perm _ _ _ _, ?_⟩
  have h := pairwise_before_arrange newestKey_of_newer_settlement (fun a b => newestKey_inj) hids {}
  exact h.imp fun hab => of_decide_eq_true hab

variable {lib : Lib} {D : Discipline backend Err World} {requesterId : Id} {x : World} {fuel : ℕ}

/-- The loop reads a list whose pages and length every request is answered, row by row. -/
theorem fetchAll_mapped_wp {ρ α : Type} {rows : List ρ} {total : ℕ} (hlength : rows.length = total)
    (f : ρ → α) {fetch : ℕ+ → Act (ListResponse α)}
    (hfetch : ∀ (page : ℕ+) (R : Except Err (ListResponse α) → World → Prop) y, y.db = d →
      (∀ z, z.db = d → R (.ok ⟨((rows.drop ((page - 1) * pageSize)).take pageSize).map f,
        some (some total)⟩) z) → wp D R (fetch page) y)
    (hfuel : total < fuel * pageSize) (hx : x.db = d) :
    wp D (fun r y => y.db = d ∧ r = .ok (some (rows.map f))) (fetchAll fetch fuel firstPage [])
      x := by
  refine @fetchAll_wp _ _ D (fun y => y.db = d) (rows.map f) _ _ ?_ (fun y hy => ⟨hy, rfl⟩) fuel
    firstPage ?_ ?_ x hx
  · intro page R y hy hR
    apply hfetch page R y hy
    intro z hz
    have h := hR z hz
    rw [← List.map_drop, ← List.map_take, List.length_map, hlength] at h
    exact h
  · exact (Nat.zero_mul _).le.trans (Nat.zero_le _)
  · rw [List.length_map, hlength]
    exact hfuel.trans_le (by simp)

/-- The loop of the client reads all expenses of the group. -/
theorem getGroupExpenses_loop_wp (hD : Sequential lib D True)
    (hgroup : (d.group? groupId).isSome = true) (hmember : requesterId ∈ d.memberIds groupId)
    (hids : ((d.expensesOf groupId).map (·.id)).Nodup)
    (hfuel : (d.expensesOf groupId).length < fuel * pageSize) (hx : x.db = d) :
    wp D (fun r y => y.db = d ∧ r = .ok (some ((d.newestExpenses groupId).map fun e =>
      ExpenseService.toSummaryDto (e.summary d))))
      (Frontend.ExpensesRemoteDataSource.getGroupExpenses requesterId groupId fuel) x := by
  refine fetchAll_mapped_wp (newestExpenses_spec hids).1.length_eq _ ?_ hfuel hx
  intro page R y hy hR
  apply wp_bind.mpr
  apply getGroupExpenses_page_wp hD hgroup hmember hy
  intro c z hz
  rw [expenseFindMany_page hids, List.map_map]
  exact hR z hz

/-- The loop of the client reads all settlements of the group. -/
theorem getGroupSettlements_loop_wp (hD : Sequential lib D True)
    (hgroup : (d.group? groupId).isSome = true) (hmember : requesterId ∈ d.memberIds groupId)
    (hids : ((d.settlementsOf groupId).map (·.id)).Nodup)
    (hfuel : (d.settlementsOf groupId).length < fuel * pageSize) (hx : x.db = d) :
    wp D (fun r y => y.db = d ∧ r = .ok (some ((d.newestSettlements groupId).map fun s =>
      SettlementService.toDto (s.record d))))
      (Frontend.SettlementsRemoteDataSource.getGroupSettlements requesterId groupId fuel) x := by
  refine fetchAll_mapped_wp (newestSettlements_spec hids).1.length_eq _ ?_ hfuel hx
  intro page R y hy hR
  apply wp_bind.mpr
  apply getGroupSettlements_page_wp hD hgroup hmember hy
  intro c z hz
  rw [settlementFindMany_page hids, List.map_map]
  exact hR z hz

end

/-- The pages of a group's expenses and settlements together are the sorted lists, and the client's
loops return these. -/
theorem group_lists_complete {lib : Lib} {w : World} {requesterId groupId : Id}
    (hgroup : (w.db.group? groupId).isSome = true) (hmember : requesterId ∈ w.db.memberIds groupId)
    (hexpenses : ((w.db.expensesOf groupId).map (·.id)).Nodup)
    (hsettlements : ((w.db.settlementsOf groupId).map (·.id)).Nodup) :
    (∃ rows : List Expense, rows.Perm (w.db.expensesOf groupId) ∧ rows.Pairwise Expense.newer ∧
      (∀ (c : ℕ → Choice) (limit pages : ℕ), rows.length ≤ pages * limit →
        (List.range pages).flatMap (fun p =>
          expenseFindMany (c p) w.db groupId (some (p + 1, limit))) =
            rows.map (·.summary w.db)) ∧
      ∀ fuel, rows.length < fuel * pageSize →
        let loop := Frontend.ExpensesRemoteDataSource.getGroupExpenses requesterId groupId fuel
        (∃ r w', Exec (machine lib).answered Eq loop w r w') ∧
        ∀ r w', Exec (machine lib).answered Eq loop w r w' →
          r = .ok (some (rows.map fun e => ExpenseService.toSummaryDto (e.summary w.db)))) ∧
    ∃ rows : List Settlement, rows.Perm (w.db.settlementsOf groupId) ∧
      rows.Pairwise Settlement.newer ∧
      (∀ (c : ℕ → Choice) (limit pages : ℕ), rows.length ≤ pages * limit →
        (List.range pages).flatMap (fun p =>
          settlementFindMany (c p) w.db groupId (some (p + 1, limit))) =
            rows.map (·.record w.db)) ∧
      ∀ fuel, rows.length < fuel * pageSize →
        let loop :=
          Frontend.SettlementsRemoteDataSource.getGroupSettlements requesterId groupId fuel
        (∃ r w', Exec (machine lib).answered Eq loop w r w') ∧
        ∀ r w', Exec (machine lib).answered Eq loop w r w' →
          r = .ok (some (rows.map fun s => SettlementService.toDto (s.record w.db))) := by
  -- The rows are the group's in the order of the pages, which leaves no choice to the database.
  have hD := sequential_answered lib
  obtain ⟨heperm, hesorted⟩ := newestExpenses_spec hexpenses
  obtain ⟨hsperm, hssorted⟩ := newestSettlements_spec hsettlements
  refine ⟨⟨w.db.newestExpenses groupId, heperm, hesorted, ?_, ?_⟩,
    ⟨w.db.newestSettlements groupId, hsperm, hssorted, ?_, ?_⟩⟩
  · intro c limit pages hpages
    apply flatMap_mapped_pages hpages
    intro p
    rw [expenseFindMany_page hexpenses]
  · intro fuel hfuel loop
    refine ⟨⟨_, _, (machine lib).exec_answered {} loop w⟩, fun r w' hx => ?_⟩
    rw [heperm.length_eq] at hfuel
    exact (hx.sound (getGroupExpenses_loop_wp hD hgroup hmember hexpenses hfuel rfl)).2
  · intro c limit pages hpages
    apply flatMap_mapped_pages hpages
    intro p
    rw [settlementFindMany_page hsettlements]
  · intro fuel hfuel loop
    refine ⟨⟨_, _, (machine lib).exec_answered {} loop w⟩, fun r w' hx => ?_⟩
    rw [hsperm.length_eq] at hfuel
    exact (hx.sound (getGroupSettlements_loop_wp hD hgroup hmember hsettlements hfuel rfl)).2

/-- A group with three expenses and three settlements, two each of one instant. -/
def tiedRows : World where
  db :=
    { groups := [⟨10, "Trip", 1, 0, 0⟩]
      groupMembers := [⟨11, 10, 1, 0⟩]
      expenses := [⟨21, 10, 1, "Tea", 300, "PKR", .equal, 0, [], 5, 5⟩,
        ⟨22, 10, 1, "Taxi", 100, "PKR", .equal, 0, [], 7, 7⟩,
        ⟨20, 10, 1, "Food", 200, "PKR", .equal, 0, [], 5, 5⟩]
      settlements := [⟨31, 10, 1, 2, 40, "PKR", 5, 5, 5⟩, ⟨32, 10, 2, 1, 30, "PKR", 7, 7, 7⟩,
        ⟨30, 10, 1, 2, 20, "PKR", 5, 5, 5⟩] }

/-- Their pages of one row each, and what the client's loops return. -/
theorem group_lists_complete_tied :
    (∃ rows : List Expense, rows.Perm tiedRows.db.expenses ∧ rows.Pairwise Expense.newer ∧
      (∀ c : ℕ → Choice, (List.range 3).flatMap (fun p =>
        expenseFindMany (c p) tiedRows.db 10 (some (p + 1, 1))) =
          rows.map (·.summary tiedRows.db)) ∧
      let loop := Frontend.ExpensesRemoteDataSource.getGroupExpenses 1 10 1
      (∃ r w', Exec (machine .plain).answered Eq loop tiedRows r w') ∧
      ∀ r w', Exec (machine .plain).answered Eq loop tiedRows r w' →
        r = .ok (some (rows.map fun e => ExpenseService.toSummaryDto (e.summary tiedRows.db)))) ∧
    ∃ rows : List Settlement, rows.Perm tiedRows.db.settlements ∧
      rows.Pairwise Settlement.newer ∧
      (∀ c : ℕ → Choice, (List.range 3).flatMap (fun p =>
        settlementFindMany (c p) tiedRows.db 10 (some (p + 1, 1))) =
          rows.map (·.record tiedRows.db)) ∧
      let loop := Frontend.SettlementsRemoteDataSource.getGroupSettlements 1 10 1
      (∃ r w', Exec (machine .plain).answered Eq loop tiedRows r w') ∧
      ∀ r w', Exec (machine .plain).answered Eq loop tiedRows r w' →
        r = .ok (some (rows.map fun s => SettlementService.toDto (s.record tiedRows.db))) := by
  obtain ⟨⟨expenses, heperm, hesorted, hepages, heloop⟩,
      ⟨settlements, hsperm, hssorted, hspages, hsloop⟩⟩ :=
    @group_lists_complete .plain tiedRows 1 10 (by decide) (by decide) (by decide) (by decide)
  refine ⟨⟨expenses, heperm, hesorted, fun c => hepages c 1 3 ?_, heloop 1 ?_⟩,
    ⟨settlements, hsperm, hssorted, fun c => hspages c 1 3 ?_, hsloop 1 ?_⟩⟩
  · rw [heperm.length_eq]
    decide
  · rw [heperm.length_eq]
    decide
  · rw [hsperm.length_eq]
    decide
  · rw [hsperm.length_eq]
    decide

end SplitBill
