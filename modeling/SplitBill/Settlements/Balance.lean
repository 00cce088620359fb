import SplitBill.Js.Map
import SplitBill.Prisma

/-!
# Balances

`src/modules/settlements/balance.util.ts`. A payer is credited the amount of an expense and every
participant debited their share, and a settlement credits its sender and debits its receiver.

`netOf` is what the records say about one user, and `calculateBalances` is a table of it
(`get?_calculateBalances`). Each expense whose splits sum to its amount and each settlement move
money from some users to others, so the table sums to zero (`sum_calculateBalances`).
-/

namespace SplitBill

open Prisma (SplitAmount)
open Js (Map)

/-- `ExpenseForBalance`. -/
structure ExpenseForBalance where
  paidById : Id
  amountMinorUnits : ℤ
  splits : List SplitAmount
  deriving DecidableEq

/-- `SettlementForBalance`. -/
structure SettlementForBalance where
  payerId : Id
  payeeId : Id
  amountMinorUnits : ℤ
  deriving DecidableEq

/-- `credit`. -/
def credit (balances : Map Id ℤ) (userId : Id) (amount : ℤ) : Map Id ℤ :=
  balances.set userId ((balances.get? userId).getD 0 + amount)

/-- The body of the loop over the expenses. -/
def creditExpense (balances : Map Id ℤ) (expense : ExpenseForBalance) : Map Id ℤ :=
  expense.splits.foldl (fun b split => credit b split.userId (-split.amountMinorUnits))
    (credit balances expense.paidById expense.amountMinorUnits)

/-- The body of the loop over the settlements. -/
def creditSettlement (balances : Map Id ℤ) (settlement : SettlementForBalance) : Map Id ℤ :=
  credit (credit balances settlement.payerId settlement.amountMinorUnits) settlement.payeeId
    (-settlement.amountMinorUnits)

/-- `calculateBalances`. -/
def calculateBalances (expenses : List ExpenseForBalance)
    (settlements : List SettlementForBalance) : Map Id ℤ :=
  settlements.foldl creditSettlement (expenses.foldl creditExpense .empty)

/-! ## What one user is owed -/

/-- The total of a user's shares. -/
def shareOf (splits : List SplitAmount) (u : Id) : ℤ :=
  (splits.map fun s => if s.userId = u then s.amountMinorUnits else 0).sum

/-- What an expense contributes to a user's balance. -/
def ExpenseForBalance.netOf (e : ExpenseForBalance) (u : Id) : ℤ :=
  (if e.paidById = u then e.amountMinorUnits else 0) - shareOf e.splits u

/-- What a settlement contributes to a user's balance. -/
def SettlementForBalance.netOf (s : SettlementForBalance) (u : Id) : ℤ :=
  (if s.payerId = u then s.amountMinorUnits else 0) -
    (if s.payeeId = u then s.amountMinorUnits else 0)

/-- What expenses and settlements contribute to a user's balance. -/
def netOf (expenses : List ExpenseForBalance) (settlements : List SettlementForBalance) (u : Id) :
    ℤ :=
  (expenses.map (·.netOf u)).sum + (settlements.map (·.netOf u)).sum

/-- Who has no share among the splits owes nothing. -/
theorem shareOf_eq_zero {splits : List SplitAmount} {u : Id} (h : u ∉ splits.map (·.userId)) :
    shareOf splits u = 0 := by
  refine List.sum_eq_zero fun a ha => ?_
  obtain ⟨s, hs, rfl⟩ := List.mem_map.mp ha
  refine if_neg fun hu => h ?_
  exact hu ▸ List.mem_map_of_mem hs

/-- Who has one share among the splits owes that share. -/
theorem shareOf_eq {splits : List SplitAmount} (h : (splits.map (·.userId)).Nodup)
    {s : SplitAmount} (hs : s ∈ splits) : shareOf splits s.userId = s.amountMinorUnits := by
  induction splits with
  | nil => cases hs
  | cons x xs ih =>
    rw [List.map_cons, List.nodup_cons] at h
    have hcons : ∀ u, shareOf (x :: xs) u =
        (if x.userId = u then x.amountMinorUnits else 0) + shareOf xs u := fun u => rfl
    rw [hcons]
    rcases List.mem_cons.mp hs with rfl | hs
    · rw [if_pos rfl, shareOf_eq_zero h.1, add_zero]
    · have hne : x.userId ≠ s.userId := fun hu => h.1 (hu.symm ▸ List.mem_map_of_mem hs)
      rw [if_neg hne, ih h.2 hs, zero_add]

/-- The order of the splits does not matter. -/
theorem shareOf_perm {xs ys : List SplitAmount} (h : xs.Perm ys) (u : Id) :
    shareOf xs u = shareOf ys u := (h.map _).sum_eq

/-- Who neither paid an expense nor has a share of it is not concerned by it. -/
theorem ExpenseForBalance.netOf_eq_zero {e : ExpenseForBalance} {u : Id} (hp : e.paidById ≠ u)
    (hs : u ∉ e.splits.map (·.userId)) : e.netOf u = 0 := by
  rw [ExpenseForBalance.netOf, if_neg hp, shareOf_eq_zero hs, sub_zero]

/-- A credit raises one balance. -/
theorem get?_credit (b : Map Id ℤ) (k u : Id) (amount : ℤ) :
    ((credit b k amount).get? u).getD 0 =
      (b.get? u).getD 0 + if k = u then amount else 0 := by
  rw [credit, Map.get?_set]
  by_cases h : k = u
  · subst h; simp
  · simp [h]

/-- An expense moves each balance by what it means for that person. -/
theorem get?_creditExpense (b : Map Id ℤ) (e : ExpenseForBalance) (u : Id) :
    ((creditExpense b e).get? u).getD 0 = (b.get? u).getD 0 + e.netOf u := by
  have hfold : ∀ (splits : List SplitAmount) (m : Map Id ℤ),
      ((splits.foldl (fun b s => credit b s.userId (-s.amountMinorUnits)) m).get? u).getD 0 =
        (m.get? u).getD 0 - shareOf splits u := by
    intro splits
    induction splits with
    | nil => intro m; simp [shareOf]
    | cons s ss ih =>
      intro m
      rw [List.foldl_cons, ih, get?_credit]
      simp only [shareOf, List.map_cons, List.sum_cons]
      split <;> ring
  rw [creditExpense, hfold, get?_credit, ExpenseForBalance.netOf]
  ring

/-- A settlement moves each balance by what it means for that person. -/
theorem get?_creditSettlement (b : Map Id ℤ) (s : SettlementForBalance) (u : Id) :
    ((creditSettlement b s).get? u).getD 0 = (b.get? u).getD 0 + s.netOf u := by
  rw [creditSettlement, get?_credit, get?_credit, SettlementForBalance.netOf]
  split <;> split <;> ring

/-- A loop whose body adds `net x u` to the entry of `u` adds up the nets. -/
theorem get?_foldl {α : Type} (step : Map Id ℤ → α → Map Id ℤ) (net : α → ℤ) (u : Id)
    (hstep : ∀ b x, ((step b x).get? u).getD 0 = (b.get? u).getD 0 + net x) (xs : List α)
    (b : Map Id ℤ) :
    ((xs.foldl step b).get? u).getD 0 = (b.get? u).getD 0 + (xs.map net).sum := by
  induction xs generalizing b with
  | nil => simp
  | cons x xs ih =>
    rw [List.foldl_cons, ih, hstep, List.map_cons, List.sum_cons]
    ring

/-- The entry of a user, where a missing one counts as zero, is what the records say. -/
theorem get?_calculateBalances (expenses : List ExpenseForBalance)
    (settlements : List SettlementForBalance) (u : Id) :
    ((calculateBalances expenses settlements).get? u).getD 0 = netOf expenses settlements u := by
  rw [calculateBalances, get?_foldl creditSettlement (·.netOf u) u
    (fun b s => get?_creditSettlement b s u), get?_foldl creditExpense (·.netOf u) u
    (fun b e => get?_creditExpense b e u)]
  simp [netOf]

/-! ## The sum of all balances -/

/-- The splits of an expense sum to its amount. -/
def ExpenseForBalance.Balanced (e : ExpenseForBalance) : Prop :=
  (e.splits.map (·.amountMinorUnits)).sum = e.amountMinorUnits

/-- A credit raises the sum of the balances. -/
theorem sum_credit (b : Map Id ℤ) (k : Id) (amount : ℤ) :
    (credit b k amount).values.sum = b.values.sum + amount := by
  rw [credit, Map.sum_values_set]
  ring

/-- A balanced expense leaves the sum of the balances. -/
theorem sum_creditExpense (b : Map Id ℤ) {e : ExpenseForBalance} (h : e.Balanced) :
    (creditExpense b e).values.sum = b.values.sum := by
  have hfold : ∀ (splits : List SplitAmount) (m : Map Id ℤ),
      (splits.foldl (fun b s => credit b s.userId (-s.amountMinorUnits)) m).values.sum =
        m.values.sum - (splits.map (·.amountMinorUnits)).sum := by
    intro splits
    induction splits with
    | nil => intro m; simp
    | cons s ss ih =>
      intro m
      rw [List.foldl_cons, ih, sum_credit, List.map_cons, List.sum_cons]
      ring
  rw [creditExpense, hfold, sum_credit, h]
  ring

/-- A settlement leaves the sum of the balances. -/
theorem sum_creditSettlement (b : Map Id ℤ) (s : SettlementForBalance) :
    (creditSettlement b s).values.sum = b.values.sum := by
  rw [creditSettlement, sum_credit, sum_credit]
  ring

/-- All balances sum to zero. -/
theorem sum_calculateBalances {expenses : List ExpenseForBalance}
    (h : ∀ e ∈ expenses, e.Balanced) (settlements : List SettlementForBalance) :
    (calculateBalances expenses settlements).values.sum = 0 := by
  have hexpenses : ∀ (es : List ExpenseForBalance) (b : Map Id ℤ), (∀ e ∈ es, e.Balanced) →
      (es.foldl creditExpense b).values.sum = b.values.sum := by
    intro es
    induction es with
    | nil => intro b _; rfl
    | cons e es ih =>
      intro b hes
      rw [List.foldl_cons, ih _ fun x hx => hes x (List.mem_cons_of_mem _ hx),
        sum_creditExpense b (hes e List.mem_cons_self)]
  have hsettlements : ∀ (ss : List SettlementForBalance) (b : Map Id ℤ),
      (ss.foldl creditSettlement b).values.sum = b.values.sum := by
    intro ss
    induction ss with
    | nil => intro b; rfl
    | cons s ss ih => intro b; rw [List.foldl_cons, ih, sum_creditSettlement]
  rw [calculateBalances, hsettlements, hexpenses _ _ h, Map.values_empty, List.sum_nil]

end SplitBill
