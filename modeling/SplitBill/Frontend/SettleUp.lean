import Mathlib.Data.List.Sort
import SplitBill.Frontend.BalancesPage
import SplitBill.Settlements.Once

/-!
# Settling up from the balances page

What `_settle` and `_createSettlement` of `balances_page.dart` send. The page proposes the whole
credit of the payee as what the user owes, so that a settlement overpays unless that credit is
within the user's debt. A retry sends the payee, the amount and the key again, but to the group that
is selected by then, and in the name of the user who is signed in by then.
-/

namespace SplitBill.Frontend

open Interleave

/-! ## What the user owes -/

/-- `isDebtor`. -/
def GroupBalance.isDebtor (b : GroupBalance) : Bool := b.amountMinorUnits < 0

/-- `_youOweTotal`. -/
def youOweTotal (balances : List GroupBalance) (currentUserId : String) : ℤ :=
  (balances.filter fun b => b.userId = currentUserId ∧ b.isDebtor = true).foldl
    (fun sum b => sum + b.amountMinorUnits) 0

/-- `_memberBalances`. -/
def memberBalances (balances : List GroupBalance) (currentUserId : String) : List GroupBalance :=
  (balances.filter fun b => b.userId ≠ currentUserId).insertionSort fun a b =>
    a.amountMinorUnits ≤ b.amountMinorUnits

/-- What a user owes: the absolute value of a negative balance. -/
def debtOf (balances : List GroupBalance) (userId : String) : ℤ :=
  (balances.find? (·.userId = userId)).elim 0 fun b => max 0 (-b.amountMinorUnits)

/-- The balances of the others. -/
theorem mem_memberBalances {balances : List GroupBalance} {currentUserId : String}
    {b : GroupBalance} :
    b ∈ memberBalances balances currentUserId ↔ b ∈ balances ∧ b.userId ≠ currentUserId := by
  unfold memberBalances
  rw [List.mem_insertionSort, List.mem_filter, decide_eq_true_eq]

/-- The page shows what the user owes. -/
theorem youOweTotal_eq {balances : List GroupBalance} (h : (balances.map (·.userId)).Nodup)
    (currentUserId : String) :
    -youOweTotal balances currentUserId = debtOf balances currentUserId := by
  induction balances with
  | nil => rfl
  | cons b bs ih =>
    rw [List.map_cons, List.nodup_cons] at h
    have hrest := ih h.2
    unfold youOweTotal debtOf at hrest ⊢
    by_cases hb : b.userId = currentUserId
    · -- Nobody else has this entry.
      have hnone : bs.filter (fun b => b.userId = currentUserId ∧ b.isDebtor = true) = [] := by
        apply List.filter_eq_nil_iff.mpr
        intro x hx hdebtor
        have hxu := (of_decide_eq_true hdebtor).1
        exact h.1 (List.mem_map.mpr ⟨x, hx, by rw [hxu, hb]⟩)
      rw [List.find?_cons_of_pos (by simpa using hb), List.filter_cons]
      by_cases hdebt : b.isDebtor = true
      · have hneg : b.amountMinorUnits < 0 := of_decide_eq_true hdebt
        rw [if_pos (by simp [hb, hdebt]), hnone]
        simp only [List.foldl_cons, List.foldl_nil, Option.elim_some]
        omega
      · have hnonneg : ¬b.amountMinorUnits < 0 := fun hneg => hdebt (decide_eq_true hneg)
        rw [if_neg (by simp [hdebt]), hnone]
        simp only [List.foldl_nil, Option.elim_some]
        omega
    · rw [List.find?_cons_of_neg (by simpa using hb), List.filter_cons, if_neg (by simp [hb])]
      exact hrest

/-- Who owes something has an entry that says so. -/
theorem exists_of_debtOf_pos {balances : List GroupBalance} {userId : String}
    (h : 0 < debtOf balances userId) :
    ∃ b ∈ balances, b.userId = userId ∧ debtOf balances userId = -b.amountMinorUnits := by
  unfold debtOf at h ⊢
  cases hfind : balances.find? (·.userId = userId) with
  | none =>
    rw [hfind] at h
    exact absurd h (by decide)
  | some b =>
    rw [hfind] at h
    simp only [Option.elim_some] at h ⊢
    have huser : b.userId = userId := by simpa using List.find?_some hfind
    exact ⟨b, List.mem_of_find?_eq_some hfind, huser, by omega⟩

/-! ## What the page sends -/

/-- The settlement that an operation posts. -/
def posted? : PageOp → Option (String × CreateSettlementRequest)
  | .createSettlement groupId request => some (groupId, request)
  | _ => none

/-- The request pays this amount to the payee. -/
def Pays (payeeId : String) (amount : ℤ) (request : CreateSettlementRequest) : Prop :=
  request.payeeId = payeeId ∧ request.amountMinorUnits = amount

variable {currentUserId : String} {payee : GroupBalance}

/-- What a settlement with the payee sends. -/
theorem settle_pays (retries : ℕ) :
    (BalancesPage.settle payee retries).Issues fun o => ∀ x ∈ posted? o,
      Pays payee.userId payee.amountMinorUnits.natAbs x.2 := by
  have hbrowses : ∀ o, browses o → ∀ x ∈ posted? o,
      Pays payee.userId payee.amountMinorUnits.natAbs x.2 := by
    rintro o ⟨-, ho⟩ x hx
    cases o with
    | createSettlement groupId request => cases ho
    | _ => cases hx
  apply Prog.Issues.bind
  · apply issues_perform_of
    intro x hx
    cases hx
  intro chosen
  cases chosen with
  | false => trivial
  | true =>
    apply settle_issues_of hbrowses
    intro groupId payerId key x hx
    obtain rfl := Option.some.inj hx
    exact ⟨rfl, rfl⟩

/-- A settlement with the payee can send a request to any group, in the name of anybody and with any
key. -/
theorem post_of_issues {A : PageOp → Prop} {retries : ℕ}
    (h : (BalancesPage.settle payee retries).Issues A) (groupId payerId key : String) :
    A (.createSettlement groupId ⟨payerId, payee.userId, payee.amountMinorUnits.natAbs, key⟩) := by
  -- The user taps the tile and confirms the sheet, on a page that is still mounted.
  have hconfirmed : (BalancesPage.createSettlement payee payee.amountMinorUnits.natAbs retries
      none).Issues A := ((h.2 (.ok true)).2 (.ok true)).2 (.ok true)
  unfold BalancesPage.createSettlement at hconfirmed
  -- The user is read, the key is generated, and a group is selected.
  exact (((hconfirmed.2 (.ok payerId)).2 (.ok key)).2 (.ok (some groupId))).1

/-! ## Overpaying -/

/-- A balance does not move across zero. -/
def StaysOnSide (old new : ℤ) : Prop := (old ≤ 0 → new ≤ 0) ∧ (0 ≤ old → 0 ≤ new)

/-- A request pays no more than its payer owes and its payee is owed, so that recording it moves
neither across zero. The ids of the server are numbers, of which `number` is any assignment. -/
structure NeverOverpays (balances : List GroupBalance) (currentUserId : String)
    (payee : GroupBalance) (request : CreateSettlementRequest) : Prop where
  debt : request.amountMinorUnits ≤ debtOf balances currentUserId
  credit : request.amountMinorUnits ≤ payee.amountMinorUnits
  recorded : ∀ (number : String → Id), Function.Injective number →
    ∀ (expenses : List ExpenseForBalance) (settlements : List SettlementForBalance),
      let balance := fun settlements userId =>
        ((calculateBalances expenses settlements).get? (number userId)).getD 0
      let after := settlements ++
        [⟨number request.payerId, number request.payeeId, request.amountMinorUnits⟩]
      (∀ b ∈ balances, balance settlements b.userId = b.amountMinorUnits) →
      StaysOnSide (balance settlements currentUserId) (balance after currentUserId) ∧
      StaysOnSide (balance settlements payee.userId) (balance after payee.userId)

/-- What a settlement adds to the balances. -/
theorem get?_calculateBalances_append (expenses : List ExpenseForBalance)
    (settlements : List SettlementForBalance) (s : SettlementForBalance) (u : Id) :
    ((calculateBalances expenses (settlements ++ [s])).get? u).getD 0 =
      ((calculateBalances expenses settlements).get? u).getD 0 + s.netOf u := by
  rw [get?_calculateBalances, get?_calculateBalances]
  unfold netOf
  rw [List.map_append, List.sum_append, List.map_singleton, List.sum_singleton, add_assoc]

/-- A request within the debt of the user overpays nobody. -/
theorem neverOverpays_of_le {balances : List GroupBalance} (hpayee : payee ∈ balances)
    (hother : payee.userId ≠ currentUserId) (hcredit : 0 < payee.amountMinorUnits)
    (hdebt : payee.amountMinorUnits ≤ debtOf balances currentUserId)
    {request : CreateSettlementRequest}
    (hpayer : request.payerId = currentUserId)
    (hpays : Pays payee.userId payee.amountMinorUnits.natAbs request) :
    NeverOverpays balances currentUserId payee request := by
  obtain ⟨hpayeeId, hamount⟩ := hpays
  have hexact : request.amountMinorUnits = payee.amountMinorUnits := by omega
  refine ⟨by omega, by omega, ?_⟩
  intro number hnumber expenses settlements balance after hbalances
  -- The payer is listed with a debt that covers the credit, so that neither changes sides.
  obtain ⟨own, hown, hownId, howes⟩ := exists_of_debtOf_pos (lt_of_lt_of_le hcredit hdebt)
  have hne : number payee.userId ≠ number currentUserId := fun h => hother (hnumber h)
  have hpayerBefore : balance settlements currentUserId = own.amountMinorUnits :=
    hownId ▸ hbalances own hown
  have hpayeeBefore : balance settlements payee.userId = payee.amountMinorUnits :=
    hbalances payee hpayee
  have hpayerAfter : balance after currentUserId =
      balance settlements currentUserId + payee.amountMinorUnits := by
    show ((calculateBalances expenses _).get? _).getD 0 = _
    rw [get?_calculateBalances_append]
    unfold SettlementForBalance.netOf
    rw [hpayer, hpayeeId, if_pos rfl, if_neg hne, sub_zero, hexact]
  have hpayeeAfter : balance after payee.userId =
      balance settlements payee.userId - payee.amountMinorUnits := by
    show ((calculateBalances expenses _).get? _).getD 0 = _
    rw [get?_calculateBalances_append]
    unfold SettlementForBalance.netOf
    rw [hpayer, hpayeeId, if_neg hne.symm, if_pos rfl, zero_sub, hexact]
    exact (sub_eq_add_neg _ _).symm
  rw [hpayerAfter, hpayeeAfter, hpayerBefore, hpayeeBefore]
  unfold StaysOnSide
  omega

/-- Every settlement that the page can send for a creditor's tile in the name of the user overpays
nobody if and only if the creditor is owed no more than the user owes. -/
theorem settle_neverOverpays_iff {balances : List GroupBalance}
    (hnodup : (balances.map (·.userId)).Nodup)
    (hpayee : payee ∈ memberBalances balances currentUserId) (hcreditor : payee.isCreditor = true)
    (retries : ℕ) :
    ((BalancesPage.settle payee retries).Issues fun o => ∀ x ∈ posted? o,
      x.2.payerId = currentUserId → NeverOverpays balances currentUserId payee x.2) ↔
      payee.amountMinorUnits ≤ -youOweTotal balances currentUserId := by
  have hcredit : 0 < payee.amountMinorUnits := of_decide_eq_true hcreditor
  obtain ⟨hmem, hother⟩ := mem_memberBalances.mp hpayee
  rw [youOweTotal_eq hnodup]
  constructor
  · intro h
    have hpost := post_of_issues h "g" currentUserId "key"
    have hdebt := (hpost (_, _) rfl rfl).debt
    dsimp only at hdebt
    omega
  · intro hdebt
    apply (settle_pays retries).mono
    intro o ho x hx hpayer
    exact neverOverpays_of_le hmem hother hcredit hdebt hpayer (ho x hx)

/-- Two of three owe the third. -/
def threeBalances : List GroupBalance :=
  [⟨"u1", "A", "a@x.io", -300⟩, ⟨"u2", "B", "b@x.io", 500⟩, ⟨"u3", "C", "c@x.io", -200⟩]

/-- One of two owes the other. -/
def twoBalances : List GroupBalance :=
  [⟨"u1", "A", "a@x.io", -500⟩, ⟨"u2", "B", "b@x.io", 500⟩]

/-- Two members, of whom the second one is owed 500. -/
theorem settle_neverOverpays_iff_two :
    (BalancesPage.settle ⟨"u2", "B", "b@x.io", 500⟩ 1).Issues fun o => ∀ x ∈ posted? o,
      x.2.payerId = "u1" → NeverOverpays twoBalances "u1" ⟨"u2", "B", "b@x.io", 500⟩ x.2 :=
  (settle_neverOverpays_iff (by decide) (by decide) (by decide) 1).mpr (by decide)

/-- The user who owes 300 of a credit of 500 is told to pay 500. -/
theorem not_settle_neverOverpays :
    ¬∀ (currentUserId : String) (balances : List GroupBalance) (payee : GroupBalance) (retries : ℕ),
      (balances.map (·.userId)).Nodup → payee ∈ memberBalances balances currentUserId →
      payee.isCreditor = true →
      (BalancesPage.settle payee retries).Issues fun o => ∀ x ∈ posted? o,
        x.2.payerId = currentUserId → NeverOverpays balances currentUserId payee x.2 := by
  intro h
  have hpost := post_of_issues
    (h "u1" threeBalances ⟨"u2", "B", "b@x.io", 500⟩ 0 (by decide) (by decide) (by decide))
    "g" "u1" "key"
  have hdebt := (hpost (_, _) rfl rfl).debt
  have howes : debtOf threeBalances "u1" = 300 := by decide
  dsimp only at hdebt
  omega

/-! ## Retrying -/

/-- An operation reads which group is selected. -/
def readsGroup : PageOp → Bool
  | .selectedGroupId => true
  | _ => false

/-- An operation reads who is signed in. -/
def readsUser : PageOp → Bool
  | .currentUserId => true
  | _ => false

/-- The page when the call `pid` last performed one of these operations. -/
def lastRead? (reads : PageOp → Bool) (pid : ℕ) (log : List PageEntry) : Option BalancesPageState :=
  (log.find? fun e => e.pid = pid ∧ reads e.op = true).map (·.pre)

/-- A call's own entries tell what it last read. -/
theorem lastRead?_own (reads : PageOp → Bool) (pid : ℕ) (h : PageHist) :
    lastRead? reads pid (h.own pid) = lastRead? reads pid h.log := by
  unfold lastRead? Hist.own
  rw [List.find?_filter]
  congr 2
  funext e
  by_cases he : e.pid = pid
  all_goals simp [he]

/-- What a call read is still the last that it read after another operation of it. -/
theorem lastRead?_cons {reads : PageOp → Bool} {pid : ℕ} {e : PageEntry} (he : reads e.op = false)
    (log : List PageEntry) : lastRead? reads pid (e :: log) = lastRead? reads pid log := by
  unfold lastRead?
  rw [List.find?_cons_of_neg (by simp [he])]

/-- All attempts of a call post the same request to the same group. -/
def SameRequests (log : List PageEntry) : Prop :=
  log.Pairwise fun later earlier => later.pid = earlier.pid →
    ∀ x ∈ posted? later.op, ∀ y ∈ posted? earlier.op, x = y

instance : DecidablePred SameRequests := fun log =>
  inferInstanceAs (Decidable (log.Pairwise _))

/-- An attempt is made while the group is selected to which the call posted before, and in the name
of the user for whom it posted before. -/
def StillInGroup (pid : ℕ) (o : PageOp) (h : PageHist) : Prop :=
  (posted? o).isSome = true → ∀ e ∈ h.log, e.pid = pid → ∀ y ∈ posted? e.op,
    (∀ s ∈ lastRead? readsGroup pid h.log, s.selectedGroupId = some y.1) ∧
      ∀ s ∈ lastRead? readsUser pid h.log, s.currentUserId = y.2.payerId

instance (pid : ℕ) (o : PageOp) (h : PageHist) : Decidable (StillInGroup pid o h) := by
  unfold StillInGroup
  infer_instance

/-- The page, in runs in which the group of a settlement is selected, and its payer is signed in,
when the user retries it. -/
abbrev retryPage : System pageInterface AppFailure Unit BalancesPageState :=
  { pageSystem with allow := StillInGroup }

instance : DecidablePred retryPage.valid := fun _ => isTrue trivial

/-- The entries post nothing but payments of this amount to the payee, with this key. -/
def OnlyPosts (payeeId : String) (amount : ℤ) (key : String) (own : List PageEntry) : Prop :=
  ∀ e ∈ own, ∀ x ∈ posted? e.op, Pays payeeId amount x.2 ∧ x.2.idempotencyKey = key

/-- An entry that posts nothing. -/
theorem OnlyPosts.cons {payeeId key : String} {amount : ℤ} {own : List PageEntry}
    (h : OnlyPosts payeeId amount key own) {e : PageEntry} (he : posted? e.op = none) :
    OnlyPosts payeeId amount key (e :: own) := by
  have hhead : ∀ x ∈ posted? e.op, Pays payeeId amount x.2 ∧ x.2.idempotencyKey = key := by
    intro x hx
    rw [he] at hx
    cases hx
  exact List.forall_mem_cons.mpr ⟨hhead, h⟩

/-- What a call posts is what it posted before, to the group that it read, in the name of the user
that it read. -/
structure Reposts (pid : ℕ) (own : List PageEntry) (o : PageOp) : Prop where
  same : ∀ x ∈ posted? o,
    OnlyPosts x.2.payeeId x.2.amountMinorUnits x.2.idempotencyKey own
  group : ∀ x ∈ posted? o, ∃ s ∈ lastRead? readsGroup pid own, s.selectedGroupId = some x.1
  payer : ∀ x ∈ posted? o, ∃ s ∈ lastRead? readsUser pid own, s.currentUserId = x.2.payerId

/-- An operation that posts nothing. -/
theorem reposts_of_none {pid : ℕ} {own : List PageEntry} {o : PageOp} (ho : posted? o = none) :
    Reposts pid own o := by
  constructor
  all_goals
    intro x hx
    rw [ho] at hx
    cases hx

/-- A call of the page from the entries that it has made. -/
abbrev Posting (pid : ℕ) (p : Page Unit) (own : List PageEntry) : Prop :=
  wp (pageMachine.ownLog pid (Reposts pid)) (fun _ _ => True) p own

section

variable {pid : ℕ} {own : List PageEntry}

/-- An operation that posts nothing. -/
theorem posting_bind {o : PageOp} (ho : posted? o = none) {g : o.Res → Page Unit}
    (hg : ∀ v e, e.pid = pid → e.op = o → Posting pid (g v) (e :: own)) :
    Posting pid ((PageOp.perform o).bind g) own :=
  wp_ownLog_bind (fun _ _ => trivial) (reposts_of_none ho) fun _ _ v _ _ => hg v _ rfl rfl

/-- Code that only browses posts nothing. -/
theorem posting_of_browses {p : Page Unit} (hp : p.Issues browses) : Posting pid p own := by
  refine wp_ownLog_of_issues (I := fun _ => True) hp ?_ ?_ ?_ trivial
  · rintro own o - ⟨-, ho⟩
    apply reposts_of_none
    cases o with
    | createSettlement groupId request => cases ho
    | _ => rfl
  · exact fun _ _ _ _ _ _ _ _ _ => trivial
  · exact fun _ _ _ => trivial

/-- Every operation of the page is answered. -/
theorem page_answer {o : PageOp} {s s' : BalancesPageState}
    {did seen : Except AppFailure (pageInterface.Res o)}
    (h : pageMachine.Answer o s did seen s') :
    ∃ world, seen = (o.exec world s).1 ∧ s' = (o.exec world s).2 := by
  cases h with
  | done world => exact ⟨world, rfl, rfl⟩
  | failed e hfails => exact hfails.elim
  | lost e world hloses => exact hloses.elim

/-- One attempt to post the request, in the name of the user who was read, and what its `Retry`
does. -/
theorem sendSettlement_posting {request : CreateSettlementRequest} {retry : Page Unit}
    (hretry : ∀ own, OnlyPosts request.payeeId request.amountMinorUnits request.idempotencyKey own →
      Posting pid retry own)
    (hown : OnlyPosts request.payeeId request.amountMinorUnits request.idempotencyKey own)
    (huser : ∃ s ∈ lastRead? readsUser pid own, s.currentUserId = request.payerId) :
    Posting pid (BalancesPage.sendSettlement payee request retry) own := by
  unfold BalancesPage.sendSettlement
  refine wp_ownLog_bind (fun _ _ => trivial) (reposts_of_none rfl) fun w did selected w' hans => ?_
  obtain ⟨world, hselected, -⟩ := page_answer hans
  have hselected : selected = w.selectedGroupId := Except.ok.inj hselected
  apply wp_expect_bind.mpr
  constructor
  swap
  · exact fun _ => trivial
  intro groupId hgroup
  apply wp_bind.mpr
  apply wp_attempt.mpr
  have hread : OnlyPosts request.payeeId request.amountMinorUnits request.idempotencyKey
      (⟨pid, .selectedGroupId, w, did, .ok selected, w'⟩ :: own) := hown.cons rfl
  apply wp_ownLog_perform
  · -- The group was read from the page just now, and the user before that.
    constructor
    case same =>
      intro x hx
      obtain rfl := Option.some.inj hx
      exact hread
    case group =>
      intro x hx
      obtain rfl := Option.some.inj hx
      exact ⟨w, by simp [lastRead?, readsGroup], hselected ▸ hgroup⟩
    case payer =>
      intro x hx
      obtain rfl := Option.some.inj hx
      rw [lastRead?_cons rfl]
      exact huser
  intro w₁ did₁ outcome w₁' _
  have hposted : OnlyPosts request.payeeId request.amountMinorUnits request.idempotencyKey
      (⟨pid, .createSettlement groupId request, w₁, did₁, outcome, w₁'⟩ ::
        ⟨pid, .selectedGroupId, w, did, .ok selected, w'⟩ :: own) := by
    refine List.forall_mem_cons.mpr ⟨fun x hx => ?_, hread⟩
    obtain rfl := Option.some.inj hx
    exact ⟨⟨rfl, rfl⟩, rfl⟩
  cases outcome with
  | ok _ =>
    apply posting_bind rfl
    intro mounted e₂ _ _
    cases mounted with
    | false => trivial
    | true => exact posting_bind rfl fun _ _ _ _ => posting_of_browses loadGroupData_issues
  | error failure =>
    apply posting_bind rfl
    intro mounted e₂ _ ho₂
    cases mounted with
    | false => trivial
    | true =>
      rw [if_pos rfl]
      split
      · apply posting_bind rfl
        intro _ e₃ _ ho₃
        exact hretry _ ((hposted.cons (by rw [ho₂]; rfl)).cons (by rw [ho₃]; rfl))
      · exact wp_ownLog_perform (reposts_of_none rfl) fun _ _ _ _ _ => trivial

/-- An attempt reads the user and has a key, and then posts what was posted with this key before. -/
theorem attempt_posting {amount : ℤ} {reusedKey : Option String} {g : String → String → Page Unit}
    (hown : ∀ key, (∀ k ∈ reusedKey, k = key) → OnlyPosts payee.userId amount key own)
    (hg : ∀ payerId key own, OnlyPosts payee.userId amount key own →
      (∃ s ∈ lastRead? readsUser pid own, s.currentUserId = payerId) →
      Posting pid (g payerId key) own) :
    Posting pid ((PageOp.perform .currentUserId).bind fun payerId =>
      (BalancesPage.keyOrNew reusedKey).bind (g payerId)) own := by
  refine wp_ownLog_bind (fun _ _ => trivial) (reposts_of_none rfl) fun w did payerId w' hans => ?_
  obtain ⟨world, hread, -⟩ := page_answer hans
  -- The payer of this attempt is what the session holds now.
  have hread : payerId = w.currentUserId := Except.ok.inj hread
  have huser : ∃ s ∈ lastRead? readsUser pid
      (⟨pid, .currentUserId, w, did, .ok payerId, w'⟩ :: own), s.currentUserId = payerId :=
    ⟨w, by simp [lastRead?, readsUser], hread.symm⟩
  -- A retry keeps the key of the first attempt, a new payment draws one.
  cases reusedKey with
  | some key =>
    exact hg payerId key _ ((hown key fun k hk => (Option.some.inj hk).symm).cons rfl) huser
  | none =>
    apply posting_bind rfl
    intro key e _ ho
    refine hg payerId key _ (((hown key nofun).cons rfl).cons (by rw [ho]; rfl)) ?_
    rw [lastRead?_cons (by rw [ho]; rfl)]
    exact huser

/-- A settlement and its retries post one payment with one key, each in the name of the user that it
read. -/
theorem createSettlement_posting {amount : ℤ} (retries : ℕ) {reusedKey : Option String}
    (hown : ∀ key, (∀ k ∈ reusedKey, k = key) → OnlyPosts payee.userId amount key own) :
    Posting pid (BalancesPage.createSettlement payee amount retries reusedKey) own := by
  -- By induction on the retries, each of which has the key of the attempt before.
  induction retries generalizing own reusedKey with
  | zero =>
    unfold BalancesPage.createSettlement
    apply attempt_posting hown
    intro payerId key own hposts huser
    exact sendSettlement_posting (fun _ _ => trivial) hposts huser
  | succ n ih =>
    unfold BalancesPage.createSettlement
    apply attempt_posting hown
    intro payerId key own hposts huser
    refine sendSettlement_posting (fun own' hposts' => ih fun key' hkey' => ?_) hposts huser
    obtain rfl := hkey' key rfl
    exact hposts'

/-- Every call of the page posts again what it posted before. -/
theorem pageCall_posting (c : PageCall) : Posting pid c.body [] := by
  cases c with
  | loadGroups => exact posting_of_browses loadGroups_issues
  | selectGroup groupId => exact posting_of_browses (selectGroup_issues groupId)
  | settle payee retries =>
    apply posting_bind rfl
    intro chosen e₁ _ ho₁
    cases chosen with
    | false => trivial
    | true =>
      apply posting_bind rfl
      intro confirmed e₂ _ ho₂
      cases confirmed with
      | false => trivial
      | true =>
        apply posting_bind rfl
        intro mounted e₃ _ ho₃
        cases mounted with
        | false => trivial
        | true =>
          -- Nothing has been posted by now.
          have hnothing : ∀ key,
              OnlyPosts payee.userId payee.amountMinorUnits.natAbs key [e₃, e₂, e₁] := by
            intro key
            have hnil : OnlyPosts payee.userId payee.amountMinorUnits.natAbs key [] :=
              fun e he => (List.not_mem_nil he).elim
            exact ((hnil.cons (by rw [ho₁]; rfl)).cons (by rw [ho₂]; rfl)).cons (by rw [ho₃]; rfl)
          exact createSettlement_posting retries fun key _ => hnothing key

end

/-- In runs in which the group of a settlement is selected, and its payer is signed in, when the
user retries it, every retry posts the request of the first attempt to the group of the first
attempt. The server commits no second settlement for its key while the record of the first one
lives. -/
theorem retries_identical {cfg : retryPage.Config} (h : retryPage.Reachable Opens cfg) :
    SameRequests cfg.hist.log ∧
    ∀ (lib : Lib) (server : (settlementSystem lib).Config),
      (settlementSystem lib).Reachable Unclaimed server →
      ∀ e ∈ cfg.hist.log, ∀ x ∈ posted? e.op,
        (commits server.hist.log).Pairwise fun later earlier =>
          later.key = x.2.idempotencyKey → earlier.key = x.2.idempotencyKey →
            earlier.expiresAt ≤ later.committedAt := by
  constructor
  · have hkeeps : SameRequests cfg.hist.log ∧ ∀ (pid : ℕ) (c : PageCall) (a : Unit),
        cfg.procs[pid]? = some (c, .ret a) → True := by
      refine @System.keeps_of_ownLog _ _ _ _ retryPage _
        (fun pid _ => Reposts pid) (fun _ _ _ _ => True) (fun h => SameRequests h.log)
        (fun pid c _ => pageCall_posting c) ?_ ?_ ?_ _ h
      · exact fun _ _ => List.Pairwise.nil
      · exact fun _ _ hs _ => hs
      · intro pid c o h did seen s hown hs hallow _
        refine List.Pairwise.cons ?_ hs
        intro e he hpid x hx y hy
        obtain ⟨hgroup, huser⟩ := hallow (Option.isSome_of_mem hx) e he hpid.symm y hy
        -- What the call read is what it posts, and what it posted before.
        obtain ⟨w, hread, hxgroup⟩ := hown.group x hx
        rw [lastRead?_own] at hread
        have hsameGroup : x.1 = y.1 := Option.some.inj (hxgroup.symm.trans (hgroup w hread))
        obtain ⟨w', hread', hxpayer⟩ := hown.payer x hx
        rw [lastRead?_own] at hread'
        have hsamePayer : x.2.payerId = y.2.payerId := hxpayer.symm.trans (huser w' hread')
        obtain ⟨⟨hpayee, hamount⟩, hkey⟩ :=
          hown.same x hx e (Hist.mem_own.mpr ⟨he, hpid.symm⟩) y hy
        have hsameRequest : x.2 = y.2 :=
          CreateSettlementRequest.ext hsamePayer hpayee.symm hamount.symm hkey.symm
        exact Prod.ext hsameGroup hsameRequest
    exact hkeeps.1
  · intro lib server hserver e _ x _
    refine ((settlementOutline lib).holds hserver).claims.lifetimes.imp ?_
    intro later earlier hlifetimes hlater hearlier
    exact (hlifetimes (hlater.trans hearlier.symm)).1

/-- A payment that failed is tried again when the connection is back. -/
theorem retries_identical_offline : ∃ cfg,
    retryPage.play (firstGroup StillInGroup ++ settleFails StillInGroup ++
      System.turns _ 1 twoGroups 3) (retryPage.start { user := some "u1" }) = some cfg ∧
    (cfg.hist.log.filterMap fun e => paidGroup? e.op) = ["g1", "g1"] ∧
    SameRequests cfg.hist.log := by
  obtain ⟨cfg, hplay, hall, hpaid⟩ : ∃ cfg,
      retryPage.play (firstGroup StillInGroup ++ settleFails StillInGroup ++
        System.turns _ 1 twoGroups 3) (retryPage.start { user := some "u1" }) = some cfg ∧
      retryPage.Allowed cfg.hist.log ∧
      (cfg.hist.log.filterMap fun e => paidGroup? e.op) = ["g1", "g1"] :=
    System.exists_of_play (by decide +kernel)
  have hreach : retryPage.Reachable Opens cfg :=
    System.reachable_of_allowed (.start ⟨_, rfl⟩) hplay hall
  exact ⟨cfg, hplay, hpaid, (retries_identical hreach).1⟩

/-- A retry after another group was selected posts the settlement there, and a retry after the
session has ended posts it in nobody's name. -/
theorem not_retries_identical :
    (¬∀ cfg : pageSystem.Config, pageSystem.Reachable Opens cfg → SameRequests cfg.hist.log) ∧
    ∃ cfg : pageSystem.Config, pageSystem.Reachable Opens cfg ∧
      (cfg.hist.log.filterMap fun e => posted? e.op) =
        [("g1", ⟨"", "u2", 500, "key"⟩), ("g1", ⟨"u1", "u2", 500, "key"⟩)] := by
  constructor
  -- Another group is selected before the retry.
  · intro hsame
    obtain ⟨cfg, hplay, hwrong⟩ : ∃ cfg,
        pageSystem.play (firstGroup (fun _ _ _ => True) ++ settleFails (fun _ _ _ => True) ++
          [.spawn (.selectGroup (some "g2"))] ++ System.turns _ 2 twoGroups 5 ++
          System.turns _ 1 twoGroups 3) (pageSystem.start { user := some "u1" }) = some cfg ∧
        ¬SameRequests cfg.hist.log :=
      System.exists_of_play (by decide +kernel)
    have hreach : pageSystem.Reachable Opens cfg :=
      System.reachable_of_play (fun _ _ _ => trivial) (.start ⟨_, rfl⟩) hplay
    exact hwrong (hsame cfg hreach)
  -- The session ends before the retry, which then has no payer.
  · obtain ⟨cfg, hplay, hposted⟩ : ∃ cfg,
        pageSystem.play (firstGroup (fun _ _ _ => True) ++ settleFails (fun _ _ _ => True) ++
          [.env (fun s => { s with user := none }) fun s => .inr ⟨none, rfl⟩] ++
          System.turns _ 1 twoGroups 3) (pageSystem.start { user := some "u1" }) = some cfg ∧
        (cfg.hist.log.filterMap fun e => posted? e.op) =
          [("g1", ⟨"", "u2", 500, "key"⟩), ("g1", ⟨"u1", "u2", 500, "key"⟩)] :=
      System.exists_of_play (by decide +kernel)
    have hreach : pageSystem.Reachable Opens cfg :=
      System.reachable_of_play (fun _ _ _ => trivial) (.start ⟨_, rfl⟩) hplay
    exact ⟨cfg, hreach, hposted⟩

end SplitBill.Frontend
