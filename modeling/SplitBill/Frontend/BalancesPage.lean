import Mathlib.Data.Int.Notation
import SplitBill.Interleave.Logic

/-!
# The balances page

The state of `src/frontend/lib/features/balances/presentation/pages/balances_page.dart` and the code
that changes it. A load writes what it is answered into the page, whichever group is selected by
then, and a settlement goes to the group that is selected when it is sent, also when it is a retry
that the user asked for later. It names as its payer whoever is signed in when it is sent: the user
of the `AuthController`, which the rest of the app may change at any time. In runs in which the
group of a load, and the group in which a payee was chosen, is still the selected one, the page
shows and pays the selected group.
-/

namespace SplitBill.Frontend

open Interleave

/-- An `AppFailure`, as far as the page tells failures apart, with its message. -/
inductive AppFailure
  | network (message : String)
  | serviceUnavailable (message : String)
  | other (message : String)
  deriving DecidableEq

/-- `appErrorMessage`. -/
def AppFailure.message : AppFailure → String
  | network message => message
  | serviceUnavailable message => message
  | other message => message

/-- `GroupSummary`. -/
structure GroupSummary where
  id : String
  name : String
  deriving DecidableEq

/-- `GroupBalance`. -/
structure GroupBalance where
  userId : String
  name : String
  email : String
  amountMinorUnits : ℤ
  deriving DecidableEq

/-- `isCreditor`. -/
def GroupBalance.isCreditor (b : GroupBalance) : Bool := 0 < b.amountMinorUnits

/-- `Settlement`. -/
structure Settlement where
  id : String
  groupId : String
  payerId : String
  payeeId : String
  amountMinorUnits : ℤ
  deriving DecidableEq

/-- `CreateSettlementRequest`. -/
@[ext]
structure CreateSettlementRequest where
  payerId : String
  payeeId : String
  amountMinorUnits : ℤ
  idempotencyKey : String
  deriving DecidableEq

/-- `_BalancesPageState`, and the user that it reads. -/
structure BalancesPageState where
  groups : List GroupSummary := []
  selectedGroupId : Option String := none
  balances : List GroupBalance := []
  settlements : List Settlement := []
  error : Option String := none
  loading : Bool := true
  mounted : Bool := true
  /-- The id of the `user` of the `AuthController`. -/
  user : Option String := none
  /-- The group that the balances and settlements were loaded for, which no code reads. -/
  loadedFor : Option String := none

/-- `_currentUserId`. -/
def BalancesPageState.currentUserId (s : BalancesPageState) : String := s.user.getD ""

/-- The requests for which the page waits, the steps of the user, and the pieces of code that run in
between. -/
inductive PageOp
  /-- `GroupsRepository.getGroups`. -/
  | getGroups
  /-- `getGroupBalances` and `getGroupSettlements`, for both of which a load waits. -/
  | getGroupData (groupId : String)
  /-- `SettlementsRepository.createSettlement`. -/
  | createSettlement (groupId : String) (request : CreateSettlementRequest)
  /-- The user taps the tile of this member: whether the page shows it as one of a creditor. -/
  | tapSettle (payee : GroupBalance)
  /-- `showModalBottomSheet`: whether the user confirmed. -/
  | confirmSheet
  /-- `generateIdempotencyKey`. -/
  | generateIdempotencyKey
  /-- A snack bar, which may have a `Retry` action. -/
  | showSnackBar (text : String) (retry : Bool)
  /-- Reads `mounted`. -/
  | mounted
  /-- Reads `_currentUserId`. -/
  | currentUserId
  /-- Reads `_selectedGroupId`. -/
  | selectedGroupId
  /-- The `setState` with which a load begins, and the one with which it ends. -/
  | startLoading
  | endLoading
  /-- The `setState` of `_loadGroups`. -/
  | showGroups (groups : List GroupSummary)
  /-- The `setState` of `_loadGroupData`, for the group that it was started for. -/
  | showGroupData (groupId : String) (balances : List GroupBalance) (settlements : List Settlement)
  /-- The `setState` of a failure. -/
  | showError (message : String)
  /-- The check and the `setState` of `_selectGroup`: whether the selection changed. -/
  | selectGroup (groupId : String)

/-- What an operation answers. -/
abbrev PageOp.Res : PageOp → Type
  | getGroups => List GroupSummary
  | getGroupData _ => List GroupBalance × List Settlement
  | tapSettle _ => Bool
  | confirmSheet => Bool
  | generateIdempotencyKey => String
  | mounted => Bool
  | currentUserId => String
  | selectedGroupId => Option String
  | selectGroup _ => Bool
  | _ => Unit

/-- The interface of the page. -/
abbrev pageInterface : Interface := ⟨PageOp, PageOp.Res⟩

/-- Code of the page. -/
abbrev Page (α : Type) : Type := Prog pageInterface AppFailure α

/-- The program of one operation. -/
abbrev PageOp.perform (o : PageOp) : Page o.Res := @Prog.perform pageInterface AppFailure o

/-- What the servers and the user answer. -/
structure PageWorld where
  failure : Option AppFailure := none
  groups : List GroupSummary := []
  groupData : String → List GroupBalance × List Settlement := fun _ => ([], [])
  confirmed : Bool := true
  idempotencyKey : String := "key"

/-- The answer to a request. -/
def PageWorld.answer {α : Type} (world : PageWorld) (a : α) : Except AppFailure α :=
  match world.failure with
  | none => .ok a
  | some failure => .error failure

/-- The answer and the effect of an operation. -/
def PageOp.exec : (o : PageOp) → PageWorld → BalancesPageState →
    Except AppFailure o.Res × BalancesPageState
  | getGroups, world, s => (world.answer world.groups, s)
  | getGroupData groupId, world, s => (world.answer (world.groupData groupId), s)
  | createSettlement _ _, world, s => (world.answer (), s)
  | tapSettle payee, _, s =>
    (.ok (payee ∈ s.balances ∧ payee.userId ≠ s.currentUserId ∧ payee.isCreditor = true), s)
  | confirmSheet, world, s => (.ok world.confirmed, s)
  | generateIdempotencyKey, world, s => (.ok world.idempotencyKey, s)
  | showSnackBar _ _, _, s => (.ok (), s)
  | mounted, _, s => (.ok s.mounted, s)
  | currentUserId, _, s => (.ok s.currentUserId, s)
  | selectedGroupId, _, s => (.ok s.selectedGroupId, s)
  | startLoading, _, s => (.ok (), { s with loading := true, error := none })
  | endLoading, _, s => (.ok (), { s with loading := false })
  | showGroups groups, _, s =>
    (.ok (), { s with groups := groups,
                      selectedGroupId := s.selectedGroupId <|> groups.head?.map (·.id) })
  | showGroupData groupId balances settlements, _, s =>
    (.ok (), { s with balances := balances, settlements := settlements, error := none,
                      loadedFor := some groupId })
  | showError message, _, s => (.ok (), { s with error := some message })
  | selectGroup groupId, _, s =>
    if s.selectedGroupId = some groupId then (.ok false, s)
    else (.ok true, { s with selectedGroupId := some groupId, balances := [], settlements := [] })

/-- The machine on which the code of the page runs. -/
abbrev pageMachine : Machine pageInterface AppFailure BalancesPageState where
  Choice := PageWorld
  exec := PageOp.exec
  fails _ _ := False
  loses _ _ := False

namespace BalancesPage

/-- `_loadGroupData`. -/
def loadGroupData : Page Unit := do
  match ← PageOp.perform .selectedGroupId with
  | none => return ()
  | some groupId =>
    let results ← (PageOp.perform (.getGroupData groupId)).attempt
    if ← PageOp.perform .mounted then
      match results with
      | .ok (balances, settlements) =>
        PageOp.perform (.showGroupData groupId balances settlements)
      | .error error => PageOp.perform (.showError error.message)

/-- `_loadGroups`. -/
def loadGroups : Page Unit := do
  PageOp.perform .startLoading
  let load : Page Unit := do
    let groups ← PageOp.perform .getGroups
    if ← PageOp.perform .mounted then
      PageOp.perform (.showGroups groups)
      loadGroupData
  load.tryCatch fun error => do
    if ← PageOp.perform .mounted then PageOp.perform (.showError error.message)
  if ← PageOp.perform .mounted then PageOp.perform .endLoading

/-- `_selectGroup`. -/
def selectGroup (groupId : Option String) : Page Unit :=
  match groupId with
  | none => return ()
  | some groupId => do
    if ← PageOp.perform (.selectGroup groupId) then loadGroupData

/-- A failure of this kind can be retried with the same key. -/
def retryable : AppFailure → Bool
  | .network _ => true
  | .serviceUnavailable _ => true
  | .other _ => false

/-- What `_createSettlement` does with its request, where `retry` is what its `Retry` does. -/
def sendSettlement (payee : GroupBalance) (request : CreateSettlementRequest) (retry : Page Unit) :
    Page Unit := do
  let groupId ← Prog.expect (← PageOp.perform .selectedGroupId)
    (.other "Null check operator used on a null value")
  match ← (PageOp.perform (.createSettlement groupId request)).attempt with
  | .ok _ =>
    if ← PageOp.perform .mounted then
      PageOp.perform (.showSnackBar ("Settled with " ++ payee.name) false)
      loadGroupData
  | .error failure =>
    if ← PageOp.perform .mounted then
      if retryable failure then
        PageOp.perform (.showSnackBar "Settlement failed. Please retry." true)
        retry
      else PageOp.perform (.showSnackBar failure.message false)

/-- `reusedKey ?? generateIdempotencyKey()`. -/
def keyOrNew : Option String → Page String
  | some key => return key
  | none => PageOp.perform .generateIdempotencyKey

/-- `_createSettlement`, of which the user taps `Retry` up to `retries` times. -/
def createSettlement (payee : GroupBalance) (amount : ℤ) :
    (retries : ℕ) → (reusedKey : Option String) → Page Unit
  | retries, reusedKey => do
    let payerId ← PageOp.perform .currentUserId
    let idempotencyKey ← keyOrNew reusedKey
    let request : CreateSettlementRequest := ⟨payerId, payee.userId, amount, idempotencyKey⟩
    sendSettlement payee request <| match retries with
      | 0 => return ()
      | n + 1 => createSettlement payee amount n (some request.idempotencyKey)

/-- `_settle`. -/
def settle (payee : GroupBalance) (retries : ℕ) : Page Unit := do
  if ← PageOp.perform (.tapSettle payee) then
    let confirmed ← PageOp.perform .confirmSheet
    if confirmed then
      if ← PageOp.perform .mounted then
        createSettlement payee payee.amountMinorUnits.natAbs retries none

end BalancesPage

/-- What makes the page run its code. -/
inductive PageCall
  | loadGroups
  | selectGroup (groupId : Option String)
  | settle (payee : GroupBalance) (retries : ℕ)
  deriving DecidableEq

/-- The code of a call. -/
def PageCall.body : PageCall → Page Unit
  | loadGroups => BalancesPage.loadGroups
  | selectGroup groupId => BalancesPage.selectGroup groupId
  | settle payee retries => BalancesPage.settle payee retries

/-- What happens to the page from outside: it is disposed of, or another user is signed in, or
none. -/
def Surroundings (s s' : BalancesPageState) : Prop :=
  s' = { s with mounted := false } ∨ ∃ user, s' = { s with user }

/-- The code of the page, any number of whose calls are under way at a time. -/
abbrev pageSystem : System pageInterface AppFailure Unit BalancesPageState where
  machine := pageMachine
  Call := PageCall
  body := PageCall.body
  valid := fun _ => True
  env := Surroundings

instance : DecidablePred pageSystem.valid := fun _ => isTrue trivial

/-- The page opens, whoever is signed in. -/
def Opens (s : BalancesPageState) : Prop := ∃ user, s = { user }

/-! ## What the page shows, and what it pays -/

/-- An entry of the log of the page. -/
abbrev PageEntry := Entry pageInterface AppFailure BalancesPageState

/-- The history of the page. -/
abbrev PageHist := Hist pageInterface AppFailure BalancesPageState

/-- What the page shows was loaded for the selected group, or it shows nothing. -/
def ShowsSelected (s : BalancesPageState) : Prop :=
  (s.balances = [] ∧ s.settlements = []) ∨
    s.selectedGroupId.isSome = true ∧ s.loadedFor = s.selectedGroupId

instance (s : BalancesPageState) : Decidable (ShowsSelected s) :=
  inferInstanceAs (Decidable (_ ∨ _))

/-- An operation is the user's choice of a payee. -/
def isTap : PageOp → Bool
  | .tapSettle _ => true
  | _ => false

/-- The group to which an operation posts a settlement. -/
def paidGroup? : PageOp → Option String
  | .createSettlement groupId _ => some groupId
  | _ => none

/-- The page when the call `pid` had the payee chosen. -/
def choice? (pid : ℕ) (log : List PageEntry) : Option BalancesPageState :=
  (log.find? fun e => e.pid = pid ∧ isTap e.op = true).map (·.pre)

/-- A call's own entries tell its choice. -/
theorem choice?_own (pid : ℕ) (h : PageHist) : choice? pid (h.own pid) = choice? pid h.log := by
  unfold choice? Hist.own
  rw [List.find?_filter]
  congr 2
  funext e
  by_cases he : e.pid = pid
  all_goals simp [he]

/-- Other operations of the call leave its choice as it was. -/
theorem choice?_cons {pid : ℕ} {e : PageEntry} (he : isTap e.op = false) (log : List PageEntry) :
    choice? pid (e :: log) = choice? pid log := by
  unfold choice?
  rw [List.find?_cons_of_neg (by simp [he])]

/-- Every settlement of the log was posted to the group whose balances the page showed when the
payee was chosen. -/
def PaysShown : List PageEntry → Prop
  | [] => True
  | e :: log =>
    (∀ g ∈ paidGroup? e.op, (choice? e.pid log).bind (·.loadedFor) = some g) ∧ PaysShown log

instance : DecidablePred PaysShown := fun log => by
  induction log with
  | nil => exact isTrue trivial
  | cons e log ih => exact inferInstanceAs (Decidable (_ ∧ _))

/-- A load shows its answer only while its group is selected, and a settlement is sent only while
the group is selected in which the payee was chosen. -/
def StillSelected (pid : ℕ) (o : PageOp) (h : PageHist) : Prop :=
  (∀ g ∈ paidGroup? o, ∀ s ∈ choice? pid h.log, s.selectedGroupId = some g) ∧
    match o with
    | .showGroupData groupId _ _ => h.world.selectedGroupId = some groupId
    | _ => True

instance (pid : ℕ) (o : PageOp) (h : PageHist) : Decidable (StillSelected pid o h) := by
  unfold StillSelected
  cases o <;> infer_instance

/-- The page, in runs in which the selection stays as it is under way. -/
abbrev steadyPage : System pageInterface AppFailure Unit BalancesPageState :=
  { pageSystem with allow := StillSelected }

instance : DecidablePred steadyPage.valid := fun _ => isTrue trivial

/-! ## What a call does -/

variable {pid : ℕ}

/-- A call posts a settlement after the user has chosen a payee on a page that showed some. -/
def PaysWhatWasChosen (pid : ℕ) (own : List PageEntry) (o : PageOp) : Prop :=
  (paidGroup? o).isSome = true → ∃ s, choice? pid own = some s ∧ s.balances ≠ []

/-- An operation neither has a payee chosen nor posts a settlement. -/
def browses (o : PageOp) : Prop := isTap o = false ∧ paidGroup? o = none

/-- One operation. -/
theorem issues_perform_of {A : PageOp → Prop} {o : PageOp} (ho : A o) :
    (PageOp.perform o).Issues A :=
  (@Prog.issues_perform pageInterface AppFailure A o).mpr ho

/-- A load posts nothing. -/
theorem loadGroupData_issues : BalancesPage.loadGroupData.Issues browses := by
  refine .bind (issues_perform_of ⟨rfl, rfl⟩) fun groupId => ?_
  cases groupId with
  | none => trivial
  | some groupId =>
    refine .bind (.attempt (issues_perform_of ⟨rfl, rfl⟩)) fun results => ?_
    refine .bind (issues_perform_of ⟨rfl, rfl⟩) fun mounted => ?_
    cases mounted with
    | false => trivial
    | true =>
      cases results with
      | error error => exact issues_perform_of ⟨rfl, rfl⟩
      | ok results => exact issues_perform_of ⟨rfl, rfl⟩

/-- Loading the groups is browsing. -/
theorem loadGroups_issues : BalancesPage.loadGroups.Issues browses := by
  have hmounted : ∀ p : Page Unit, p.Issues browses →
      (Prog.bind (PageOp.perform .mounted) fun mounted =>
        if mounted = true then p else pure ()).Issues
        browses := by
    intro p hp
    refine .bind (issues_perform_of ⟨rfl, rfl⟩) fun mounted => ?_
    cases mounted with
    | false => trivial
    | true => exact hp
  refine .bind (issues_perform_of ⟨rfl, rfl⟩) fun _ =>
    .bind (.tryCatch ?_ fun error => ?_) fun _ => ?_
  · refine .bind (issues_perform_of ⟨rfl, rfl⟩) fun groups => hmounted _ ?_
    exact .bind (issues_perform_of ⟨rfl, rfl⟩) fun _ => loadGroupData_issues
  · exact hmounted _ (issues_perform_of ⟨rfl, rfl⟩)
  · exact hmounted _ (issues_perform_of ⟨rfl, rfl⟩)

/-- Selecting a group is browsing. -/
theorem selectGroup_issues (groupId : Option String) :
    (BalancesPage.selectGroup groupId).Issues browses := by
  cases groupId with
  | none => trivial
  | some groupId =>
    refine .bind (issues_perform_of ⟨rfl, rfl⟩) fun changed => ?_
    cases changed with
    | false => trivial
    | true => exact loadGroupData_issues

/-- Generating a key posts nothing. -/
theorem keyOrNew_issues (reusedKey : Option String) :
    (BalancesPage.keyOrNew reusedKey).Issues browses := by
  cases reusedKey with
  | none => exact issues_perform_of ⟨rfl, rfl⟩
  | some key => trivial

/-- A request is posted to some group, and nothing else is done but to browse and to retry. -/
theorem sendSettlement_issues_of {A : PageOp → Prop} (hbrowses : ∀ o, browses o → A o)
    {payee : GroupBalance} {request : CreateSettlementRequest} {retry : Page Unit}
    (hpost : ∀ groupId, A (.createSettlement groupId request)) (hretry : retry.Issues A) :
    (BalancesPage.sendSettlement payee request retry).Issues A := by
  -- What only browses is allowed.
  have hbrowse : ∀ o, browses o → (PageOp.perform o).Issues A := fun o ho =>
    issues_perform_of (hbrowses o ho)
  have hload : BalancesPage.loadGroupData.Issues A := loadGroupData_issues.mono hbrowses
  refine .bind (hbrowse _ ⟨rfl, rfl⟩) fun selected => ?_
  refine .bind (Prog.issues_expect _ _ _) fun groupId => ?_
  refine .bind (.attempt (issues_perform_of (hpost groupId))) fun outcome => ?_
  cases outcome with
  | ok _ =>
    refine .bind (hbrowse _ ⟨rfl, rfl⟩) fun mounted => ?_
    cases mounted with
    | false => trivial
    | true => exact .bind (hbrowse _ ⟨rfl, rfl⟩) fun _ => hload
  | error failure =>
    refine .bind (hbrowse _ ⟨rfl, rfl⟩) fun mounted => ?_
    cases mounted with
    | false => trivial
    | true =>
      rw [if_pos rfl]
      split
      · exact .bind (hbrowse _ ⟨rfl, rfl⟩) fun _ => hretry
      · exact hbrowse _ ⟨rfl, rfl⟩

/-- A settlement and its retries post the payee's settlement, in the name of whoever is signed in,
and do nothing else but browse. -/
theorem createSettlement_issues_of {A : PageOp → Prop} (hbrowses : ∀ o, browses o → A o)
    {payee : GroupBalance} {amount : ℤ}
    (hpost : ∀ groupId payerId key,
      A (.createSettlement groupId ⟨payerId, payee.userId, amount, key⟩))
    (retries : ℕ) (reusedKey : Option String) :
    (BalancesPage.createSettlement payee amount retries reusedKey).Issues A := by
  -- By induction on the retries: each of them is one attempt more.
  induction retries generalizing reusedKey with
  | zero =>
    unfold BalancesPage.createSettlement
    refine .bind (issues_perform_of (hbrowses _ ⟨rfl, rfl⟩)) fun payerId => ?_
    refine .bind ((keyOrNew_issues reusedKey).mono hbrowses) fun key => ?_
    exact sendSettlement_issues_of hbrowses (fun groupId => hpost groupId payerId key) trivial
  | succ n ih =>
    unfold BalancesPage.createSettlement
    refine .bind (issues_perform_of (hbrowses _ ⟨rfl, rfl⟩)) fun payerId => ?_
    refine .bind ((keyOrNew_issues reusedKey).mono hbrowses) fun key => ?_
    exact sendSettlement_issues_of hbrowses (fun groupId => hpost groupId payerId key) (ih _)

/-- A settlement that the user has confirmed. -/
theorem settle_issues_of {A : PageOp → Prop} (hbrowses : ∀ o, browses o → A o)
    {payee : GroupBalance}
    (hpost : ∀ groupId payerId key, A (.createSettlement groupId
      ⟨payerId, payee.userId, payee.amountMinorUnits.natAbs, key⟩)) (retries : ℕ) :
    (do
      let confirmed ← PageOp.perform .confirmSheet
      if confirmed then
        if ← PageOp.perform .mounted then
          BalancesPage.createSettlement payee payee.amountMinorUnits.natAbs retries
            none : Page Unit).Issues A := by
  refine .bind (issues_perform_of (hbrowses _ ⟨rfl, rfl⟩)) fun confirmed => ?_
  cases confirmed with
  | false => trivial
  | true =>
    refine .bind (issues_perform_of (hbrowses _ ⟨rfl, rfl⟩)) fun mounted => ?_
    cases mounted with
    | false => trivial
    | true => exact createSettlement_issues_of hbrowses hpost retries none

/-- Only a page that shows a creditor has one chosen. -/
theorem chosen_of_answer {payee : GroupBalance} {s s' : BalancesPageState}
    {did : Except AppFailure (pageInterface.Res (.tapSettle payee))}
    (h : pageMachine.Answer (.tapSettle payee) s did (.ok true) s') :
    s.balances ≠ [] := by
  obtain rfl := h.did_eq
  generalize hdid : (Except.ok true : Except AppFailure (pageInterface.Res (.tapSettle payee))) =
    did at h
  cases h with
  | done world =>
    have htap := of_decide_eq_true (Except.ok.inj hdid.symm)
    exact List.ne_nil_of_mem htap.1
  | failed e hfails => exact hfails.elim

/-- The calls post what was chosen. -/
theorem pageCall_wp (c : PageCall) :
    wp (pageMachine.ownLog pid (PaysWhatWasChosen pid)) (fun _ _ => True)
      c.body [] := by
  -- What only browses pays nothing.
  have hbrowses : ∀ p : Page Unit, p.Issues browses →
      wp (pageMachine.ownLog pid (PaysWhatWasChosen pid))
        (fun _ _ => True) p [] := by
    intro p hp
    refine wp_ownLog_of_issues (I := fun _ => True) hp ?_ ?_ ?_ trivial
    · intro own o _ ho hpaid
      rw [ho.2] at hpaid
      cases hpaid
    · exact fun _ _ _ _ _ _ _ _ _ => trivial
    · exact fun _ _ _ => trivial
  cases c with
  | loadGroups => exact hbrowses _ loadGroups_issues
  | selectGroup groupId => exact hbrowses _ (selectGroup_issues groupId)
  | settle payee retries =>
    -- The tap tells which group and balances were chosen; all that follows pays in its name.
    refine wp_ownLog_bind (fun _ _ => trivial) (fun h => by cases h) fun s did chosen s' hans => ?_
    cases chosen with
    | false => trivial
    | true =>
      have hshown : s.balances ≠ [] := chosen_of_answer hans
      refine wp_ownLog_of_issues (B := fun o => isTap o = false)
        (I := fun own => ∃ s, choice? pid own = some s ∧ s.balances ≠ []) ?_ ?_ ?_
        (fun _ _ _ => trivial) ?_
      · exact settle_issues_of (fun o ho => ho.1) (fun _ _ _ => rfl) retries
      · exact fun own o hown _ _ => hown
      · intro own o w did seen w' hown ho _
        rw [choice?_cons ho]
        exact hown
      · exact ⟨s, by simp [choice?, isTap], hshown⟩

/-! ## The selected group -/

/-- What a run of the page shows, has shown and has paid. -/
structure StaysSelected (h : PageHist) : Prop where
  shows : ShowsSelected h.world
  shown : ∀ e ∈ h.log, ShowsSelected e.pre
  pays : PaysShown h.log

/-- A step that leaves what the page shows, and the group it shows it for, as they were. -/
theorem ShowsSelected.congr {s s' : BalancesPageState} (hs : ShowsSelected s)
    (hbalances : s'.balances = s.balances) (hsettlements : s'.settlements = s.settlements)
    (hselected : s'.selectedGroupId = s.selectedGroupId) (hloaded : s'.loadedFor = s.loadedFor) :
    ShowsSelected s' := by
  unfold ShowsSelected
  rw [hbalances, hsettlements, hselected, hloaded]
  exact hs

/-- One operation, while its group is selected. -/
theorem ShowsSelected.exec {s : BalancesPageState} (hs : ShowsSelected s) {o : PageOp}
    (world : PageWorld)
    (ho : ∀ g balances settlements, o = .showGroupData g balances settlements →
      s.selectedGroupId = some g) :
    ShowsSelected (o.exec world s).2 := by
  -- Only data of the selected group is shown, and another selection clears it.
  cases o with
  | showGroups groups =>
    rcases hs with hempty | ⟨hsome, hloaded⟩
    · exact .inl hempty
    · obtain ⟨g, hg⟩ := Option.isSome_iff_exists.mp hsome
      refine ShowsSelected.congr (.inr ⟨hsome, hloaded⟩) rfl rfl ?_ rfl
      show (s.selectedGroupId <|> _) = s.selectedGroupId
      rw [hg]
      rfl
  | showGroupData g balances settlements =>
    have hselected := ho g balances settlements rfl
    refine .inr ⟨?_, ?_⟩
    · show s.selectedGroupId.isSome = true
      rw [hselected]
      rfl
    · exact hselected.symm
  | selectGroup g =>
    simp only [PageOp.exec]
    split
    · exact hs
    · exact .inl ⟨rfl, rfl⟩
  | _ => exact hs.congr rfl rfl rfl rfl

/-- A settlement that is posted goes to the group that the page showed. -/
theorem StaysSelected.posts {h : PageHist} (hs : StaysSelected h) {o : PageOp}
    (hown : PaysWhatWasChosen pid (h.own pid) o) (hallow : StillSelected pid o h) {g : String}
    (hg : paidGroup? o = some g) : (choice? pid h.log).bind (·.loadedFor) = some g := by
  obtain ⟨s, hchoice, hbalances⟩ := hown (by rw [hg]; rfl)
  rw [choice?_own] at hchoice
  have hselected : s.selectedGroupId = some g := hallow.1 g hg s hchoice
  -- The payee was chosen on a page that showed some balances, so that these had been loaded for the
  -- group selected then.
  obtain ⟨e, he, rfl⟩ := Option.map_eq_some_iff.mp hchoice
  rw [hchoice]
  rcases hs.shown e (List.mem_of_find?_eq_some he) with hempty | ⟨-, hloaded⟩
  · exact absurd hempty.1 hbalances
  · show e.pre.loadedFor = some g
    rw [hloaded, hselected]

/-- Every operation of the page keeps what it shows and pays. -/
theorem StaysSelected.step {h : PageHist} (hs : StaysSelected h) {o : PageOp}
    (hown : PaysWhatWasChosen pid (h.own pid) o) (hallow : StillSelected pid o h)
    {did seen : Except AppFailure (pageInterface.Res o)} {s : BalancesPageState}
    (hans : pageMachine.Answer o h.world did seen s) :
    StaysSelected (h.record pid o did seen s) := by
  constructor
  case shows =>
    cases hans with
    | done world =>
      apply hs.shows.exec world
      rintro g balances settlements rfl
      exact hallow.2
    | failed e hfails => exact hfails.elim
    | lost e world hloses => exact hloses.elim
  case shown =>
    intro e he
    rcases List.mem_cons.mp he with rfl | he
    · exact hs.shows
    · exact hs.shown e he
  case pays =>
    exact ⟨fun g hg => hs.posts hown hallow hg, hs.pays⟩

/-- In runs in which a load shows its answer only while its group is selected, and a settlement is
sent only while the group is selected in which its payee was chosen, the page shows and pays the
selected group. -/
theorem shows_and_pays_selected {cfg : steadyPage.Config}
    (h : steadyPage.Reachable Opens cfg) :
    ShowsSelected cfg.hist.world ∧ PaysShown cfg.hist.log := by
  have hkeeps : StaysSelected cfg.hist ∧ ∀ (pid : ℕ) (c : PageCall) (a : Unit),
      cfg.procs[pid]? = some (c, .ret a) → True := by
    refine @System.keeps_of_ownLog _ _ _ _ steadyPage _
      (fun pid _ => PaysWhatWasChosen pid) (fun _ _ _ _ => True) StaysSelected
      (fun pid c _ => pageCall_wp c) ?_ ?_ ?_ _ h
    · rintro s ⟨user, rfl⟩
      exact ⟨.inl ⟨rfl, rfl⟩, fun e he => (List.not_mem_nil he).elim, trivial⟩
    · rintro h s hs (rfl | ⟨user, rfl⟩)
      · exact ⟨hs.shows.congr rfl rfl rfl rfl, hs.shown, hs.pays⟩
      · exact ⟨hs.shows.congr rfl rfl rfl rfl, hs.shown, hs.pays⟩
    · exact fun pid c o h did seen s hown hs hallow hans => hs.step hown hallow hans
  exact ⟨hkeeps.1.shows, hkeeps.1.pays⟩

/-- Two groups. The user `u1` owes `u2` in the first one, and the second one is settled. -/
def twoGroups : PageWorld where
  groups := [⟨"g1", "Flat"⟩, ⟨"g2", "Trip"⟩]
  groupData groupId :=
    if groupId = "g1" then ([⟨"u1", "A", "a@x.io", -500⟩, ⟨"u2", "B", "b@x.io", 500⟩], [])
    else ([⟨"u1", "A", "a@x.io", 0⟩, ⟨"u3", "C", "c@x.io", 0⟩], [])

/-- The page has loaded the groups and shows the first one. -/
def firstGroup (allow : ℕ → PageOp → PageHist → Prop) :
    List (System.Action { pageSystem with allow := allow }) := List.flatten
  [[.spawn .loadGroups], System.turns _ 0 twoGroups 10]

/-- The user chooses a payee in the first group, and the request fails, so that the page offers to
retry. -/
def settleFails (allow : ℕ → PageOp → PageHist → Prop) :
    List (System.Action { pageSystem with allow := allow }) := List.flatten
  [[.spawn (.settle ⟨"u2", "B", "b@x.io", 500⟩ 1)], System.turns _ 1 twoGroups 6,
    System.turns _ 1 { twoGroups with failure := some (.network "offline") } 1,
    System.turns _ 1 twoGroups 2]

/-- A payment that failed is tried again while its group is selected. -/
theorem shows_and_pays_selected_retried : ∃ cfg,
    steadyPage.play (firstGroup StillSelected ++ settleFails StillSelected ++
      System.turns _ 1 twoGroups 3) (steadyPage.start { user := some "u1" }) = some cfg ∧
    (cfg.hist.log.filterMap fun e => paidGroup? e.op) = ["g1", "g1"] ∧
    ShowsSelected cfg.hist.world ∧ PaysShown cfg.hist.log := by
  obtain ⟨cfg, hplay, hall, hpaid⟩ : ∃ cfg,
      steadyPage.play (firstGroup StillSelected ++ settleFails StillSelected ++
        System.turns _ 1 twoGroups 3) (steadyPage.start { user := some "u1" }) = some cfg ∧
      steadyPage.Allowed cfg.hist.log ∧
      (cfg.hist.log.filterMap fun e => paidGroup? e.op) = ["g1", "g1"] :=
    System.exists_of_play (by decide +kernel)
  have hreach : steadyPage.Reachable Opens cfg :=
    System.reachable_of_allowed (.start ⟨_, rfl⟩) hplay hall
  exact ⟨cfg, hplay, hpaid, shows_and_pays_selected hreach⟩

/-- The answer of an earlier load is shown for the group that has been selected since, and a retry
pays the group that has been selected since. -/
theorem shows_and_pays_another :
    (¬∀ cfg : pageSystem.Config, pageSystem.Reachable Opens cfg →
      ShowsSelected cfg.hist.world) ∧
    ¬∀ cfg : pageSystem.Config, pageSystem.Reachable Opens cfg →
      PaysShown cfg.hist.log := by
  constructor
  · -- The second group is selected while the first load is on its way.
    intro hshows
    obtain ⟨cfg, hplay, hshown⟩ : ∃ cfg,
        pageSystem.play (List.flatten [[.spawn .loadGroups], System.turns _ 0 twoGroups 5,
          [.spawn (.selectGroup (some "g2"))], System.turns _ 1 twoGroups 5,
          System.turns _ 0 twoGroups 5]) (pageSystem.start { user := some "u1" }) = some cfg ∧
        ¬ShowsSelected cfg.hist.world :=
      System.exists_of_play (by decide +kernel)
    refine hshown (hshows cfg ?_)
    exact System.reachable_of_play (fun _ _ _ => trivial) (.start ⟨_, rfl⟩) hplay
  · -- The second group is selected before the retry.
    intro hpays
    obtain ⟨cfg, hplay, hpaid⟩ : ∃ cfg,
        pageSystem.play (firstGroup (fun _ _ _ => True) ++
          settleFails (fun _ _ _ => True) ++ [.spawn (.selectGroup (some "g2"))] ++
          System.turns _ 2 twoGroups 5 ++ System.turns _ 1 twoGroups 3)
          (pageSystem.start { user := some "u1" }) = some cfg ∧ ¬PaysShown cfg.hist.log :=
      System.exists_of_play (by decide +kernel)
    refine hpaid (hpays cfg ?_)
    exact System.reachable_of_play (fun _ _ _ => trivial) (.start ⟨_, rfl⟩) hplay

end SplitBill.Frontend
