import Mathlib.Data.Fintype.EquivFin
import SplitBill.Expenses.UpdateAlone
import SplitBill.Frontend.SettleUp
import SplitBill.Settlements.ZeroSum
import SplitBill.Takeover

/-!
# Settling up ends

A debtor who settles with a creditor from the balances page pays all that the creditor is owed, also
when the debt is smaller. So every settlement leaves the creditor with nothing, and there is one
member less with a balance. Members who settle one after another, each from the balances that the
server publishes by then, are done after fewer settlements than there were members with a balance,
and until they are done somebody can settle.
-/

namespace SplitBill

open Interleave
open Frontend (GroupBalance CreateSettlementRequest memberBalances youOweTotal debtOf Pays)
open Prisma (SettlementCreateData)

/-! ## What one call commits -/

/-- The transaction of `createSettlement` committed a settlement of the input. -/
def RecordsPayment (input : CreateSettlementInput) (d d' : Db) : Prop :=
  ∃ now settledAt existing idempotency activity expiresAt s,
    (claimAndSettle now existing
      { groupId := input.groupId, payerId := input.payerId, payeeId := input.payeeId,
        amountMinorUnits := input.amountMinorUnits, currencyCode := "PKR", settledAt }
      idempotency activity expiresAt).eval d = .ok (s, d')

/-- A settlement adds one row, and leaves the group and its expenses alone. -/
theorem RecordsPayment.exists_row {input : CreateSettlementInput} {d d' : Db}
    (h : RecordsPayment input d d') :
    ∃ s : Settlement, s.groupId = input.groupId ∧
      s.forBalance = ⟨input.payerId, input.payeeId, input.amountMinorUnits⟩ ∧
      d'.settlements = s :: d.settlements ∧ d'.expenses = d.expenses ∧
      d'.groupMembers = d.groupMembers ∧ d'.groups = d.groups ∧ d'.users = d.users ∧
      d.nextId ≤ d'.nextId := by
  obtain ⟨now, settledAt, existing, context, activity, expiresAt, s, heval⟩ := h
  obtain ⟨-, -, event, records, -, -, rfl⟩ := claimAndSettle_eq_ok heval
  exact ⟨_, rfl, rfl, rfl, rfl, rfl, rfl, rfl, Nat.le_add_right _ 3⟩

section Commits

variable {lib : Lib} {α : Type} {D : Discipline backend Err World} {strict : Prop} {d : Db}
  {x : World} {input : CreateSettlementInput} {idempotency : IdempotencyContext}

/-- What an operation makes of the tables it makes of them as well under a lock. -/
theorem withLock_tables (hD : Sequential lib D strict) {P : Db → Prop} {env : Env} {key : Key}
    {operation : Act α} (hd : P d)
    (hop : ∀ x : World, x.db = d → wp D (fun _ y => P y.db) operation x) (hx : x.db = d) :
    wp D (fun _ y => P y.db) (DistributedLock.withLock env key operation) x := by
  have hacquire : (DistributedLock.acquire env key).attempt.Issues
      (Op.OnDb (ReadsOr NoTransaction)) :=
    .attempt (.bind (issues_op trivial) fun _ => .bind (issues_op trivial) fun _ => trivial)
  refine wp_bind.mpr (wp_mono ?_ (hD.rest hacquire hx))
  rintro (e | e | _ | token) y hy
  · show P y.db
    rw [hy]
    exact hd
  · exact hop y hy
  · show P y.db
    rw [hy]
    exact hd
  · -- The release writes nothing, whatever came of the operation.
    refine wp_bind.mpr (wp_attempt.mpr (wp_mono ?_ (hop y hy)))
    intro outcome z hz
    have hrelease : (DistributedLock.release key token).attempt.Issues
        (Op.OnDb (ReadsOr NoTransaction)) := .attempt (issues_op trivial)
    refine wp_bind.mpr (wp_mono ?_ (hD.rest hrelease rfl))
    intro r u hu
    have hkept : P u.db := hu ▸ hz
    cases r with
    | error e => exact hkept
    | ok _ => cases outcome <;> exact hkept

/-- The transaction commits a settlement or nothing, and says that a constraint is violated only in
the second case. -/
theorem claimAndSettle_tables (hD : Sequential lib D strict) {existing : Option Id}
    {settledAt expiresAt : Time} {activity : ActivityEventInput} (hx : x.db = d) :
    wp D (fun r y => y.db = d ∨
        RecordsPayment input d y.db ∧ r ≠ .error (.prisma .uniqueConstraint))
      (SettlementRepository.claimAndSettle existing
        { groupId := input.groupId, payerId := input.payerId, payeeId := input.payeeId,
          amountMinorUnits := input.amountMinorUnits, currencyCode := "PKR", settledAt }
        idempotency activity expiresAt) x := by
  refine wp_perform.mpr fun x₁ hrely r y hans => ⟨hD.guar _ _, ?_⟩
  have hx₁ : x₁.db = d := (hD.stable d).rely hx hrely
  obtain ⟨did, hans, -⟩ := hD.answer hans
  obtain ⟨-, hseen, ⟨e, -, hdb⟩ | ⟨c, s, hdid, heval⟩⟩ := answer_write rfl hans
  · exact .inl (hdb.trans hx₁)
  · rw [hx₁] at heval
    refine .inr ⟨⟨_, _, _, _, _, _, _, heval⟩, ?_⟩
    rcases hseen with hseen | hseen
    · rw [hseen, hdid]
      nofun
    · rw [hseen]
      nofun

/-- `SettlementRepository.createSettlement` commits one settlement or nothing. -/
theorem repositoryCreateSettlement_tables (hD : Sequential lib D strict) {settledAt : Time}
    {activity : ActivityEventInput} (hx : x.db = d) :
    wp D (fun _ y => y.db = d ∨ RecordsPayment input d y.db)
      (SettlementRepository.createSettlement
        { groupId := input.groupId, payerId := input.payerId, payeeId := input.payeeId,
          amountMinorUnits := input.amountMinorUnits, currencyCode := "PKR", settledAt }
        idempotency activity) x := by
  have hs := hD.stable d
  have hreplay : ∀ record, (SettlementRepository.replaySettlement record).Issues
      (Op.OnDb (ReadsOr NoTransaction)) :=
    fun record => SettlementRepository.issues_replaySettlement (fun _ => .inl ⟨_, rfl⟩) record
  -- Only the transaction writes, and the second look at the record follows a violated constraint.
  have honce : wp D (fun r y => y.db = d ∨ RecordsPayment input d y.db ∧
        r ≠ .error (.prisma .uniqueConstraint))
      (SettlementRepository.settleOnce
        { groupId := input.groupId, payerId := input.payerId, payeeId := input.payeeId,
          amountMinorUnits := input.amountMinorUnits, currencyCode := "PKR", settledAt }
        idempotency activity) x := by
    have hsettle : ∀ existing (y : World), y.db = d → wp D (fun r z => z.db = d ∨
          RecordsPayment input d z.db ∧ r ≠ .error (.prisma .uniqueConstraint))
        (SettlementRepository.settle existing
          { groupId := input.groupId, payerId := input.payerId, payeeId := input.payeeId,
            amountMinorUnits := input.amountMinorUnits, currencyCode := "PKR", settledAt }
          idempotency activity) y := by
      intro existing y hy
      refine wp_bind.mpr (hs.quiet .now (by rintro d ⟨⟩) hy ?_)
      rintro (e | now) z hz
      · exact .inl hz
      · exact claimAndSettle_tables hD hz
    have hfind : wp D (fun _ (y : World) => y.db = d)
        (SettlementRepository.findIdempotencyRecord idempotency.key) x :=
      hs.read (.settlement (.findIdempotencyRecord _)) rfl hx (fun _ _ h => h) fun _ h _ => h
    refine wp_bind.mpr (wp_mono ?_ hfind)
    rintro (e | _ | record) y hy
    · exact .inl hy
    · exact hsettle none y hy
    · refine wp_bind.mpr (hs.quiet .now (by rintro d ⟨⟩) hy ?_)
      rintro (e | now) z hz
      · exact .inl hz
      show wp D _ ((Prog.ofExcept _).bind _) z
      rcases reconcileIdempotencyRecord record idempotency now with e | _ | _
      · exact .inl hz
      · exact wp_mono (fun _ _ h => .inl h) (hD.rest (hreplay record) hz)
      · exact hsettle (some record.id) z hz
  unfold SettlementRepository.createSettlement
  refine wp_tryCatch.mpr (wp_mono ?_ honce)
  rintro (e | s) y hy
  · show wp D _ (if e = .prisma .uniqueConstraint then _ else _) y
    split
    · next he =>
      rcases hy with hy | ⟨-, hne⟩
      · have hclash : (SettlementRepository.settleClash idempotency).Issues
            (Op.OnDb (ReadsOr NoTransaction)) := by
          refine .bind (issues_op (.inl ⟨_, rfl⟩)) fun existing => ?_
          cases existing with
          | none => trivial
          | some existing =>
            refine .bind (issues_op trivial) fun now => .bind (Prog.issues_ofExcept _ _) fun r => ?_
            cases r
            · exact hreplay existing
            · trivial
        exact wp_mono (fun _ _ h => .inl h) (hD.rest hclash hy)
      · exact absurd (congrArg _ he) hne
    · exact hy.imp id And.left
  · exact hy.imp id And.left

/-- `createSettlement` commits one settlement, between two members, or nothing. -/
theorem createSettlement_tables (hD : Sequential lib D strict) (env : Env) (requesterId : Id)
    {w : World} :
    wp D (fun _ y => y.db = w.db ∨ input.payerId ≠ input.payeeId ∧
        input.payerId ∈ w.db.memberIds input.groupId ∧
        input.payeeId ∈ w.db.memberIds input.groupId ∧ RecordsPayment input w.db y.db)
      (SettlementService.createSettlement env requesterId input idempotency) w := by
  have hs := hD.stable w.db
  unfold SettlementService.createSettlement
  refine wp_bind.mpr (hs.read (.settlement (.findGroupById _)) rfl rfl ?_ fun y hy _ => .inl hy)
  intro _ x₁ hx₁
  refine wp_expect_bind.mpr ⟨fun g _ => ?_, fun _ => .inl hx₁⟩
  refine wp_bind.mpr (hs.read (.settlement (.findGroupMembers _)) rfl hx₁ ?_ fun y hy _ => .inl hy)
  intro c x₂ hx₂
  rw [hx₂]
  refine wp_ensure_bind.mpr ⟨fun _ => ?_, fun _ => .inl hx₂⟩
  refine wp_ensure_bind.mpr ⟨fun hne => ?_, fun _ => .inl hx₂⟩
  refine wp_ensure_bind.mpr ⟨fun hpayer => ?_, fun _ => .inl hx₂⟩
  refine wp_ensure_bind.mpr ⟨fun hpayee => ?_, fun _ => .inl hx₂⟩
  have hmembers := And.intro (mem_findGroupMembers.mp hpayer) (mem_findGroupMembers.mp hpayee)
  have hrecord : ∀ y : World, (y.db = w.db ∨ RecordsPayment input w.db y.db) → y.db = w.db ∨
      input.payerId ≠ input.payeeId ∧ input.payerId ∈ w.db.memberIds input.groupId ∧
        input.payeeId ∈ w.db.memberIds input.groupId ∧ RecordsPayment input w.db y.db :=
    fun _ h => h.imp id fun h => ⟨hne, hmembers.1, hmembers.2, h⟩
  -- Inside the lock the tables are changed by the transaction at most.
  have hlocked : wp D (fun _ y => y.db = w.db ∨ RecordsPayment input w.db y.db)
      (DistributedLock.withLock env (.lockSettlementGroup input.groupId) do
        let settledAt ← newDate
        SettlementRepository.createSettlement
          { groupId := input.groupId, payerId := input.payerId, payeeId := input.payeeId,
            amountMinorUnits := input.amountMinorUnits, currencyCode := "PKR", settledAt }
          idempotency
          { userId := requesterId, type := .settlementAdded, message := "recorded a settlement" })
      x₂ := by
    refine withLock_tables hD (P := fun d' => d' = w.db ∨ RecordsPayment input w.db d') (.inl rfl)
      ?_ hx₂
    intro y hy
    refine wp_bind.mpr (hs.quiet .now (by rintro d ⟨⟩) hy ?_)
    rintro (e | settledAt) z hz
    · exact .inl hz
    · exact repositoryCreateSettlement_tables hD hz
  refine wp_tryCatch.mpr (wp_bind.mpr (wp_mono ?_ hlocked))
  -- However the lock and the count end, the tables are those of the transaction.
  rintro (e | s) y hy
  · show wp D _ (if e = .lockConflict then _ else _) y
    split <;> exact hrecord y hy
  · refine wp_bind.mpr ((hD.stable y.db).quiet (.metric _) (by rintro d ⟨⟩) rfl ?_)
    rintro (e | _) z hz
    · show wp D _ (if e = .lockConflict then _ else _) z
      have hz' : z.db = w.db ∨ RecordsPayment input w.db z.db := by
        rw [hz]
        exact hy
      split <;> exact hrecord z hz'
    · refine hrecord z ?_
      rw [hz]
      exact hy

end Commits

/-! ## One member settles with another -/

/-- A balance as the page shows it, where `text` writes the ids. -/
def BalanceDto.shown (text : Id → String) (dto : BalanceDto) : GroupBalance :=
  ⟨text dto.userId, dto.name, dto.email, dto.amountMinorUnits⟩

/-- The page may send the request when the user settles with the payee. -/
structure Sends (currentUserId : String) (payee : GroupBalance) (groupId : String)
    (request : CreateSettlementRequest) : Prop where
  payer : request.payerId = currentUserId
  issued : ∀ retries A, (Frontend.BalancesPage.settle payee retries).Issues A →
    A (.createSettlement groupId request)

/-- A request that the page may send pays what the payee is owed. -/
theorem Sends.pays {currentUserId groupId : String} {payee : GroupBalance}
    {request : CreateSettlementRequest} (h : Sends currentUserId payee groupId request) :
    Pays payee.userId payee.amountMinorUnits.natAbs request :=
  h.issued 0 _ (Frontend.settle_pays 0) (groupId, request) rfl

/-- The request that the page sends when the user settles with the payee. -/
theorem sends_settle (currentUserId groupId key : String) (payee : GroupBalance) :
    Sends currentUserId payee groupId
      ⟨currentUserId, payee.userId, payee.amountMinorUnits.natAbs, key⟩ where
  payer := rfl
  issued _ _ h := Frontend.post_of_issues h groupId currentUserId key

/-- A member who owes something settles with a creditor: the page shows the balances that the server
answers, and what it sends is recorded, whether or not the server's answer arrives. -/
inductive SettleRound (lib : Lib) (env : Env) (text : Id → String) (groupId : Id) (w w' : World) :
    Prop
  | recorded (payerId payeeId : Id) (dtos : List BalanceDto) (w₁ : World) (payee : GroupBalance)
      (request : CreateSettlementRequest) (idempotency : IdempotencyContext)
      (result : Except Err SettlementDto)
      (read : Exec (machine lib) World.Later (SettlementService.getGroupBalances payerId groupId) w
        (.ok dtos) w₁)
      (owes : 0 < -youOweTotal (dtos.map (·.shown text)) (text payerId))
      (tile : payee ∈ memberBalances (dtos.map (·.shown text)) (text payerId))
      (creditor : payee.isCreditor = true)
      (sends : Sends (text payerId) payee (text groupId) request)
      (payeeText : request.payeeId = text payeeId)
      (key : idempotency.key = request.idempotencyKey)
      (create : Exec (machine lib) World.Later (SettlementService.createSettlement env payerId
        ⟨groupId, payerId, payeeId, request.amountMinorUnits⟩ idempotency) w₁ result w')
      (recorded : w'.db ≠ w.db)

/-- A group in which the members can settle: the ledger is in order, and no balance is too large for
a double. -/
structure CanSettle (groupId : Id) (d : Db) : Prop where
  ledger : Ledger d
  exact : ∀ u, |position d groupId u| ≤ Js.maxSafeInteger
  group : (d.group? groupId).isSome
  users : ∀ u ∈ d.memberIds groupId, (d.user? u).isSome

section Round

variable {lib : Lib} {env : Env} {text : Id → String} {groupId : Id} {w w' : World}

/-- What the page shows, when the balances are read. -/
theorem getGroupBalances_shown (h : CanSettle groupId w.db) {requesterId : Id}
    {dtos : List BalanceDto} (hread : Exec (machine lib) World.Later
      (SettlementService.getGroupBalances requesterId groupId) w (.ok dtos) w') :
    w'.db = w.db ∧ (dtos.map (·.userId)).Perm (w.db.memberIds groupId) ∧
      ∀ dto ∈ dtos, dto.amountMinorUnits = position w.db groupId dto.userId := by
  have hsame : w'.db = w.db := (hread.sound (getGroupBalances_outcome (sequential_alone lib)
    requesterId groupId)).holds (I := (· = w.db)) rfl fun _ _ => False.elim
  obtain ⟨hids, hamounts⟩ := hread.sound (getGroupBalances_positions requesterId groupId) dtos rfl
  refine ⟨hsame, hids, fun dto hdto => ?_⟩
  rw [hamounts dto hdto]
  apply Js.representable_of_abs_le
  have hexact := h.exact dto.userId
  unfold Js.maxSafeInteger at hexact
  omega

/-- A round is a transfer in which the debtor takes over what the creditor was owed. -/
theorem SettleRound.takesOver (htext : Function.Injective text) (h : CanSettle groupId w.db)
    (hround : SettleRound lib env text groupId w w') : CanSettle groupId w'.db ∧
      w'.db.memberIds groupId = w.db.memberIds groupId ∧
      ∃ debtor ∈ w.db.memberIds groupId, ∃ creditor ∈ w.db.memberIds groupId,
        TakesOver (position w.db groupId) debtor creditor (position w'.db groupId) := by
  obtain ⟨payerId, payeeId, dtos, w₁, payee, request, idempotency, result, hread, howes, htile,
    hcreditor, hsends, hpayeeText, -, hcreate, hrecorded⟩ := hround
  obtain ⟨hsame, hids, hamounts⟩ := getGroupBalances_shown h hread
  have hnodup : ((dtos.map (·.shown text)).map (·.userId)).Nodup := by
    rw [List.map_map]
    have hperm := hids.map text
    rw [List.map_map] at hperm
    exact hperm.nodup_iff.mpr ((h.ledger.members groupId).map htext)
  -- The debtor's own entry.
  rw [Frontend.youOweTotal_eq hnodup] at howes
  obtain ⟨own, hown, hownId, hdebt⟩ := Frontend.exists_of_debtOf_pos howes
  obtain ⟨ownDto, hownDto, rfl⟩ := List.mem_map.mp hown
  have hpayer : ownDto.userId = payerId := htext hownId
  have hdebtor : position w.db groupId payerId < 0 := by
    have hshown : (ownDto.shown text).amountMinorUnits = position w.db groupId payerId := by
      rw [← hpayer]
      exact hamounts ownDto hownDto
    omega
  -- The creditor's tile.
  obtain ⟨htileMem, hother⟩ := Frontend.mem_memberBalances.mp htile
  obtain ⟨dto, hdto, rfl⟩ := List.mem_map.mp htileMem
  obtain ⟨hpayeeId, hamount⟩ := hsends.pays
  have hpayee : dto.userId = payeeId := htext (hpayeeId.symm.trans hpayeeText)
  have hshown : (dto.shown text).amountMinorUnits = position w.db groupId payeeId := by
    rw [← hpayee]
    exact hamounts dto hdto
  have hcredit : 0 < position w.db groupId payeeId := hshown ▸ of_decide_eq_true hcreditor
  have hpaid : request.amountMinorUnits = position w.db groupId payeeId := by
    omega
  -- The settlement.
  have htables := hcreate.sound (createSettlement_tables (sequential_alone lib) env payerId)
  rw [hsame] at htables
  obtain hdb | ⟨hne, hpayerMem, hpayeeMem, hsettles⟩ := htables
  · exact absurd hdb hrecorded
  obtain ⟨s, hgroup, hrow, hs, he, hm, hgroups, husers, hnext⟩ := hsettles.exists_row
  have hmembers : w'.db.memberIds groupId = w.db.memberIds groupId :=
    congrFun (memberIds_congr hm) groupId
  have hledger : Ledger w'.db := by
    refine h.ledger.settle (s := s) ?_ ?_ hs he hm hnext
    · rw [hgroup, show s.payerId = payerId from congrArg (·.payerId) hrow]
      exact hpayerMem
    · rw [hgroup, show s.payeeId = payeeId from congrArg (·.payeeId) hrow]
      exact hpayeeMem
  have hposition : ∀ u, position w'.db groupId u = position w.db groupId u +
      ((if payerId = u then request.amountMinorUnits else 0) -
        (if payeeId = u then request.amountMinorUnits else 0)) := by
    intro u
    rw [position_settle he hs]
    unfold Settlement.shareIn
    rw [if_pos hgroup, hrow]
    rfl
  have htakes : TakesOver (position w.db groupId) payerId payeeId (position w'.db groupId) := by
    refine ⟨hdebtor, hcredit, ?_, ?_, fun u hu hu' => ?_⟩
    · rw [hposition, if_pos rfl, if_neg (Ne.symm hne), sub_zero, hpaid]
    · rw [hposition, if_neg hne, if_pos rfl, hpaid]
      omega
    · rw [hposition, if_neg (Ne.symm hu), if_neg (Ne.symm hu'), sub_zero, add_zero]
  refine ⟨⟨hledger, htakes.bounded h.exact, ?_, ?_⟩, hmembers, payerId, hpayerMem, payeeId,
    hpayeeMem, htakes⟩
  · unfold Db.group?
    rw [hgroups]
    exact h.group
  · unfold Db.user?
    rw [hmembers, husers]
    exact h.users

end Round

/-! ## Somebody can settle -/

/-- The transaction of a request with a new key is successful. -/
theorem exists_claimAndSettle {data : SettlementCreateData} {idempotency : IdempotencyContext}
    {activity : ActivityEventInput} {d : Db} (now expiresAt : Time)
    (hkey : ∀ r ∈ d.idempotencyRecords, r.key ≠ idempotency.key)
    (huser : (d.user? idempotency.userId).isSome) (hgroup : (d.group? data.groupId).isSome)
    (hpayer : (d.user? data.payerId).isSome) (hpayee : (d.user? data.payeeId).isSome)
    (hactor : (d.user? activity.userId).isSome) :
    ∃ s d', (claimAndSettle now none data idempotency activity expiresAt).eval d =
      .ok (s, d') := by
  have hclaim : ¬d.idempotencyRecords.any (·.key = idempotency.key) := by
    rw [List.any_eq_true]
    rintro ⟨r, hr, heq⟩
    exact hkey r hr (of_decide_eq_true heq)
  -- The rows of the transaction, one after the other, none of which violates a constraint.
  let claim : IdempotencyRecord :=
    { id := d.nextId, key := idempotency.key, userId := idempotency.userId,
      requestHash := idempotency.requestHash, status := .pending, operation := .settlementCreate,
      scope := some data.groupId, resourceId := none, createdAt := now, expiresAt }
  let d₁ : Db := { d with
    idempotencyRecords := claim :: d.idempotencyRecords, nextId := d.nextId + 1 }
  let d₂ : Db := { d₁ with
    settlements := newSettlement d now data :: d₁.settlements, nextId := d₁.nextId + 1 }
  let settlement := (newSettlement d now data).record d₂
  obtain ⟨eventId, d₃, hevent⟩ := @createActivityEvent_of_isSome now
    { groupId := settlement.groupId, userId := activity.userId, type := activity.type,
      message := activity.message, amountMinorUnits := some settlement.amountMinorUnits,
      currencyCode := some settlement.currencyCode, occurredAt := settlement.createdAt } d₂
    hgroup hactor
  have hpending : claim ∈ d₃.idempotencyRecords := by
    obtain ⟨event, -, rfl⟩ := createActivityEvent_eq_ok hevent
    exact List.mem_cons_self
  obtain ⟨d₄, hupdate⟩ : ∃ d₄, Prisma.idempotencyRecordUpdate claim.id .completed settlement.id d₃ =
      .ok ((), d₄) := by
    have hsome : ¬d₃.idempotencyRecords.all (·.id ≠ claim.id) := fun hall =>
      of_decide_eq_true (List.all_eq_true.mp hall claim hpending) rfl
    exact ⟨_, if_neg hsome⟩
  -- Its statements in the order of the source.
  refine ⟨settlement, d₄, Tx.eval_bind_eq_ok.mpr ⟨(), d, rfl, ?_⟩⟩
  refine Tx.eval_bind_eq_ok.mpr ⟨claim, d₁, ?_, ?_⟩
  · have hexists : ¬(d.user? idempotency.userId).isNone := by
      rw [← Option.not_isSome, huser]
      decide
    exact (if_neg hclaim).trans (if_neg hexists)
  refine Tx.eval_bind_eq_ok.mpr ⟨settlement, d₂, ?_, ?_⟩
  · have hexist : ¬((d.group? data.groupId).isNone ∨ (d.user? data.payerId).isNone ∨
        (d.user? data.payeeId).isNone) := by
      rw [← Option.not_isSome, ← Option.not_isSome, ← Option.not_isSome, hgroup, hpayer, hpayee]
      decide
    exact Tx.eval_including_eq_ok.mpr ⟨newSettlement d now data, if_neg hexist, rfl⟩
  refine Tx.eval_bind_eq_ok.mpr ⟨eventId, d₃, hevent, ?_⟩
  exact Tx.eval_bind_eq_ok.mpr ⟨(), d₄, hupdate, rfl⟩

section Progress

variable {lib : Lib} {env : Env} {text : Id → String} {groupId : Id} {w : World}

/-- A member can read the balances. -/
theorem run_getGroupBalances {requesterId : Id} (hgroup : (w.db.group? groupId).isSome)
    (hmember : requesterId ∈ w.db.memberIds groupId) :
    ∃ dtos, (machine lib).run {} (SettlementService.getGroupBalances requesterId groupId) w =
      (.ok dtos, w) := by
  obtain ⟨g, hg⟩ := Option.isSome_iff_exists.mp hgroup
  have hfind : (machine lib).run {} (SettlementRepository.findGroupById groupId) w =
      (.ok (some g), w) := by
    refine (Machine.run_perform _ _ _ _).trans ?_
    show (Except.ok (w.db.group? groupId), w) = _
    rw [hg]
  have hmembers := (machine lib).run_perform {} (.db (.settlement (.findGroupMembers groupId))) w
  exact ⟨_, (Machine.run_bind hfind).trans <| (Machine.run_bind hmembers).trans <|
    (Machine.run_ensure_bind _ _ (mem_findGroupMembers.mpr hmember) _ _).trans rfl⟩

/-- The world in which a free lock has been taken. -/
def World.locked (env : Env) (key : Key) (w : World) : World :=
  { w with
    random := w.random + 1
    redis := w.redis.write key (some ⟨.token w.random, some (w.now + env.distributedLockTtlMs)⟩) }

/-- A call that succeeds, with its error caught. -/
theorem run_attempt_ok {α : Type} {p : Act α} {a : α} {w' : World}
    (h : (machine lib).run {} p w = (.ok a, w')) :
    (machine lib).run {} p.attempt w = (.ok (.ok a), w') :=
  (Machine.run_attempt _ _ _ _).trans (congrArg (fun r => (Except.ok r.1, r.2)) h)

/-- A program whose lock is free runs under it. -/
theorem run_withLock {α : Type} {key : Key} (hlock : w.redis.lookup w.now key = none)
    {operation : Act α} {a : α} {w' : World}
    (hop : (machine lib).run {} operation (w.locked env key) = (.ok a, w')) :
    (machine lib).run {} (DistributedLock.withLock env key operation) w =
      (.ok a, ((machine lib).run {} (DistributedLock.release key w.random) w').2) := by
  have hset : w.redis.exec w.now (.setNx key (.token w.random) env.distributedLockTtlMs) =
      (true, (w.locked env key).redis) := if_neg (by rw [hlock]; decide)
  have hperform : (machine lib).run {} (Op.perform (.redis .distributedLock
      (.setNx key (.token w.random) env.distributedLockTtlMs)))
      { w with random := w.random + 1 } = (.ok true, w.locked env key) := by
    refine (Machine.run_perform _ _ _ _).trans ?_
    show (Except.ok (w.redis.exec w.now _).1, { w with
      random := w.random + 1, redis := (w.redis.exec w.now _).2 }) = _
    rw [hset]
    rfl
  have hacquire : (machine lib).run {} (DistributedLock.acquire env key) w =
      (.ok (some w.random), w.locked env key) := (Machine.run_bind hperform).trans rfl
  unfold DistributedLock.withLock
  refine (Machine.run_bind (run_attempt_ok hacquire)).trans ?_
  refine (Machine.run_bind (run_attempt_ok hop)).trans ?_
  exact (Machine.run_bind (Machine.run_attempt _ _ _ _)).trans rfl

/-- A request with a new key is recorded. -/
theorem run_repositoryCreateSettlement {data : SettlementCreateData}
    {idempotency : IdempotencyContext} {activity : ActivityEventInput} {s : SettlementRecord}
    {d' : Db} (hkey : ∀ r ∈ w.db.idempotencyRecords, r.key ≠ idempotency.key)
    (heval : (claimAndSettle w.now none data idempotency activity
      (w.now + idempotencyRecordTtlMs)).eval w.db = .ok (s, d')) :
    ∃ w', (machine lib).run {} (SettlementRepository.createSettlement data idempotency activity) w =
      (.ok s, w') ∧ w'.db = d' := by
  have hnone : w.db.idempotencyRecords.find? (·.key = idempotency.key) = none :=
    List.find?_eq_none.mpr fun r hr heq => hkey r hr (of_decide_eq_true heq)
  have hfind : (machine lib).run {} (SettlementRepository.findIdempotencyRecord idempotency.key)
      w = (.ok none, w) := by
    refine (Machine.run_perform _ _ _ _).trans ?_
    show (Except.ok (w.db.idempotencyRecords.find? (·.key = idempotency.key)), w) = _
    rw [hnone]
  have hclaim := ((machine lib).run_perform {} (.db (.settlement (.claimAndSettle none data
    idempotency activity (w.now + idempotencyRecordTtlMs)))) w).trans
      (Access.exec_write_of_eval (w := w) (t := fun _ now => claimAndSettle now none data
        idempotency activity (w.now + idempotencyRecordTtlMs)) rfl heval)
  exact ⟨_, Machine.run_tryCatch ((Machine.run_bind hfind).trans hclaim), rfl⟩

/-- A settlement with a new key is recorded when nobody else holds the lock. -/
theorem run_createSettlement {input : CreateSettlementInput} {idempotency : IdempotencyContext}
    {requesterId : Id} (hgroup : (w.db.group? input.groupId).isSome)
    (husers : ∀ u ∈ w.db.memberIds input.groupId, (w.db.user? u).isSome)
    (hmember : requesterId ∈ w.db.memberIds input.groupId)
    (hpayer : input.payerId ∈ w.db.memberIds input.groupId)
    (hpayee : input.payeeId ∈ w.db.memberIds input.groupId) (hne : input.payerId ≠ input.payeeId)
    (hkey : ∀ r ∈ w.db.idempotencyRecords, r.key ≠ idempotency.key)
    (huser : idempotency.userId = requesterId)
    (hlock : w.redis.lookup w.now (.lockSettlementGroup input.groupId) = none) :
    ((machine lib).run {} (SettlementService.createSettlement env requesterId input idempotency)
      w).2.db ≠ w.db := by
  obtain ⟨g, hg⟩ := Option.isSome_iff_exists.mp hgroup
  let data : SettlementCreateData :=
    { groupId := input.groupId, payerId := input.payerId, payeeId := input.payeeId,
      amountMinorUnits := input.amountMinorUnits, currencyCode := "PKR", settledAt := w.now }
  let activity : ActivityEventInput :=
    { userId := requesterId, type := .settlementAdded, message := "recorded a settlement" }
  obtain ⟨s, d', heval⟩ := @exists_claimAndSettle data idempotency activity w.db w.now
    (w.now + idempotencyRecordTtlMs) hkey (huser ▸ husers _ hmember) hgroup (husers _ hpayer)
    (husers _ hpayee) (husers _ hmember)
  obtain ⟨w', hcreate, hdb'⟩ := @run_repositoryCreateSettlement lib
    (w.locked env (.lockSettlementGroup input.groupId)) data idempotency activity s d' hkey heval
  have hdate : (machine lib).run {} newDate (w.locked env (.lockSettlementGroup input.groupId)) =
      (.ok w.now, w.locked env (.lockSettlementGroup input.groupId)) := rfl
  have hlocked := run_withLock hlock ((Machine.run_bind (g := fun settledAt =>
    SettlementRepository.createSettlement { data with settledAt } idempotency activity)
    hdate).trans hcreate)
  -- The checks before the lock, which all pass.
  have hfind : (machine lib).run {} (SettlementRepository.findGroupById input.groupId) w =
      (.ok (some g), w) := by
    refine (Machine.run_perform _ _ _ _).trans ?_
    show (Except.ok (w.db.group? input.groupId), w) = _
    rw [hg]
  have hmembers := (machine lib).run_perform {}
    (.db (.settlement (.findGroupMembers input.groupId))) w
  obtain ⟨dto, w₃, hrun, hdb⟩ : ∃ dto w₃, (machine lib).run {} (SettlementService.createSettlement
      env requesterId input idempotency) w = (.ok dto, w₃) ∧ w₃.db = w'.db :=
    ⟨_, _, (Machine.run_bind hfind).trans <| (Machine.run_bind hmembers).trans <|
      (Machine.run_ensure_bind _ _ (mem_findGroupMembers.mpr hmember) _ _).trans <|
      (Machine.run_ensure_bind _ _ hne _ _).trans <|
      (Machine.run_ensure_bind _ _ (mem_findGroupMembers.mpr hpayer) _ _).trans <|
      (Machine.run_ensure_bind _ _ (mem_findGroupMembers.mpr hpayee) _ _).trans <|
      Machine.run_tryCatch ((Machine.run_bind hlocked).trans rfl), rfl⟩
  rw [hrun, hdb, hdb']
  -- The tables have one settlement more than before.
  obtain ⟨-, -, event, records, -, -, rfl⟩ := claimAndSettle_eq_ok heval
  intro heq
  have hlength := congrArg (·.settlements.length) heq
  exact absurd hlength (Nat.succ_ne_self _)

end Progress

/-! ## Settling up -/

section Rounds

variable {lib : Lib} {env : Env} {text : Id → String} {groupId : Id} {w w' : World}

/-- A key that no record has. -/
theorem exists_new_key (records : List IdempotencyRecord) :
    ∃ key : String, ∀ r ∈ records, r.key ≠ key := by
  obtain ⟨key, hkey⟩ := Infinite.exists_notMem_finset (records.map (·.key)).toFinset
  refine ⟨key, fun r hr heq => hkey (List.mem_toFinset.mpr ?_)⟩
  exact heq ▸ List.mem_map_of_mem hr

/-- A user's own entry tells what the page says that the user owes. -/
theorem youOweTotal_of_mem {balances : List GroupBalance} (h : (balances.map (·.userId)).Nodup)
    {b : GroupBalance} (hb : b ∈ balances) :
    -youOweTotal balances b.userId = max 0 (-b.amountMinorUnits) := by
  rw [Frontend.youOweTotal_eq h]
  unfold debtOf
  cases hfind : balances.find? (·.userId = b.userId) with
  | none => exact absurd (decide_eq_true rfl) (List.find?_eq_none.mp hfind b hb)
  | some x =>
    have hx : x.userId = b.userId := by simpa using List.find?_some hfind
    rw [List.inj_on_of_nodup_map h (List.mem_of_find?_eq_some hfind) hb hx]
    rfl

/-- While somebody has a balance, there is a debtor who can settle with a creditor. -/
theorem exists_settleRound (htext : Function.Injective text) (h : CanSettle groupId w.db)
    (hlock : w.redis.lookup w.now (.lockSettlementGroup groupId) = none)
    (hopen : ∃ u, position w.db groupId u ≠ 0) :
    ∃ w', SettleRound lib env text groupId w w' := by
  -- Positions that sum to zero and are not all zero have both signs.
  have hmember : ∀ u, position w.db groupId u ≠ 0 → u ∈ (w.db.memberIds groupId).toFinset :=
    fun u hu => List.mem_toFinset.mpr <|
      Decidable.of_not_not fun hno => hu (h.ledger.settled groupId u hno)
  have hsum : ∑ u ∈ (w.db.memberIds groupId).toFinset, position w.db groupId u = 0 := by
    rw [List.sum_toFinset _ (h.ledger.members groupId)]
    exact h.ledger.sum_eq_zero groupId
  obtain ⟨⟨payerId, hpayer, hdebt⟩, payeeId, hpayee, hcredit⟩ :=
    exists_debtor_creditor hsum (hopen.imp fun u hu => ⟨hmember u hu, hu⟩)
  rw [List.mem_toFinset] at hpayer hpayee
  have hne : payerId ≠ payeeId := by
    rintro rfl
    omega
  -- The debtor is shown the balances, and the page offers the creditor.
  obtain ⟨dtos, hread⟩ := @run_getGroupBalances lib groupId w payerId h.group hpayer
  have hexec := (machine lib).exec_run World.later_refl {}
    (SettlementService.getGroupBalances payerId groupId) w
  rw [hread] at hexec
  obtain ⟨-, hids, hamounts⟩ := getGroupBalances_shown h hexec
  have hnodup : ((dtos.map (·.shown text)).map (·.userId)).Nodup := by
    rw [List.map_map]
    have hperm := hids.map text
    rw [List.map_map] at hperm
    exact hperm.nodup_iff.mpr ((h.ledger.members groupId).map htext)
  obtain ⟨own, hown, rfl⟩ := List.mem_map.mp (hids.mem_iff.mpr hpayer)
  obtain ⟨other, hother, rfl⟩ := List.mem_map.mp (hids.mem_iff.mpr hpayee)
  have hownAmount := hamounts own hown
  have hotherAmount := hamounts other hother
  -- A key that no record has, so that the settlement is a new one.
  obtain ⟨key, hkey⟩ := exists_new_key w.db.idempotencyRecords
  have hcreated := @run_createSettlement lib env w
    ⟨groupId, own.userId, other.userId, (other.shown text).amountMinorUnits.natAbs⟩
    ⟨key, own.userId, ""⟩ own.userId h.group h.users hpayer hpayer hpayee hne hkey rfl hlock
  refine ⟨_, .recorded own.userId other.userId dtos w (other.shown text) _ ⟨key, own.userId, ""⟩ _
    hexec ?_ ?_ ?_ (sends_settle (text own.userId) (text groupId) key (other.shown text)) rfl rfl
    ((machine lib).exec_run World.later_refl {} _ w) hcreated⟩
  · have howes := youOweTotal_of_mem hnodup (List.mem_map_of_mem hown)
    have hshown : (own.shown text).amountMinorUnits = position w.db groupId own.userId := hownAmount
    have hid : (own.shown text).userId = text own.userId := rfl
    rw [hid, hshown] at howes
    omega
  · refine Frontend.mem_memberBalances.mpr ⟨List.mem_map_of_mem hother, fun heq => hne ?_⟩
    exact (htext heq).symm
  · apply decide_eq_true
    rw [← hotherAmount] at hcredit
    exact hcredit

/-- In a group in which the members can settle, members who settle one after another are done after
fewer settlements than there were members with a balance, and until they are done somebody can
settle as soon as nobody else holds the lock of the group. -/
theorem settlingUp_ends (htext : Function.Injective text) (h : CanSettle groupId w.db)
    {ws : List World} (hrounds : (w :: ws).IsChain (SettleRound lib env text groupId)) :
    (ws = [] ∨ ws.length <
      (unsettled (w.db.memberIds groupId).toFinset (position w.db groupId)).card) ∧
    let last := (w :: ws).getLast (List.cons_ne_nil w ws)
    (∀ u, position last.db groupId u = 0) ∨
      (last.redis.lookup last.now (.lockSettlementGroup groupId) = none →
        ∃ w', SettleRound lib env text groupId last w') := by
  let keeps (x : World) : Prop :=
    CanSettle groupId x.db ∧ x.db.memberIds groupId = w.db.memberIds groupId
  let open_ (x : World) : Finset Id :=
    unsettled (w.db.memberIds groupId).toFinset (position x.db groupId)
  have hkeeps : ∀ x y, keeps x → SettleRound lib env text groupId x y → keeps y := by
    rintro x y ⟨hx, hmembers⟩ hround
    obtain ⟨hy, hsame, -⟩ := hround.takesOver htext hx
    exact ⟨hy, hsame.trans hmembers⟩
  have hlt : ∀ x y, keeps x → SettleRound lib env text groupId x y →
      (open_ y).card - 1 < (open_ x).card - 1 := by
    rintro x y ⟨hx, hmembers⟩ hround
    obtain ⟨-, -, debtor, hdebtor, creditor, hcreditor, htakes⟩ := hround.takesOver htext hx
    rw [hmembers, ← List.mem_toFinset] at hdebtor hcreditor
    have hless : (open_ y).card < (open_ x).card := htakes.card_lt hcreditor
    -- The debtor and the creditor both had a balance.
    have htwo : 1 < (open_ x).card := by
      refine Finset.one_lt_card.mpr ⟨debtor, ?_, creditor, ?_, ?_⟩
      · exact mem_unsettled.mpr ⟨hdebtor, htakes.debt.ne⟩
      · exact mem_unsettled.mpr ⟨hcreditor, htakes.credit.ne'⟩
      · rintro rfl
        exact absurd htakes.debt htakes.credit.le.not_gt
    omega
  obtain ⟨⟨hlast, -⟩, hlength⟩ := length_add_le_of_isChain hkeeps hlt ⟨h, rfl⟩ hrounds
  have hfew : ws.length ≤ (open_ w).card - 1 := (Nat.le_add_right _ _).trans hlength
  constructor
  · cases ws with
    | nil => exact .inl rfl
    | cons w₁ ws =>
      have hopen : (open_ w).card ≠ 0 := by
        intro hzero
        rw [hzero, List.length_cons] at hfew
        exact absurd hfew (Nat.not_succ_le_zero _)
      exact .inr (lt_of_le_of_lt hfew (Nat.sub_one_lt hopen))
  intro last
  by_cases hopen : ∃ u, position last.db groupId u ≠ 0
  · exact .inr fun hlock => exists_settleRound htext hlast hlock hopen
  · exact .inl fun u => Decidable.of_not_not fun hu => hopen ⟨u, hu⟩

end Rounds

/-- Ids written in a unary system. -/
def unary (n : Id) : String := String.ofList (List.replicate n 'i')

/-- The keys of the example differ. -/
theorem unary_injective : Function.Injective unary := by
  intro m n h
  have hlength := congrArg List.length (String.ofList_injective h)
  simpa using hlength

/-- One payment of 500 settles a group of two. -/
theorem settlingUp_ends_two : ∃ w w', position w.db 20 1 = 500 ∧ position w.db 20 2 = -500 ∧
    SettleRound .plain {} unary 20 w w' ∧
    [w'].length < (unsettled (w.db.memberIds 20).toFinset (position w.db 20)).card ∧
    ((∀ u, position w'.db 20 u = 0) ∨
      (w'.redis.lookup w'.now (.lockSettlementGroup 20) = none →
        ∃ w'', SettleRound .plain {} unary 20 w' w'')) := by
  have hrun : ((machine .plain).runAll (BookCall.body {})
      (fun c w => c.Accepted ∧ c.Harmless w.db) {} settledRemoval threeUsers).map (fun w =>
        (position w.db 20 1, position w.db 20 2, decide (w.db.memberIds 20 = [2, 1]),
          decide ((w.db.group? 20).isSome ∧ (w.db.user? 1).isSome ∧ (w.db.user? 2).isSome),
          decide (w.redis.lookup w.now (.lockSettlementGroup 20) = none))) =
      some (500, -500, true, true, true) := by decide
  obtain ⟨w, h, hw⟩ := Option.map_eq_some_iff.mp hrun
  obtain ⟨h₁, hw⟩ := Prod.mk.inj hw
  obtain ⟨h₂, hw⟩ := Prod.mk.inj hw
  obtain ⟨hmembers, hw⟩ := Prod.mk.inj hw
  obtain ⟨hrows, hlock⟩ := Prod.mk.inj hw
  have hmembers := of_decide_eq_true hmembers
  obtain ⟨hgroup, hu₁, hu₂⟩ := of_decide_eq_true hrows
  -- The run is one of harmless calls, so that its ledger is in order.
  have hledger : Ledger w.db := ledger_of_sequence
    (.of_runAll World.later_refl (.start (by simp [NoBooks, threeUsers])) h)
  have hcan : CanSettle 20 w.db := by
    refine ⟨hledger, fun u => ?_, hgroup, fun u hu => ?_⟩
    · by_cases hu : u ∈ w.db.memberIds 20
      · rw [hmembers, List.mem_pair] at hu
        rcases hu with rfl | rfl
        · rw [h₂]
          decide
        · rw [h₁]
          decide
      · rw [hledger.settled 20 u hu]
        decide
    · rw [hmembers, List.mem_pair] at hu
      rcases hu with rfl | rfl
      · exact hu₂
      · exact hu₁
  obtain ⟨w', hround⟩ := @exists_settleRound .plain {} unary 20 w unary_injective hcan
    (of_decide_eq_true hlock) ⟨1, by rw [h₁]; decide⟩
  obtain ⟨hfew, hlast⟩ := settlingUp_ends unary_injective hcan
    (.cons_cons hround (.singleton w'))
  exact ⟨w, w', h₁, h₂, hround, hfew.resolve_left (List.cons_ne_nil w' []), hlast⟩

end SplitBill
