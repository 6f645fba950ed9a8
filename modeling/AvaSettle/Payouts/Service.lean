import AvaSettle.Blockchain.Service
import AvaSettle.Model.Events

/-!
# PayoutsService

Creating, authorizing and reconciling payouts, singly and in a vault batch. The bodies follow the
source statement by statement: what is inside a `try` is inside `tryCatch`, and the response, which
is returned without being awaited, is built outside of it.
-/

namespace AvaSettle.Payouts
open Async (Slot Prog)
open Blockchain

/-- `CreatePayoutDto`. -/
structure CreatePayoutDto where
  externalId : String
  amount : String
  asset : SettlementAsset
  beneficiaryAddress : Hex
  beneficiaryName : Option String
  chainFlowRequestId : Option String
  memo : Option String
  metadata : Option Json
  executeImmediately : Bool

/-- `AuthorizePayoutDto`. -/
structure AuthorizePayoutDto where
  approvedBy : Option String := none
  riskDecisionId : Option String := none
  notes : Option String := none

/-- `ListPayoutsQueryDto`. -/
structure ListPayoutsQueryDto where
  status : Option PayoutStatus := none
  externalId : Option String := none
  limit : Option Nat := none
  offset : Option Nat := none

/-! ## PayoutLedgerService -/

/-- `PayoutLedgerService.createOrGetExisting`. -/
def createOrGetExisting (record : PayoutRecord) : Method (PayoutRecord × Bool) := do
  match ← request (.payoutInsert record) with
  | some inserted => return (inserted, false)
  | none =>
    let existing ← request (.payoutFindByExternalId record.clientId record.externalId)
    let existing ← Prog.orThrow (.error (s!"Payout insert conflicted but no existing record " ++
      s!"found for externalId \"{record.externalId}\".")) existing
    return (existing, true)

/-! ## Helpers -/

/-- The response to a payout and its audit trail. -/
def responseOf (record : PayoutRecord) (idempotentReplay : Bool) (trail : List AuditEvent) :
    PayoutResponse :=
  { record with
    idempotentReplay := replayFlag idempotentReplay
    auditTrail := trailOf trail }

/-- `toResponse`. -/
def toResponse (record : PayoutRecord) (idempotentReplay : Bool := false) :
    Method PayoutResponse := do
  let trail ← request (.auditListBySubject record.id)
  return responseOf record idempotentReplay trail

/-- The element of a `Promise.all` that runs `toResponse`. -/
def toResponseSlot (record : PayoutRecord) : Slot Api PayoutResponse :=
  .todo (.auditListBySubject record.id) fun r => r.map (responseOf record false)

/-- The payout, or the exception for a missing one. -/
def payoutOrNotFound : Option PayoutRecord → Except Exception PayoutRecord
  | some payout => .ok payout
  | none => .error (.notFound "Payout not found.")

/-- `requirePayout`. -/
def requirePayout (id : Uuid) (context : RequestContext) : Method PayoutRecord := do
  let payout ← request (.payoutFindById id context.clientId)
  Prog.ofExcept (payoutOrNotFound payout)

/-- The element of a `Promise.all` that runs `requirePayout`. -/
def requirePayoutSlot (context : RequestContext) (id : Uuid) : Slot Api PayoutRecord :=
  .todo (.payoutFindById id context.clientId) fun r => r.bind payoutOrNotFound

/-- `listPayouts`. -/
def listPayouts (query : ListPayoutsQueryDto) (context : RequestContext) :
    Method (List PayoutResponse) := do
  let records ← request (.payoutList
    ⟨context.clientId, query.status, query.externalId, query.limit, query.offset⟩)
  Prog.promiseAll (records.map toResponseSlot)

/-- `getPayout`. -/
def getPayout (id : Uuid) (context : RequestContext) : Method PayoutResponse := do
  let payout ← requirePayout id context
  toResponse payout

/-- `getPayoutByExternalId`. -/
def getPayoutByExternalId (externalId : String) (context : RequestContext) :
    Method PayoutResponse := do
  let payout ← request (.payoutFindByExternalId context.clientId externalId)
  let payout ← Prog.ofExcept (payoutOrNotFound payout)
  toResponse payout

/-- The payload of `payout.confirmed`. -/
def confirmedPayload (p : PayoutRecord) : List (String × Json) :=
  [("id", .str p.id), ("externalId", .str p.externalId), ("asset", .str p.asset.symbol),
    ("amount", .str p.amount), ("beneficiaryAddress", .str p.beneficiaryAddress),
    ("transactionHash", .ofOption p.transactionHash), ("confirmedAt", .ofTime p.confirmedAt)]

/-- The ledger status of a transfer. -/
def statusOf : TransferStatus → PayoutStatus
  | .confirmed => .confirmed
  | .broadcasted => .broadcasted

/-- The audit event of a recorded transfer. -/
def eventOf : TransferStatus → AuditEventType
  | .confirmed => .payoutConfirmed
  | .broadcasted => .payoutBroadcasted

/-- The patch that claims a payout for authorization. -/
def claimPatch (now : Timestamp) : PayoutPatch where
  status := some .authorized
  authorizedAt := some (some now)

/-- The patch that records a transfer. -/
def recordPatch (exec : TransferExecution) (now : Timestamp) : PayoutPatch where
  status := some (statusOf exec.status)
  transactionHash := some (some exec.hash)
  broadcastedAt := some (some now)
  confirmedAt := some (if exec.status = .confirmed then some now else none)
  failureReason := some none

/-- The patch that releases a payout after a conflict. -/
def releasePatch (message : String) : PayoutPatch where
  status := some .prepared
  failureReason := some (some message)

/-- The patch that rolls back the claim of a batch. -/
def rollbackPatch : PayoutPatch where
  status := some .prepared

/-- The patch that marks a payout failed. -/
def failPatch (failureReason : String) : PayoutPatch where
  status := some .failed
  failureReason := some (some failureReason)

/-- A guarded update from `authorized`. -/
def updateAuthorized (id : Uuid) (patch : PayoutPatch) : Call :=
  .payoutUpdate id patch (some [.authorized])

section
variable (d : Deployment)

/-! ## authorizePayout -/

/-- The transfer of one payout, on the rail that is configured. -/
def transferPayout (authorized : PayoutRecord) : Method TransferExecution :=
  if d.settlementVaultConfigured then
    vaultPayout d authorized.asset (vaultPayoutRefFromExternalId d authorized.externalId)
      authorized.beneficiaryAddress authorized.amountAtomic [authorized.id]
  else
    sendErc20Transfer d authorized.asset authorized.beneficiaryAddress authorized.amountAtomic
      [authorized.id]

/-- The rail, as the audit trail names it. -/
def rail : String :=
  if d.settlementVaultConfigured then "vault" else "direct"

/-- The webhook of a recorded transfer. The row is used as if it could not be null. -/
def announceConfirmed (status : TransferStatus) (updated : Option PayoutRecord) : Method Unit :=
  if status = .confirmed then do
    let updated ← Prog.orThrow
      (.error "Cannot read properties of null (reading 'clientId')") updated
    enqueue updated.clientId "payout.confirmed" (confirmedPayload updated)
  else return ()

/-- The body of the `try` of `authorizePayout`, up to the response. -/
def executePayout (id : Uuid) (now : Timestamp) (dto : AuthorizePayoutDto)
    (context : RequestContext) (authorized : PayoutRecord) : Method (Option PayoutRecord) := do
  let treasuryBalance ← getAssetBalance d authorized.asset
  Prog.require (authorized.amountAtomic ≤ treasuryBalance.balanceAtomic)
    (.conflict s!"Insufficient treasury {authorized.asset.symbol} balance.")
  let transfer ← transferPayout d authorized
  let updated ← request (updateAuthorized id (recordPatch transfer now))
  recordAudit (eventOf transfer.status) id (toAuditActor context dto.approvedBy)
    [("transactionHash", .str transfer.hash), ("rail", .str (rail d))]
  announceConfirmed transfer.status updated
  return updated

/-- The `catch` of `authorizePayout`. -/
def handlePayoutError (id : Uuid) (dto : AuthorizePayoutDto) (context : RequestContext)
    (error : Exception) : Method (Option PayoutRecord) :=
  match error with
  | .conflict message => do
    let _ ← request (updateAuthorized id (releasePatch message))
    throw (.conflict message)
  | error => do
    let failureReason := error.messageOr "Unknown broadcast failure."
    let failed ← request (updateAuthorized id (failPatch failureReason))
    recordAudit .payoutFailed id (toAuditActor context dto.approvedBy)
      [("failureReason", .str failureReason)]
    let failed ← Prog.orThrow (.error "Cannot read properties of null (reading 'id')") failed
    let payout ← toResponse failed
    throw (.badGateway "Failed to broadcast payout on Avalanche." (some payout) none)

/-- `authorizePayout`. -/
def authorizePayout (id : Uuid) (dto : AuthorizePayoutDto) (context : RequestContext) :
    Method PayoutResponse := do
  let payout ← requirePayout id context
  if payout.status = .broadcasted ∨ payout.status = .confirmed then
    toResponse payout true
  else do
    let now ← request .clock
    match ← request (.payoutUpdate id (claimPatch now) (some [.prepared])) with
    | none => do
      let current ← requirePayout id context
      if current.status = .authorized ∨ current.status = .broadcasted ∨
          current.status = .confirmed then
        toResponse current true
      else
        throw (.conflict s!"Payout cannot be authorized from status {current.status.text}.")
    | some authorized => do
      recordAudit .payoutAuthorized id (toAuditActor context dto.approvedBy)
        [("riskDecisionId", .ofOption dto.riskDecisionId), ("notes", .ofOption dto.notes)]
      let updated ← (executePayout d id now dto context authorized).tryCatch
        (handlePayoutError id dto context)
      let updated ← Prog.orThrow
        (.error "Cannot read properties of null (reading 'id')") updated
      toResponse updated

/-! ## authorizePayoutBatch -/

/-- The roll-back of the legs that a batch has claimed. -/
def rollbackSlot (c : PayoutRecord) : Slot Api Unit :=
  .todo (updateAuthorized c.id rollbackPatch) fun r => r.map fun _ => ()

/-- The claim loop of a batch: every leg is claimed, or those claimed so far are rolled back. -/
def claimBatch (now : Timestamp) : List PayoutRecord → List PayoutRecord →
    Method (List PayoutRecord)
  | [], claimed => return claimed
  | payout :: payouts, claimed => do
    match ← request (.payoutUpdate payout.id (claimPatch now) (some [.prepared])) with
    | none => do
      let _ ← Prog.promiseAll (claimed.map rollbackSlot)
      throw (.conflict (s!"Payout {payout.id} could not be claimed for the batch " ++
        "(concurrent change)."))
    | some authorized => claimBatch now payouts (claimed ++ [authorized])

/-- The audit of a claimed leg. -/
def batchAuthorizedSlot (dto : AuthorizePayoutDto) (context : RequestContext) (c : PayoutRecord) :
    Slot Api Unit :=
  .todo (.auditInsert ⟨.payoutAuthorized, c.id, toAuditActor context dto.approvedBy,
    .obj [("batch", .bool true), ("riskDecisionId", .ofOption dto.riskDecisionId),
      ("notes", .ofOption dto.notes)]⟩) id

/-- The ledger write of a settled leg. -/
def batchRecordSlot (exec : TransferExecution) (now : Timestamp) (c : PayoutRecord) :
    Slot Api (Option PayoutRecord) :=
  .todo (updateAuthorized c.id (recordPatch exec now)) id

/-- The audit and the webhook of a settled leg. -/
def announceLeg (dto : AuthorizePayoutDto) (context : RequestContext) (exec : TransferExecution)
    (updated : Option PayoutRecord) : Method Unit := do
  let u ← Prog.orThrow (.error "Cannot read properties of null (reading 'id')") updated
  recordAudit (eventOf exec.status) u.id (toAuditActor context dto.approvedBy)
    [("transactionHash", .str exec.hash), ("rail", .str "vault"), ("batch", .bool true)]
  announceConfirmed exec.status (some u)

/-- The body of the `try` of `authorizePayoutBatch`. -/
def executeBatch (asset : SettlementAsset) (now : Timestamp) (dto : AuthorizePayoutDto)
    (context : RequestContext) (claimed : List PayoutRecord) :
    Method (List (Option PayoutRecord)) := do
  let exec ← vaultPayoutBatch d asset
    (batchRefFromExternalIds d (claimed.map PayoutRecord.externalId))
    (claimed.map PayoutRecord.beneficiaryAddress) (claimed.map PayoutRecord.amountAtomic)
    (claimed.map PayoutRecord.id)
  let updated ← Prog.promiseAll (claimed.map (batchRecordSlot exec now))
  Prog.forEach (announceLeg dto context exec) updated
  return updated

/-- The ledger write of a leg that was not settled. -/
def batchFailSlot (patch : PayoutPatch) (c : PayoutRecord) : Slot Api Unit :=
  .todo (updateAuthorized c.id patch) fun r => r.map fun _ => ()

/-- The audit of a leg that was not settled. -/
def batchFailedSlot (dto : AuthorizePayoutDto) (context : RequestContext) (failureReason : String)
    (c : PayoutRecord) : Slot Api Unit :=
  .todo (.auditInsert ⟨.payoutFailed, c.id, toAuditActor context dto.approvedBy,
    .obj [("failureReason", .str failureReason), ("batch", .bool true)]⟩) id

/-- The `catch` of `authorizePayoutBatch`. -/
def handleBatchError (dto : AuthorizePayoutDto) (context : RequestContext)
    (claimed : List PayoutRecord) (error : Exception) : Method (List (Option PayoutRecord)) := do
  let failureReason := error.messageOr "Unknown batch broadcast failure."
  if error.isConflict then
    let _ ← Prog.promiseAll (claimed.map (batchFailSlot (releasePatch failureReason)))
    throw error
  else
    let _ ← Prog.promiseAll (claimed.map (batchFailSlot (failPatch failureReason)))
    let _ ← Prog.promiseAll (claimed.map (batchFailedSlot dto context failureReason))
    throw (.badGateway "Failed to broadcast batch payout on Avalanche." none (some failureReason))

/-- The message about the payouts of a batch that are not prepared. -/
def notPreparedMessage (notPrepared : List PayoutRecord) : String :=
  s!"Payouts must be prepared to batch-authorize: " ++
    ", ".intercalate (notPrepared.map PayoutRecord.id) ++ " are not."

/-- The settlement of a batch whose legs have been claimed. -/
def settleBatch (asset : SettlementAsset) (now : Timestamp) (dto : AuthorizePayoutDto)
    (context : RequestContext) (claimed : List PayoutRecord) : Method (List PayoutResponse) := do
  let _ ← Prog.promiseAll (claimed.map (batchAuthorizedSlot dto context))
  let updated ← (executeBatch d asset now dto context claimed).tryCatch
    (handleBatchError dto context claimed)
  Prog.promiseAll (updated.reduceOption.map toResponseSlot)

/-- `authorizePayoutBatch`. -/
def authorizePayoutBatch (payoutIds : List Uuid) (dto : AuthorizePayoutDto)
    (context : RequestContext) : Method (List PayoutResponse) := do
  Prog.require (d.settlementVaultConfigured = true)
    (.badRequest ("Batch payouts require the SettlementVault " ++
      "(set AVASETTLE_SETTLEMENT_VAULT_ADDRESS)."))
  match payoutIds.eraseDups with
  | [] => throw (.badRequest "No payout ids provided.")
  | ids => do
    let payouts ← Prog.promiseAll (ids.map (requirePayoutSlot context))
    let first ← Prog.orThrow
      (.error "Cannot read properties of undefined (reading 'asset')") payouts.head?
    let asset := first.asset
    Prog.require (∀ p ∈ payouts, p.asset = asset)
      (.badRequest "All payouts in a batch must use the same asset.")
    let notPrepared := payouts.filter fun p => decide (p.status ≠ .prepared)
    Prog.require (notPrepared = []) (.conflict (notPreparedMessage notPrepared))
    let treasuryBalance ← getAssetBalance d asset
    Prog.require ((payouts.map PayoutRecord.amountAtomic).sum ≤ treasuryBalance.balanceAtomic)
      (.conflict s!"Insufficient treasury {asset.symbol} balance for the batch.")
    let now ← request .clock
    let claimed ← claimBatch now payouts []
    settleBatch d asset now dto context claimed

/-! ## createPayout -/

/-- The cap on a single payout. -/
def requireBelowCap (dto : CreatePayoutDto) (assetConfig : AssetRuntimeConfig)
    (amountAtomic : Nat) : Except Exception Unit :=
  match truthy assetConfig.maxPayoutAmount with
  | none => .ok ()
  | some cap =>
    match parseAtomicAmount d cap assetConfig.decimals with
    | .error message => .error (.error message)
    | .ok maxAtomic =>
      if maxAtomic < amountAtomic then
        .error (.badRequest s!"Payout exceeds configured max for {dto.asset.symbol}.")
      else .ok ()

/-- The row of a new payout. -/
def newPayout (dto : CreatePayoutDto) (context : RequestContext) (id : Uuid) (now : Timestamp)
    (amountAtomic : Nat) : PayoutRecord where
  id := id
  clientId := context.clientId
  externalId := dto.externalId
  chainFlowRequestId := dto.chainFlowRequestId
  status := .prepared
  network := d.settlementNetwork
  chainId := d.settlementNetwork.chainId
  asset := dto.asset
  tokenAddress := (d.getAssetConfig dto.asset).address
  amount := dto.amount
  amountAtomic := amountAtomic
  beneficiaryAddress := dto.beneficiaryAddress
  beneficiaryName := dto.beneficiaryName
  treasuryAddress := treasuryAddress d
  transactionHash := none
  failureReason := none
  memo := dto.memo
  metadata := dto.metadata.getD (.obj [])
  createdAt := now
  updatedAt := now
  authorizedAt := none
  broadcastedAt := none
  confirmedAt := none

/-- `createPayout`. -/
def createPayout (dto : CreatePayoutDto) (context : RequestContext) : Method PayoutResponse := do
  let assetConfig := d.getAssetConfig dto.asset
  let amountAtomic ← Prog.ofExcept (parseAmount d dto.amount assetConfig.decimals)
  Prog.ofExcept (requireBelowCap d dto assetConfig amountAtomic)
  let now ← request .clock
  let id ← request .randomUUID
  let (record, existed) ← createOrGetExisting (newPayout d dto context id now amountAtomic)
  if existed then do
    recordAudit .payoutIdempotentReplay record.id (toAuditActor context)
      [("externalId", .str dto.externalId)]
    toResponse record true
  else do
    recordAudit .payoutPrepared record.id (toAuditActor context)
      [("externalId", .str record.externalId), ("amount", .str record.amount),
        ("asset", .str record.asset.symbol), ("beneficiaryAddress", .str record.beneficiaryAddress)]
    if dto.executeImmediately then authorizePayout d record.id {} context
    else toResponse record

/-! ## reconcilePayout -/

/-- The status that `reconcilePayout` writes. -/
def reconciledStatus (payout : PayoutRecord) (r : TransactionReconciliation) : PayoutStatus :=
  if r.finalized then .confirmed else if r.status = .reverted then .failed else payout.status

/-- The patch of `reconcilePayout`, from the row it read and what the chain said. -/
def reconcilePatch (payout : PayoutRecord) (r : TransactionReconciliation) (now : Timestamp) :
    PayoutPatch where
  status := some (reconciledStatus payout r)
  confirmedAt := some (if r.finalized then some now else payout.confirmedAt)
  failureReason := some (if r.finalized then none else
    if r.status = .reverted then some "Transaction reverted on-chain." else payout.failureReason)

/-- The reconciliation, as an audit payload. -/
def reconciliationPayload (r : TransactionReconciliation) : List (String × Json) :=
  [("hash", .str r.hash),
    ("network", .str (match r.network with
      | .avalancheFuji => "avalanche-fuji"
      | .avalancheMainnet => "avalanche-mainnet")),
    ("status", .str (match r.status with
      | .pending => "pending"
      | .success => "success"
      | .reverted => "reverted")),
    ("blockNumber", .ofTime r.blockNumber), ("confirmations", .num r.confirmations),
    ("finalized", .bool r.finalized)]

/-- `reconcilePayout`. -/
def reconcilePayout (id : Uuid) (context : RequestContext) : Method PayoutResponse := do
  let payout ← requirePayout id context
  let hash ← Prog.orThrow (.conflict "Payout has no transaction hash to reconcile.")
    (truthy payout.transactionHash)
  let reconciliation ← reconcileTransaction d hash
  -- the clock is read where the transaction is final; elsewhere the reading is not used
  let now ← request .clock
  let updated ← request (.payoutUpdate id (reconcilePatch payout reconciliation now) none)
  recordAudit .payoutReconciled id (toAuditActor context) (reconciliationPayload reconciliation)
  let updated ← Prog.orThrow (.error "Cannot read properties of null (reading 'id')") updated
  toResponse updated

end

end AvaSettle.Payouts
