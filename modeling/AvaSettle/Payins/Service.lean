import AvaSettle.Blockchain.Service
import AvaSettle.Data.Keyed
import AvaSettle.Model.Events

/-!
# PayinsService

Creating, reconciling, accepting and sweeping pay-ins. The bodies follow the source statement by
statement; a response that is returned without being awaited is built outside of its `try`.
-/

namespace AvaSettle.Payins
open Async (Slot Prog)
open Blockchain

/-- `CreatePayInDto`. -/
structure CreatePayInDto where
  externalId : String
  amount : String
  asset : SettlementAsset
  chainFlowRequestId : Option String
  collectionMode : Option PayInCollectionMode
  routerInvoiceId : Option Hex
  expiresInMinutes : Option Nat
  metadata : Option Json

/-- `ListPayInsQueryDto`. -/
structure ListPayInsQueryDto where
  status : Option PayInStatus := none
  externalId : Option String := none
  limit : Option Nat := none
  offset : Option Nat := none

/-- `SweepPayInDto`. -/
structure SweepPayInDto where
  notes : Option String := none
  amount : Option String := none

/-- `AcceptPayInDto`. -/
structure AcceptPayInDto where
  note : Option String := none

/-- `TopUpPayInDto`. -/
structure TopUpPayInDto where
  amountAvax : Option String := none

/-- `TopUpAndSweepDto`. -/
structure TopUpAndSweepDto where
  amountAvax : Option String := none
  notes : Option String := none

/-! ## PayInLedgerService -/

/-- `PayInLedgerService.createOrGetExisting`. -/
def createOrGetExisting (record : PayInRecord) : Method (PayInRecord × Bool) := do
  match ← request (.payInInsert record) with
  | some inserted => return (inserted, false)
  | none =>
    let existing ← request (.payInFindByExternalId record.clientId record.externalId)
    let existing ← Prog.orThrow (.error (s!"Pay-in insert conflicted but no existing record " ++
      s!"found for externalId \"{record.externalId}\".")) existing
    return (existing, true)

/-- `namespacedKey`. -/
def namespacedKey (clientId : Option String) (key : String) : String :=
  let scope := clientId.getD "global"
  s!"{scope}:{key}"

/-- `findByIdempotencyKey`. -/
def findByIdempotencyKey (clientId : Option String) (key : String) :
    Method (Option PayInRecord) := do
  match ← request (.idempotencyKeyFind (namespacedKey clientId key)) with
  | none => return none
  | some recordId => request (.payInFindById recordId none)

/-- `storeIdempotencyKey`. -/
def storeIdempotencyKey (clientId : Option String) (key : String) (recordId : Uuid) :
    Method Unit :=
  request (.idempotencyKeyStore (namespacedKey clientId key) recordId)

/-! ## Helpers -/

/-- The response to a pay-in and its audit trail. -/
def responseOf (record : PayInRecord) (idempotentReplay : Bool) (trail : List AuditEvent) :
    PayInResponse :=
  { record with
    idempotentReplay := replayFlag idempotentReplay
    auditTrail := trailOf trail }

/-- `toResponse`. -/
def toResponse (record : PayInRecord) (idempotentReplay : Bool := false) :
    Method PayInResponse := do
  let trail ← request (.auditListBySubject record.id)
  return responseOf record idempotentReplay trail

/-- The element of a `Promise.all` that runs `toResponse`. -/
def toResponseSlot (record : PayInRecord) : Slot Api PayInResponse :=
  .todo (.auditListBySubject record.id) fun r => r.map (responseOf record false)

/-- `requirePayIn`. -/
def requirePayIn (id : Uuid) (context : RequestContext) : Method PayInRecord := do
  let payin ← request (.payInFindById id context.clientId)
  Prog.orThrow (.notFound "Pay-in not found.") payin

/-- The row that an update has returned, or the exception for a missing one. -/
def requireUpdated (updated : Option PayInRecord) : Method PayInRecord :=
  Prog.orThrow (.conflict "Unable to update pay-in.") updated

/-! ## Transfers -/

/-- `RESCAN_OVERLAP_BLOCKS`. -/
def rescanOverlapBlocks : Nat := 30

/-- `scanFromBlock`. -/
def scanFromBlock (payin : PayInRecord) : Nat :=
  match payin.lastScannedBlock with
  | none => payin.startBlock
  | some lastScannedBlock =>
    let resume : Int := lastScannedBlock - rescanOverlapBlocks + 1
    if (payin.startBlock : Int) < resume then resume.toNat else payin.startBlock

/-- `transferKey`: the log within its transaction, or a composite for legacy records. -/
def transferKey (transfer : PayInTransferRecord) : String :=
  match transfer.logIndex with
  | some logIndex => s!"{transfer.hash}:{logIndex}"
  | none =>
    s!"{transfer.hash}:{transfer.from}:{transfer.amountAtomic}:{transfer.blockNumber}"

/-- `mergeTransfers`. -/
def mergeTransfers (existing incoming : List PayInTransferRecord) : List PayInTransferRecord :=
  (Data.byKey transferKey (existing ++ incoming)).insertionSort
    fun a b => a.blockNumber ≤ b.blockNumber

/-- `totalReceivedAtomic`. -/
def totalReceivedAtomic (transfers : List PayInTransferRecord) : Nat :=
  (transfers.map PayInTransferRecord.amountAtomic).sum

/-- `latestTransferBlock`. -/
def latestTransferBlock (transfers : List PayInTransferRecord) : Option Nat :=
  transfers.foldl (fun latest transfer =>
    match latest with
    | none => some transfer.blockNumber
    | some block => some (if block < transfer.blockNumber then transfer.blockNumber else block)) none

/-! ## Webhook payloads -/

/-- The payload of `payin.detected`. -/
def detectedPayload (p : PayInRecord) : List (String × Json) :=
  [("id", .str p.id), ("externalId", .str p.externalId), ("asset", .str p.asset.symbol),
    ("depositAddress", .str p.depositAddress), ("receivedAmount", .str p.receivedAmount),
    ("expectedAmount", .str p.expectedAmount), ("detectedAt", .ofTime p.detectedAt)]

/-- The payload of `payin.confirmed`. -/
def confirmedPayload (p : PayInRecord) : List (String × Json) :=
  [("id", .str p.id), ("externalId", .str p.externalId), ("asset", .str p.asset.symbol),
    ("receivedAmount", .str p.receivedAmount), ("depositAddress", .str p.depositAddress),
    ("confirmedAt", .ofTime p.confirmedAt)]

section
variable (d : Deployment)

/-! ## createPayIn -/

/-- `requirePaymentRouterAddress`. -/
def requirePaymentRouterAddress : Except Exception Hex :=
  match d.paymentRouterAddress with
  | some address => .ok address
  | none =>
    .error (.serviceUnavailable
      "AVASETTLE_PAYMENT_ROUTER_ADDRESS is required for payment-router pay-ins.")

/-- The end of the expiration window. -/
def expiresAt (dto : CreatePayInDto) (now : Timestamp) : Option Timestamp :=
  match dto.expiresInMinutes <|> d.payInDefaultExpirationMinutes with
  | none => none
  | some expirationMinutes =>
    if expirationMinutes = 0 then none else some (now + expirationMinutes * 60000)

/-- The row of a new pay-in. -/
def newPayIn (dto : CreatePayInDto) (context : RequestContext) (id : Uuid) (now : Timestamp)
    (expectedAmountAtomic startBlock : Nat) (collectionMode : PayInCollectionMode)
    (routerAddress routerInvoiceId : Option Hex) (derivationIndex : Int) (depositAddress : Hex) :
    PayInRecord where
  id := id
  clientId := context.clientId
  externalId := dto.externalId
  chainFlowRequestId := dto.chainFlowRequestId
  status := .pending
  network := d.settlementNetwork
  chainId := d.settlementNetwork.chainId
  asset := dto.asset
  tokenAddress := (d.getAssetConfig dto.asset).address
  expectedAmount := dto.amount
  expectedAmountAtomic := expectedAmountAtomic
  receivedAmount := "0"
  receivedAmountAtomic := 0
  depositAddress := depositAddress
  derivationIndex := derivationIndex
  collectionMode := collectionMode
  routerAddress := routerAddress
  routerInvoiceId := routerInvoiceId
  startBlock := startBlock
  lastScannedBlock := none
  expiresAt := expiresAt d dto now
  metadata := dto.metadata.getD (.obj [])
  transfers := []
  sweepStatus := if collectionMode = .paymentRouter then .notRequired else .pending
  sweepTransactionHash := none
  sweptAmount := "0"
  sweptAmountAtomic := 0
  sweptAt := none
  sweepFailureReason := none
  createdAt := now
  updatedAt := now
  detectedAt := none
  confirmedAt := none
  acceptedAt := none
  acceptanceNote := none

/-- The rest of `createPayIn`, once the rail is known: the row is inserted and announced. -/
def insertPayIn (context : RequestContext) (record : PayInRecord) : Method PayInResponse := do
  let (record, existed) ← createOrGetExisting record
  if existed then toResponse record true
  else do
    match truthy context.idempotencyKey with
    | some key => storeIdempotencyKey context.clientId key record.id
    | none => pure ()
    recordAudit .payinCreated record.id (toAuditActor context)
      [("externalId", .str record.externalId), ("depositAddress", .str record.depositAddress),
        ("derivationIndex", .num record.derivationIndex),
        ("collectionMode", .str record.collectionMode.text),
        ("routerInvoiceId", .ofOption record.routerInvoiceId),
        ("expectedAmount", .str record.expectedAmount), ("asset", .str record.asset.symbol)]
    toResponse record

/-- `createPayIn`, where no prior request has used the idempotency key. -/
def createNewPayIn (dto : CreatePayInDto) (context : RequestContext) : Method PayInResponse := do
  let assetConfig := d.getAssetConfig dto.asset
  let expectedAmountAtomic ← Prog.ofExcept (parseAmount d dto.amount assetConfig.decimals)
  match dto.collectionMode.getD .derivedAddress with
  | .paymentRouter => do
    let routerAddress ← Prog.ofExcept (requirePaymentRouterAddress d)
    let routerInvoiceId := dto.routerInvoiceId.getD (routerInvoiceIdFromExternalId d dto.externalId)
    let startBlock ← request .getBlockNumber
    let now ← request .clock
    let id ← request .randomUUID
    insertPayIn context (newPayIn d dto context id now expectedAmountAtomic startBlock
      .paymentRouter (some routerAddress) (some routerInvoiceId) (-1) routerAddress)
  | .derivedAddress => do
    let startBlock ← request .getBlockNumber
    let now ← request .clock
    let derivationIndex ← request .claimNextPayInIndex
    let depositAddress ← Prog.ofExcept (derivePayInAddress d derivationIndex)
    let id ← request .randomUUID
    insertPayIn context (newPayIn d dto context id now expectedAmountAtomic startBlock
      .derivedAddress none none derivationIndex depositAddress)

/-- `createPayIn`. -/
def createPayIn (dto : CreatePayInDto) (context : RequestContext) : Method PayInResponse :=
  match truthy context.idempotencyKey with
  | none => createNewPayIn d dto context
  | some key => do
    match ← findByIdempotencyKey context.clientId key with
    | some prior => toResponse prior true
    | none => createNewPayIn d dto context

/-! ## Queries -/

/-- `listPayIns`. -/
def listPayIns (query : ListPayInsQueryDto) (context : RequestContext) :
    Method (List PayInResponse) := do
  let records ← request (.payInList
    ⟨context.clientId, query.status, query.externalId, query.limit, query.offset⟩)
  Prog.promiseAll (records.map toResponseSlot)

/-- `getPayIn`. -/
def getPayIn (id : Uuid) (context : RequestContext) : Method PayInResponse := do
  let payin ← requirePayIn id context
  toResponse payin

/-! ## sweepPayIn -/

/-- The guard of the sweep writes. -/
def unsweptGuard : PayInUpdateGuard where
  expectedSweepStatus := some [.pending, .failed]

/-- The patch that records a sweep. -/
def sweptPatch (sweep : SweepExecution) (now : Timestamp) : PayInPatch where
  sweepStatus := some (if sweep.status = .confirmed then .confirmed else .broadcasted)
  sweepTransactionHash := some (some sweep.hash)
  sweptAmount := some sweep.amount
  sweptAmountAtomic := some sweep.amountAtomic
  sweptAt := some (some now)
  sweepFailureReason := some none

/-- The patch of a sweep that failed. -/
def sweepFailedPatch (failureReason : String) : PayInPatch where
  sweepStatus := some .failed
  sweepFailureReason := some (some failureReason)

/-- The patch of a pay-in that is not swept. -/
def notRequiredPatch : PayInPatch where
  sweepStatus := some .notRequired
  sweepFailureReason := some none

/-- The body of the `try` of `sweepPayIn`, up to the response. -/
def executeSweep (id : Uuid) (dto : SweepPayInDto) (context : RequestContext) (payin : PayInRecord)
    (amountAtomic : Option Nat) : Method (PayInRecord × Bool) := do
  let sweep ← sweepDerivedPayIn d payin.asset payin.derivationIndex payin.depositAddress amountAtomic
  let now ← request .clock
  let updated ← request (.payInUpdate id (sweptPatch sweep now) unsweptGuard)
  recordAudit .payinSwept id (toAuditActor context)
    [("transactionHash", .str sweep.hash), ("from", .str sweep.from), ("to", .str sweep.to),
      ("amount", .str sweep.amount), ("amountAtomic", .str (toString sweep.amountAtomic)),
      ("notes", .ofOption dto.notes)]
  match updated with
  | none => do
    let current ← requirePayIn id context
    return (current, true)
  | some updated => return (updated, false)

/-- The `catch` of `sweepPayIn`. -/
def handleSweepError (id : Uuid) (dto : SweepPayInDto) (context : RequestContext)
    (error : Exception) : Method (PayInRecord × Bool) := do
  let failureReason := error.messageOr "Unknown sweep failure."
  let failed ← request (.payInUpdate id (sweepFailedPatch failureReason) unsweptGuard)
  recordAudit .payinSweepFailed id (toAuditActor context)
    [("failureReason", .str failureReason), ("notes", .ofOption dto.notes)]
  match failed with
  | some failed => return (failed, false)
  | none => throw error

/-- The amount of a sweep, where one is asked for. -/
def sweepAmount (dto : SweepPayInDto) (payin : PayInRecord) : Except Exception (Option Nat) :=
  match truthy dto.amount with
  | none => .ok none
  | some amount => (parseAmount d amount (d.getAssetConfig payin.asset).decimals).map some

/-- `sweepPayIn`. -/
def sweepPayIn (id : Uuid) (dto : SweepPayInDto) (context : RequestContext) :
    Method PayInResponse := do
  let payin ← requirePayIn id context
  if payin.collectionMode = .paymentRouter then do
    let updated ← request (.payInUpdate id notRequiredPatch {})
    let updated ← requireUpdated updated
    toResponse updated true
  else if payin.sweepStatus = .broadcasted ∨ payin.sweepStatus = .confirmed then
    toResponse payin true
  else do
    let amountAtomic ← Prog.ofExcept (sweepAmount d dto payin)
    let (record, idempotentReplay) ← (executeSweep d id dto context payin amountAtomic).tryCatch
      (handleSweepError id dto context)
    toResponse record idempotentReplay

/-! ## topUpPayIn and topUpAndSweep -/

/-- The gas that a top-up sends: `parseEther` of the amount asked for, or of the default. -/
def topUpAmount (amountAvax : Option String) : Except Exception Nat :=
  (liftLibrary (d.parseUnits ((truthy amountAvax).getD "0.002") 18)).map Int.toNat

/-- The transfer of gas to the deposit address, with its audit. -/
def topUp (id : Uuid) (context : RequestContext) (payin : PayInRecord)
    (amountAvax : Option String) : Method TransferExecution := do
  let amountWei ← Prog.ofExcept (topUpAmount d amountAvax)
  let transfer ← sendNativeTransfer d payin.depositAddress amountWei
  recordAudit .payinTopup id (toAuditActor context)
    [("depositAddress", .str payin.depositAddress),
      ("amountAvax", .str (d.formatUnits amountWei 18)), ("transactionHash", .str transfer.hash),
      ("status", .str (match transfer.status with
        | .broadcasted => "broadcasted"
        | .confirmed => "confirmed"))]
  return transfer

/-- `topUpPayIn`. -/
def topUpPayIn (id : Uuid) (dto : TopUpPayInDto) (context : RequestContext) :
    Method PayInResponse := do
  let payin ← requirePayIn id context
  Prog.require (payin.collectionMode ≠ .paymentRouter)
    (.badRequest ("PaymentRouter pay-ins do not require gas top-up — " ++
      "the payer funds the gas."))
  let _ ← topUp d id context payin dto.amountAvax
  toResponse payin

/-- `topUpAndSweep`. -/
def topUpAndSweep (id : Uuid) (dto : TopUpAndSweepDto) (context : RequestContext) :
    Method PayInResponse := do
  let payin ← requirePayIn id context
  Prog.require (payin.collectionMode ≠ .paymentRouter)
    (.badRequest ("PaymentRouter pay-ins route directly to treasury — " ++
      "no top-up or sweep needed."))
  let topup ← topUp d id context payin dto.amountAvax
  if topup.status = .broadcasted then do
    let _ ← request (.waitForTransactionReceipt topup.hash)
    sweepPayIn d id ⟨dto.notes, none⟩ context
  else sweepPayIn d id ⟨dto.notes, none⟩ context

/-- `SWEEP_RETRY_COOLDOWN_MINUTES`. -/
def sweepRetryCooldownMinutes : Nat := 10

/-- One retry: an error is logged and dropped. -/
def retrySweep (context : RequestContext) (payin : PayInRecord) : Method Unit :=
  (topUpAndSweep d payin.id {} context).discard.tryCatch fun _ => return ()

/-- `retryPendingSweeps`. -/
def retryPendingSweeps (limit : Nat) (context : RequestContext) : Method Nat := do
  let candidates ← request (.payInSweepCandidates limit sweepRetryCooldownMinutes)
  Prog.forEach (retrySweep d context) candidates
  return candidates.length

/-! ## acceptPayIn -/

/-- The patch of a manual acceptance. -/
def acceptPatch (dto : AcceptPayInDto) (payin : PayInRecord) (now : Timestamp) : PayInPatch where
  status := some .confirmed
  acceptedAt := some (some now)
  acceptanceNote := some dto.note
  confirmedAt := some (some (payin.confirmedAt.getD now))

/-- The guard of a manual acceptance. -/
def acceptGuard : PayInUpdateGuard where
  expectedStatus := some [.underpaid, .overpaid]

/-- `acceptPayIn`. -/
def acceptPayIn (id : Uuid) (dto : AcceptPayInDto) (context : RequestContext) :
    Method PayInResponse := do
  let payin ← requirePayIn id context
  let now ← request .clock
  match ← request (.payInUpdate id (acceptPatch dto payin now) acceptGuard) with
  | none => do
    let current ← requirePayIn id context
    if current.status = .confirmed then toResponse current true
    else
      throw (.conflict (s!"Pay-in cannot be accepted from status \"{current.status.text}\". " ++
        "Only underpaid or overpaid pay-ins can be manually accepted."))
  | some updated => do
    recordAudit .payinAccepted id (toAuditActor context)
      [("previousStatus", .str payin.status.text), ("receivedAmount", .str payin.receivedAmount),
        ("expectedAmount", .str payin.expectedAmount), ("note", .ofOption dto.note)]
    enqueue updated.clientId "payin.confirmed"
      (confirmedPayload updated ++ [("acceptedManually", .bool true)])
    toResponse updated

/-! ## reconcilePayIn -/

/-- An invoice payment, as a record of the pay-in. -/
def paymentTransfer (payment : PaymentRouterInvoicePayment) : PayInTransferRecord where
  hash := payment.hash
  logIndex := payment.logIndex
  «from» := payment.from
  «to» := payment.to
  amount := payment.amount
  amountAtomic := payment.amountAtomic
  blockNumber := payment.blockNumber

/-- `findPayInTransfers`. -/
def findPayInTransfers (payin : PayInRecord) (toBlock : Nat) :
    Method (List PayInTransferRecord) :=
  match payin.collectionMode with
  | .paymentRouter => do
    let routerInvoiceId ← Prog.orThrow (.badRequest "Router pay-in has no invoice id.")
      (truthy payin.routerInvoiceId)
    let payments ← findPaymentRouterInvoicePayments d payin.asset routerInvoiceId
      payin.expectedAmountAtomic (scanFromBlock payin) toBlock
    return payments.map paymentTransfer
  | .derivedAddress =>
    findIncomingErc20Transfers d payin.asset payin.depositAddress (scanFromBlock payin) toBlock

/-- `enoughConfirmations`. -/
def enoughConfirmations (latestBlock : Nat) (transfers : List PayInTransferRecord) : Bool :=
  match latestTransferBlock transfers with
  | none => false
  | some block => decide (block < latestBlock) && decide (d.minConfirmations ≤ latestBlock - block)

/-- The status that `reconcilePayIn` writes. -/
def reconciledStatus (payin : PayInRecord) (transfers : List PayInTransferRecord)
    (latestBlock : Nat) (expired : Bool) : PayInStatus :=
  if totalReceivedAtomic transfers = 0 then if expired then .expired else .pending
  else if totalReceivedAtomic transfers < payin.expectedAmountAtomic then .underpaid
  else if payin.expectedAmountAtomic < totalReceivedAtomic transfers then .overpaid
  else if enoughConfirmations d latestBlock transfers then .confirmed
  else .detected

/-- `isFirstDetection`. -/
def isFirstDetection (payin : PayInRecord) (transfers : List PayInTransferRecord) : Bool :=
  !transfers.isEmpty && payin.detectedAt.isNone

/-- `isNewConfirmation`. -/
def isNewConfirmation (payin : PayInRecord) (status : PayInStatus) : Bool :=
  decide (status = .confirmed) && payin.confirmedAt.isNone

/-- The patch of `reconcilePayIn`, from the row it read and what the chain said. -/
def reconcilePatch (payin : PayInRecord) (transfers : List PayInTransferRecord) (latestBlock : Nat)
    (status : PayInStatus) (now : Timestamp) : PayInPatch where
  status := some status
  receivedAmountAtomic := some (totalReceivedAtomic transfers)
  receivedAmount := some
    (d.formatUnits (totalReceivedAtomic transfers) (d.getAssetConfig payin.asset).decimals)
  transfers := some transfers
  lastScannedBlock := some (some latestBlock)
  detectedAt := some (if isFirstDetection payin transfers then some now else payin.detectedAt)
  confirmedAt := some (if isNewConfirmation payin status then some now else payin.confirmedAt)

/-- `expired`: the clock is read where there is an expiry. -/
def readExpired (payin : PayInRecord) : Method Bool :=
  match payin.expiresAt with
  | none => return false
  | some expiresAt => do
    let now ← request .clock
    return decide (expiresAt < now)

/-- The webhook of a first detection. -/
def announceDetected (first : Bool) (updated : PayInRecord) : Method Unit :=
  if first then enqueue updated.clientId "payin.detected" (detectedPayload updated) else return ()

/-- The sweep that `reconcilePayIn` starts in the background. -/
def autoSweep (id : Uuid) (context : RequestContext) : Method Unit :=
  (topUpAndSweep d id {} context).discard.tryCatch fun _ => return ()

/-- The webhook of a new confirmation, and the sweep that it starts. -/
def announceConfirmed (id : Uuid) (context : RequestContext) (payin : PayInRecord)
    (confirmed : Bool) (updated : PayInRecord) : Method Unit :=
  if confirmed then do
    enqueue updated.clientId "payin.confirmed" (confirmedPayload updated)
    if d.autoSweep ∧ payin.collectionMode ≠ .paymentRouter then
      Prog.spawn (autoSweep d id context)
    else return ()
  else return ()

/-- `reconcilePayIn`, once the chain has been read. -/
def writeReconciled (id : Uuid) (context : RequestContext) (payin : PayInRecord) (latestBlock : Nat)
    (transfers : List PayInTransferRecord) : Method PayInResponse := do
  let now ← request .clock
  let expired ← readExpired payin
  let status := reconciledStatus d payin transfers latestBlock expired
  let updated ← request
    (.payInUpdate id (reconcilePatch d payin transfers latestBlock status now) {})
  let updated ← requireUpdated updated
  recordAudit .payinReconciled id (toAuditActor context)
    [("status", .str status.text),
      ("receivedAmountAtomic", .str (toString (totalReceivedAtomic transfers))),
      ("transferCount", .num transfers.length)]
  announceDetected (isFirstDetection payin transfers) updated
  announceConfirmed d id context payin (isNewConfirmation payin status) updated
  toResponse updated

/-- `reconcilePayIn`. -/
def reconcilePayIn (id : Uuid) (context : RequestContext) : Method PayInResponse := do
  let payin ← requirePayIn id context
  if payin.status = .confirmed then toResponse payin true
  else do
    let latestBlock ← request .getBlockNumber
    let newTransfers ← findPayInTransfers d payin latestBlock
    writeReconciled d id context payin latestBlock (mergeTransfers payin.transfers newTransfers)

end

end AvaSettle.Payins
