import AvaSettle.Data.Table
import AvaSettle.Model.Basic

/-!
# Records

The rows of the ledgers, with the patches their services accept. A patch has one field for each
whitelisted column; a field that is `none` is `undefined` in the source and leaves its column alone,
and every `UPDATE` sets `updated_at`.
-/

namespace AvaSettle
open Data (Table Patch)

/-! ## Payouts -/

/-- `PayoutStatus`. -/
inductive PayoutStatus : Type where
  | prepared
  | authorized
  | broadcasted
  | confirmed
  | failed
  deriving DecidableEq, Repr

/-- The status as the database stores it. -/
def PayoutStatus.text : PayoutStatus → String
  | .prepared => "prepared"
  | .authorized => "authorized"
  | .broadcasted => "broadcasted"
  | .confirmed => "confirmed"
  | .failed => "failed"

/-- `PayoutRecord`. -/
structure PayoutRecord where
  id : Uuid
  clientId : Option String
  externalId : String
  chainFlowRequestId : Option String
  status : PayoutStatus
  network : SettlementNetwork
  chainId : Nat
  asset : SettlementAsset
  tokenAddress : Option Hex
  amount : String
  amountAtomic : Nat
  beneficiaryAddress : Hex
  beneficiaryName : Option String
  treasuryAddress : Option Hex
  transactionHash : Option Hex
  failureReason : Option String
  memo : Option String
  metadata : Json
  createdAt : Timestamp
  updatedAt : Timestamp
  authorizedAt : Option Timestamp
  broadcastedAt : Option Timestamp
  confirmedAt : Option Timestamp

/-- `Partial<PayoutRecord>`, over the columns that `PayoutLedgerService.update` accepts. -/
structure PayoutPatch where
  status : Option PayoutStatus := none
  treasuryAddress : Option (Option Hex) := none
  transactionHash : Option (Option Hex) := none
  failureReason : Option (Option String) := none
  metadata : Option Json := none
  authorizedAt : Option (Option Timestamp) := none
  broadcastedAt : Option (Option Timestamp) := none
  confirmedAt : Option (Option Timestamp) := none

/-- The row after `UPDATE … SET`. -/
def PayoutPatch.applyTo (p : PayoutPatch) (now : Timestamp) (r : PayoutRecord) : PayoutRecord :=
  { r with
    status := p.status.getD r.status
    treasuryAddress := p.treasuryAddress.getD r.treasuryAddress
    transactionHash := p.transactionHash.getD r.transactionHash
    failureReason := p.failureReason.getD r.failureReason
    metadata := p.metadata.getD r.metadata
    authorizedAt := p.authorizedAt.getD r.authorizedAt
    broadcastedAt := p.broadcastedAt.getD r.broadcastedAt
    confirmedAt := p.confirmedAt.getD r.confirmedAt
    updatedAt := now }

/-- The patch as a change of rows: the id is not whitelisted. -/
def PayoutPatch.toPatch (p : PayoutPatch) (now : Timestamp) : Patch PayoutRecord.id :=
  ⟨p.applyTo now, fun _ => rfl⟩

/-! ## Pay-ins -/

/-- `PayInStatus`. -/
inductive PayInStatus : Type where
  | pending
  | detected
  | confirmed
  | expired
  | underpaid
  | overpaid
  deriving DecidableEq, Repr

/-- The status as the database stores it. -/
def PayInStatus.text : PayInStatus → String
  | .pending => "pending"
  | .detected => "detected"
  | .confirmed => "confirmed"
  | .expired => "expired"
  | .underpaid => "underpaid"
  | .overpaid => "overpaid"

/-- `PayInCollectionMode`. -/
inductive PayInCollectionMode : Type where
  | derivedAddress
  | paymentRouter
  deriving DecidableEq, Repr

/-- The mode as the database stores it. -/
def PayInCollectionMode.text : PayInCollectionMode → String
  | .derivedAddress => "derived-address"
  | .paymentRouter => "payment-router"

/-- `PayInSweepStatus`. -/
inductive PayInSweepStatus : Type where
  | notRequired
  | pending
  | broadcasted
  | confirmed
  | failed
  deriving DecidableEq, Repr

/-- `PayInTransferRecord`. -/
structure PayInTransferRecord where
  hash : Hex
  logIndex : Option Nat
  «from» : Hex
  «to» : Hex
  amount : String
  amountAtomic : Nat
  blockNumber : Nat
  deriving DecidableEq, Repr

/-- `PayInRecord`. -/
structure PayInRecord where
  id : Uuid
  clientId : Option String
  externalId : String
  chainFlowRequestId : Option String
  status : PayInStatus
  network : SettlementNetwork
  chainId : Nat
  asset : SettlementAsset
  tokenAddress : Option Hex
  expectedAmount : String
  expectedAmountAtomic : Nat
  receivedAmount : String
  receivedAmountAtomic : Nat
  depositAddress : Hex
  derivationIndex : Int
  collectionMode : PayInCollectionMode
  routerAddress : Option Hex
  routerInvoiceId : Option Hex
  startBlock : Nat
  lastScannedBlock : Option Nat
  expiresAt : Option Timestamp
  metadata : Json
  transfers : List PayInTransferRecord
  sweepStatus : PayInSweepStatus
  sweepTransactionHash : Option Hex
  sweptAmount : String
  sweptAmountAtomic : Nat
  sweptAt : Option Timestamp
  sweepFailureReason : Option String
  createdAt : Timestamp
  updatedAt : Timestamp
  detectedAt : Option Timestamp
  confirmedAt : Option Timestamp
  acceptedAt : Option Timestamp
  acceptanceNote : Option String

/-- `Partial<PayInRecord>`, over the columns that `PayInLedgerService.update` accepts. -/
structure PayInPatch where
  status : Option PayInStatus := none
  receivedAmount : Option String := none
  receivedAmountAtomic : Option Nat := none
  sweepStatus : Option PayInSweepStatus := none
  sweepTransactionHash : Option (Option Hex) := none
  sweptAmount : Option String := none
  sweptAmountAtomic : Option Nat := none
  sweptAt : Option (Option Timestamp) := none
  sweepFailureReason : Option (Option String) := none
  lastScannedBlock : Option (Option Nat) := none
  acceptedAt : Option (Option Timestamp) := none
  acceptanceNote : Option (Option String) := none
  metadata : Option Json := none
  transfers : Option (List PayInTransferRecord) := none
  detectedAt : Option (Option Timestamp) := none
  confirmedAt : Option (Option Timestamp) := none

/-- The row after `UPDATE … SET`. -/
def PayInPatch.applyTo (p : PayInPatch) (now : Timestamp) (r : PayInRecord) : PayInRecord :=
  { r with
    status := p.status.getD r.status
    receivedAmount := p.receivedAmount.getD r.receivedAmount
    receivedAmountAtomic := p.receivedAmountAtomic.getD r.receivedAmountAtomic
    sweepStatus := p.sweepStatus.getD r.sweepStatus
    sweepTransactionHash := p.sweepTransactionHash.getD r.sweepTransactionHash
    sweptAmount := p.sweptAmount.getD r.sweptAmount
    sweptAmountAtomic := p.sweptAmountAtomic.getD r.sweptAmountAtomic
    sweptAt := p.sweptAt.getD r.sweptAt
    sweepFailureReason := p.sweepFailureReason.getD r.sweepFailureReason
    lastScannedBlock := p.lastScannedBlock.getD r.lastScannedBlock
    acceptedAt := p.acceptedAt.getD r.acceptedAt
    acceptanceNote := p.acceptanceNote.getD r.acceptanceNote
    metadata := p.metadata.getD r.metadata
    transfers := p.transfers.getD r.transfers
    detectedAt := p.detectedAt.getD r.detectedAt
    confirmedAt := p.confirmedAt.getD r.confirmedAt
    updatedAt := now }

/-- The patch as a change of rows: the id is not whitelisted. -/
def PayInPatch.toPatch (p : PayInPatch) (now : Timestamp) : Patch PayInRecord.id :=
  ⟨p.applyTo now, fun _ => rfl⟩

/-- `PayInUpdateGuard`. -/
structure PayInUpdateGuard where
  expectedStatus : Option (List PayInStatus) := none
  expectedSweepStatus : Option (List PayInSweepStatus) := none

/-- The row satisfies the guard. -/
def PayInUpdateGuard.holds (g : PayInUpdateGuard) (r : PayInRecord) : Bool :=
  (g.expectedStatus.all fun l => decide (r.status ∈ l)) &&
    g.expectedSweepStatus.all fun l => decide (r.sweepStatus ∈ l)

/-! ## Private settlements -/

/-- `PrivateSettlementStatus`. -/
inductive PrivateSettlementStatus : Type where
  | recorded
  | revealed
  deriving DecidableEq, Repr

/-- `PrivateSettlementRecord`. -/
structure PrivateSettlementRecord where
  id : Uuid
  clientId : Option String
  externalId : String
  settlementId : Hex
  settlementRef : Hex
  commitment : Hex
  asset : SettlementAsset
  tokenAddress : Hex
  amount : String
  amountAtomic : Nat
  counterparty : Hex
  nonce : Hex
  status : PrivateSettlementStatus
  transactionHash : Option Hex
  revealTransactionHash : Option Hex
  metadata : Json
  createdAt : Timestamp
  updatedAt : Timestamp

/-- The patch that `SettlementsRepository.update` accepts. -/
structure PrivateSettlementPatch where
  status : Option PrivateSettlementStatus := none
  transactionHash : Option (Option Hex) := none
  revealTransactionHash : Option (Option Hex) := none

/-- The row after `UPDATE … SET`. -/
def PrivateSettlementPatch.applyTo (p : PrivateSettlementPatch) (now : Timestamp)
    (r : PrivateSettlementRecord) : PrivateSettlementRecord :=
  { r with
    status := p.status.getD r.status
    transactionHash := p.transactionHash.getD r.transactionHash
    revealTransactionHash := p.revealTransactionHash.getD r.revealTransactionHash
    updatedAt := now }

/-- The patch as a change of rows. -/
def PrivateSettlementPatch.toPatch (p : PrivateSettlementPatch) (now : Timestamp) :
    Patch PrivateSettlementRecord.id :=
  ⟨p.applyTo now, fun _ => rfl⟩

/-! ## Audit trail and webhook outbox -/

/-- `AuditEventType`. -/
inductive AuditEventType : Type where
  | payoutPrepared
  | payoutIdempotentReplay
  | payoutAuthorized
  | payoutBroadcasted
  | payoutConfirmed
  | payoutFailed
  | payoutReconciled
  | payinCreated
  | payinReconciled
  | payinSwept
  | payinSweepFailed
  | payinAccepted
  | payinTopup
  | privateSettlementRecorded
  | privateSettlementRevealed
  deriving DecidableEq, Repr

/-- `AuditActor`. -/
structure AuditActor where
  clientId : Option String
  actor : Option String
  correlationId : Option String
  sourceIp : Option String

/-- `AuditEvent`. -/
structure AuditEvent where
  id : Uuid
  clientId : Option String
  type : AuditEventType
  subjectId : Uuid
  actor : AuditActor
  payload : Json
  createdAt : Timestamp

/-- A row of the webhook outbox, as `enqueue` writes it. -/
structure OutboxEvent where
  clientId : String
  event : String
  payload : Json

/-- An element of the `auditTrail` of a response. -/
structure TrailEntry where
  type : AuditEventType
  createdAt : Timestamp
  correlationId : Option String

/-- `PayoutResponse`. -/
structure PayoutResponse extends PayoutRecord where
  idempotentReplay : Option Bool
  auditTrail : List TrailEntry

/-- `PayInResponse`. -/
structure PayInResponse extends PayInRecord where
  idempotentReplay : Option Bool
  auditTrail : List TrailEntry

/-! ## Exceptions -/

/-- What a service can throw: the exceptions of the framework, each with its message, any other
    `Error`, and a thrown value that is not an `Error`. -/
inductive Exception : Type where
  | badRequest (message : String)
  | conflict (message : String)
  | notFound (message : String)
  | serviceUnavailable (message : String)
  | badGateway (message : String) (payout : Option PayoutResponse) (failureReason : Option String)
  | error (message : String)
  | unknown

namespace Exception

/-- `error instanceof Error ? error.message : fallback`. -/
def messageOr (fallback : String) : Exception → String
  | .badRequest message => message
  | .conflict message => message
  | .notFound message => message
  | .serviceUnavailable message => message
  | .badGateway message _ _ => message
  | .error message => message
  | .unknown => fallback

/-- `error instanceof ConflictException`. -/
def isConflict : Exception → Bool
  | .conflict _ => true
  | _ => false

/-- What an awaited library call throws: never one of the exceptions of the services. -/
def isForeign : Exception → Bool
  | .error _ => true
  | .unknown => true
  | _ => false

end Exception

end AvaSettle
