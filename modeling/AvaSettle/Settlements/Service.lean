import AvaSettle.Blockchain.Service
import AvaSettle.Model.Events

/-!
# SettlementsService

Confidential settlements: a commitment goes to the registry, its preimage stays in the ledger. The
bodies follow the source statement by statement.
-/

namespace AvaSettle.Settlements
open Async (Prog)
open Blockchain

/-- `CreateSettlementDto`. -/
structure CreateSettlementDto where
  externalId : String
  asset : SettlementAsset
  amount : String
  counterparty : Hex
  metadata : Option Json

/-- `ListSettlementsQueryDto`. -/
structure ListSettlementsQueryDto where
  limit : Option Nat
  offset : Option Nat

/-- `PrivateSettlementResponse`: the record without its nonce. -/
structure PrivateSettlementResponse where
  id : Uuid
  clientId : Option String
  externalId : String
  settlementId : Hex
  settlementRef : Hex
  commitment : Hex
  asset : SettlementAsset
  tokenAddress : Hex
  amount : String
  amountAtomic : Nat
  counterparty : Hex
  status : PrivateSettlementStatus
  transactionHash : Option Hex
  revealTransactionHash : Option Hex
  metadata : Json
  createdAt : Timestamp
  updatedAt : Timestamp
  idempotentReplay : Option Bool

/-- `toResponse`. -/
def toResponse (record : PrivateSettlementRecord) (idempotentReplay : Bool := false) :
    PrivateSettlementResponse :=
  { record with idempotentReplay := replayFlag idempotentReplay }

/-- `SettlementsRepository.createOrGetExisting`. -/
def createOrGetExisting (input : PrivateSettlementRecord) :
    Method (PrivateSettlementRecord × Bool) := do
  match ← request (.settlementInsert input) with
  | some inserted => return (inserted, false)
  | none =>
    let existing ← request (.settlementFindByExternalId input.clientId input.externalId)
    let existing ← Prog.orThrow (.error "Cannot read properties of undefined (reading 'id')")
      existing
    return (existing, true)

/-- `requireRecord`. -/
def requireRecord (id : Uuid) (context : RequestContext) : Method PrivateSettlementRecord := do
  let record ← request (.settlementFindById id context.clientId)
  Prog.orThrow (.notFound "Settlement not found.") record

section
variable (d : Deployment)

/-! ## record -/

/-- The row of a new settlement. Its timestamps are column defaults. -/
def newSettlement (dto : CreateSettlementDto) (context : RequestContext) (id : Uuid)
    (tokenAddress : Hex) (amountAtomic : Nat) (counterparty nonce settlementRef settlementId
      commitment : Hex) : PrivateSettlementRecord where
  id := id
  clientId := context.clientId
  externalId := dto.externalId
  settlementId := settlementId
  settlementRef := settlementRef
  commitment := commitment
  asset := dto.asset
  tokenAddress := tokenAddress
  amount := dto.amount
  amountAtomic := amountAtomic
  counterparty := counterparty
  nonce := nonce
  status := .recorded
  transactionHash := none
  revealTransactionHash := none
  metadata := dto.metadata.getD (.obj [])
  createdAt := 0
  updatedAt := 0

/-- The body of the `try` of `record`. -/
def publish (context : RequestContext) (settlementRef settlementId commitment : Hex)
    (record : PrivateSettlementRecord) : Method PrivateSettlementResponse := do
  let exec ← recordPrivateSettlement d settlementRef commitment
  let updated ← request (.settlementUpdate record.id { transactionHash := some (some exec.hash) })
  recordAudit .privateSettlementRecorded record.id (toAuditActor context)
    [("externalId", .str record.externalId), ("settlementId", .str settlementId),
      ("commitment", .str commitment), ("transactionHash", .str exec.hash)]
  return toResponse (updated.getD record)

/-- The `catch` of `record`: the claim is released so that the external id can be retried. -/
def release (id : Uuid) (error : Exception) : Method PrivateSettlementResponse := do
  request (.settlementDelete id)
  throw error

/-- `record`. -/
def record (dto : CreateSettlementDto) (context : RequestContext) :
    Method PrivateSettlementResponse := do
  Prog.require (d.privateSettlementRegistryConfigured = true)
    (.serviceUnavailable
      "Confidential settlements require AVASETTLE_PRIVATE_SETTLEMENT_REGISTRY_ADDRESS.")
  let assetConfig := d.getAssetConfig dto.asset
  let tokenAddress ← Prog.orThrow
    (.serviceUnavailable s!"Token address for {dto.asset.symbol} is not configured.")
    assetConfig.address
  let amountAtomic ← Prog.ofExcept (parseAmount d dto.amount assetConfig.decimals)
  let counterparty ← Prog.ofExcept (liftLibrary (d.getAddress dto.counterparty))
  let nonce ← request .randomBytes32
  let settlementRef := settlementRefFromExternalId d dto.externalId
  let settlementId ← Prog.ofExcept (computeSettlementId d settlementRef)
  let commitment ← Prog.ofExcept
    (computeSettlementCommitment d amountAtomic tokenAddress counterparty nonce)
  let id ← request .randomUUID
  let (record, existed) ← createOrGetExisting
    (newSettlement dto context id tokenAddress amountAtomic counterparty nonce settlementRef
      settlementId commitment)
  if existed then return toResponse record true
  else
    (publish d context settlementRef settlementId commitment record).tryCatch (release record.id)

/-! ## list, get and reveal -/

/-- `list`. -/
def list (query : ListSettlementsQueryDto) (context : RequestContext) :
    Method (List PrivateSettlementResponse) := do
  let records ← request
    (.settlementList context.clientId (query.limit.getD 100) (query.offset.getD 0))
  return records.map fun record => toResponse record

/-- `get`. -/
def get (id : Uuid) (context : RequestContext) : Method PrivateSettlementResponse := do
  let record ← requireRecord id context
  return toResponse record

/-- `reveal`. -/
def reveal (id : Uuid) (context : RequestContext) : Method PrivateSettlementResponse := do
  let record ← requireRecord id context
  if record.status = .revealed then return toResponse record true
  else do
    let exec ← revealPrivateSettlement d record.settlementId record.amountAtomic
      record.tokenAddress record.counterparty record.nonce
    let updated ← request (.settlementUpdate id
      { status := some .revealed, revealTransactionHash := some (some exec.hash) })
    recordAudit .privateSettlementRevealed id (toAuditActor context)
      [("settlementId", .str record.settlementId), ("transactionHash", .str exec.hash)]
    return toResponse (updated.getD record)

end

end AvaSettle.Settlements
