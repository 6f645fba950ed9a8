import Mathlib.Data.PNat.Basic
import AvaSettle.Data.Utf16
import AvaSettle.Model.World

/-!
# BlockchainService

The requests the services make to the chain: balances, the transfer and vault payout rails, the
settlement registry, receipts and log scans. A `writeContract` is the operation `submit`; everything
that can throw before it is written out, since it decides what a failed call may have sent.
-/

namespace AvaSettle.Blockchain
open Async (Prog)

/-! ## Results -/

/-- `TreasuryBalance`. -/
structure TreasuryBalance where
  asset : SettlementAsset
  tokenAddress : Hex
  decimals : Nat
  balanceAtomic : Nat
  balance : String

/-- `TransferExecution.status`. -/
inductive TransferStatus : Type where
  | broadcasted
  | confirmed
  deriving DecidableEq, Repr

/-- `TransferExecution`. -/
structure TransferExecution where
  hash : Hex
  status : TransferStatus
  blockNumber : Option Nat

/-- `SweepExecution`. -/
structure SweepExecution extends TransferExecution where
  «from» : Hex
  «to» : Hex
  asset : SettlementAsset
  amountAtomic : Nat
  amount : String

/-- `TransactionReconciliation.status`. -/
inductive ReconciliationStatus : Type where
  | pending
  | success
  | reverted
  deriving DecidableEq, Repr

/-- `TransactionReconciliation`. -/
structure TransactionReconciliation where
  hash : Hex
  network : SettlementNetwork
  status : ReconciliationStatus
  blockNumber : Option Nat
  confirmations : Nat
  finalized : Bool

/-- `PaymentRouterInvoicePayment`. -/
structure PaymentRouterInvoicePayment where
  hash : Hex
  logIndex : Option Nat
  «from» : Hex
  «to» : Hex
  amountAtomic : Nat
  amount : String
  blockNumber : Nat
  invoiceId : Hex
  payer : Hex
  token : Hex
  treasury : Hex

/-- An asset whose token address is configured. -/
structure ConfiguredAsset where
  address : Hex
  decimals : Nat

/-! ## Configuration and keys -/

section
variable (d : Deployment)

/-- `treasuryAddress`: the address of the treasury key. -/
def treasuryAddress : Option Hex :=
  d.treasuryPrivateKey.map d.privateKeyToAddress

/-- `requireTreasuryAddress`, and `TreasurySignerService.requireAccount`. -/
def requireTreasuryAddress : Except Exception Hex :=
  match treasuryAddress d with
  | some a => .ok a
  | none => .error (.serviceUnavailable "AvaSettle treasury private key is not configured.")

/-- `requireAsset`. -/
def requireAsset (asset : SettlementAsset) : Except Exception ConfiguredAsset :=
  match (d.getAssetConfig asset).address with
  | some a => .ok ⟨a, (d.getAssetConfig asset).decimals⟩
  | none =>
    .error (.serviceUnavailable s!"Token address for {asset.symbol} is not configured.")

/-- `requireVaultAddress`. -/
def requireVaultAddress : Except Exception Hex :=
  match d.settlementVaultAddress with
  | some a => .ok a
  | none =>
    .error (.serviceUnavailable "AVASETTLE_SETTLEMENT_VAULT_ADDRESS is not configured.")

/-- `requireVaultOperatorAccount`: the operator key, or else the treasury key. -/
def requireVaultOperatorAccount : Except Exception Hex :=
  match d.vaultOperatorPrivateKey with
  | some k => .ok (d.privateKeyToAddress k)
  | none => requireTreasuryAddress d

/-- `requireRegistryAddress`. -/
def requireRegistryAddress : Except Exception Hex :=
  match d.privateSettlementRegistryAddress with
  | some a => .ok a
  | none =>
    .error (.serviceUnavailable
      "AVASETTLE_PRIVATE_SETTLEMENT_REGISTRY_ADDRESS is not configured.")

/-- `requireRegistrarAccount`. -/
def requireRegistrarAccount : Except Exception Hex :=
  match d.settlementRegistrarPrivateKey with
  | some k => .ok (d.privateKeyToAddress k)
  | none =>
    .error (.serviceUnavailable
      "AVASETTLE_SETTLEMENT_REGISTRAR_PRIVATE_KEY is not configured.")

/-- `requireAuditorAccount`. -/
def requireAuditorAccount : Except Exception Hex :=
  match d.settlementAuditorPrivateKey with
  | some k => .ok (d.privateKeyToAddress k)
  | none =>
    .error (.serviceUnavailable
      "AVASETTLE_SETTLEMENT_AUDITOR_PRIVATE_KEY is not configured.")

/-! ## References and ids -/

/-- An error of a library function that nobody catches. -/
def liftLibrary {α : Type} : Except String α → Except Exception α
  | .ok a => .ok a
  | .error message => .error (.error message)

/-- `routerInvoiceIdFromExternalId`. -/
def routerInvoiceIdFromExternalId (externalId : String) : Hex :=
  d.keccak256 (d.stringToBytes externalId)

/-- `computeRouterInvoiceId`. -/
def computeRouterInvoiceId (invoiceRef token : Hex) (amountAtomic : Nat) : Except Exception Hex :=
  liftLibrary ((d.encodeAbiParameters
    [.bytes32 invoiceRef, .address token, .uint256 amountAtomic]).map d.keccak256)

/-- `vaultPayoutRefFromExternalId`. -/
def vaultPayoutRefFromExternalId (externalId : String) : Hex :=
  d.keccak256 (d.stringToBytes externalId)

/-- `batchRefFromExternalIds`. -/
def batchRefFromExternalIds (externalIds : List String) : Hex :=
  d.keccak256 (d.stringToBytes ("|".intercalate (Data.sortStrings externalIds)))

/-- `settlementRefFromExternalId`. -/
def settlementRefFromExternalId (externalId : String) : Hex :=
  d.keccak256 (d.stringToBytes externalId)

/-- `computeSettlementId`. -/
def computeSettlementId (settlementRef : Hex) : Except Exception Hex :=
  liftLibrary ((d.encodeAbiParameters [.bytes32 settlementRef]).map d.keccak256)

/-- `computeSettlementCommitment`. -/
def computeSettlementCommitment (amountAtomic : Nat) (asset counterparty nonce : Hex) :
    Except Exception Hex :=
  liftLibrary ((d.encodeAbiParameters
    [.uint256 amountAtomic, .address asset, .address counterparty, .bytes32 nonce]).map d.keccak256)

/-- `derivePayInAccount(index).address`. -/
def derivePayInAddress (index : Nat) : Except Exception Hex :=
  match truthy d.payInMnemonic with
  | none => .error (.serviceUnavailable "AvaSettle pay-in mnemonic is not configured.")
  | some mnemonic => liftLibrary (d.mnemonicToAddress mnemonic d.payInDerivationAccount index)

/-- `parseAtomicAmount`. -/
def parseAtomicAmount (amount : String) (decimals : Nat) : Except String Nat := do
  let parsed ← d.parseUnits amount decimals
  if parsed ≤ 0 then throw "Amount must be greater than zero."
  return parsed.toNat

/-- `parseAmount` of the services: the message of the failed parse is a bad request. -/
def parseAmount (amount : String) (decimals : Nat) : Except Exception Nat :=
  match parseAtomicAmount d amount decimals with
  | .ok n => .ok n
  | .error message => .error (.badRequest message)

/-! ## Requests -/

/-- `getAssetBalance`: the balance of the treasury. -/
def getAssetBalance (asset : SettlementAsset) : Method TreasuryBalance := do
  let treasury ← Prog.ofExcept (requireTreasuryAddress d)
  let assetConfig ← Prog.ofExcept (requireAsset d asset)
  let balance ← request (.balanceOf assetConfig.address treasury)
  return {
    asset := asset
    tokenAddress := assetConfig.address
    decimals := assetConfig.decimals
    balanceAtomic := balance
    balance := d.formatUnits balance assetConfig.decimals }

/-- What the status of a receipt makes of a transfer. -/
def executionOf (hash : Hex) (receipt : Receipt) : TransferExecution where
  hash := hash
  status := if receipt.status = .success then .confirmed else .broadcasted
  blockNumber := some receipt.blockNumber

/-- `toTransferExecution`, which the direct transfer spells out. -/
def toTransferExecution (hash : Hex) : Method TransferExecution :=
  if d.waitForReceipt then do
    let receipt ← request (.waitForTransactionReceipt hash)
    return executionOf hash receipt
  else return ⟨hash, .broadcasted, none⟩

/-- `sendErc20Transfer`. -/
def sendErc20Transfer (asset : SettlementAsset) (recipient : Hex) (amountAtomic : Nat)
    (payouts : List Uuid) : Method TransferExecution := do
  Prog.require (d.isAddress recipient = true)
    (.badRequest "Beneficiary address is not a valid EVM address.")
  let account ← Prog.ofExcept (requireTreasuryAddress d)
  let assetConfig ← Prog.ofExcept (requireAsset d asset)
  let hash ← request
    (.submit account (.transfer assetConfig.address recipient amountAtomic) payouts)
  toTransferExecution d hash

/-- The message of an allowance that is too small. -/
def allowanceMessage (funder token : Hex) (allowance amount : Nat) : String :=
  s!"SettlementVault funder {funder} has not approved enough of {token} " ++
    s!"(allowance {allowance} < {amount}). " ++ "Approve the vault from the funder treasury."

/-- `ensureVaultAllowance`. -/
def ensureVaultAllowance (vault token : Hex) (amount : Nat) : Method Unit := do
  let funder ← request (.vaultFunder vault)
  let allowance ← request (.allowance token funder vault)
  Prog.require (amount ≤ allowance) (.conflict (allowanceMessage funder token allowance amount))

/-- `vaultPayout`. -/
def vaultPayout (asset : SettlementAsset) (payoutRef recipient : Hex) (amountAtomic : Nat)
    (payouts : List Uuid) : Method TransferExecution := do
  Prog.require (d.isAddress recipient = true)
    (.badRequest "Beneficiary address is not a valid EVM address.")
  let vault ← Prog.ofExcept (requireVaultAddress d)
  let assetConfig ← Prog.ofExcept (requireAsset d asset)
  ensureVaultAllowance vault assetConfig.address amountAtomic
  let account ← Prog.ofExcept (requireVaultOperatorAccount d)
  let hash ← request
    (.submit account (.vaultPayout vault payoutRef assetConfig.address recipient amountAtomic "0x")
      payouts)
  toTransferExecution d hash

/-- The first recipient that is not an address is a bad request. -/
def requireAddresses : List Hex → Except Exception Unit
  | [] => .ok ()
  | a :: as =>
    if d.isAddress a then requireAddresses as
    else .error (.badRequest s!"Invalid beneficiary address: {a}.")

/-- `vaultPayoutBatch`. -/
def vaultPayoutBatch (asset : SettlementAsset) (batchRef : Hex) (recipients : List Hex)
    (amountsAtomic : List Nat) (payouts : List Uuid) : Method TransferExecution := do
  let vault ← Prog.ofExcept (requireVaultAddress d)
  let assetConfig ← Prog.ofExcept (requireAsset d asset)
  Prog.ofExcept (requireAddresses d recipients)
  ensureVaultAllowance vault assetConfig.address amountsAtomic.sum
  let account ← Prog.ofExcept (requireVaultOperatorAccount d)
  let hash ← request
    (.submit account
      (.vaultPayoutBatch vault batchRef assetConfig.address recipients amountsAtomic "0x") payouts)
  toTransferExecution d hash

/-- `recordPrivateSettlement`. -/
def recordPrivateSettlement (settlementRef commitment : Hex) : Method TransferExecution := do
  let registry ← Prog.ofExcept (requireRegistryAddress d)
  let account ← Prog.ofExcept (requireRegistrarAccount d)
  let hash ← request
    (.submit account (.recordSettlement registry settlementRef commitment "0x") [])
  toTransferExecution d hash

/-- `revealPrivateSettlement`. -/
def revealPrivateSettlement (settlementId : Hex) (amountAtomic : Nat)
    (asset counterparty nonce : Hex) : Method TransferExecution := do
  let registry ← Prog.ofExcept (requireRegistryAddress d)
  let account ← Prog.ofExcept (requireAuditorAccount d)
  let hash ← request
    (.submit account
      (.revealForAudit registry settlementId amountAtomic asset counterparty nonce) [])
  toTransferExecution d hash

/-- `sendNativeTransfer`. -/
def sendNativeTransfer (recipient : Hex) (amountWei : Nat) : Method TransferExecution := do
  Prog.require (d.isAddress recipient = true)
    (.badRequest "Recipient is not a valid EVM address.")
  let account ← Prog.ofExcept (requireTreasuryAddress d)
  let nativeBalance ← request (.getBalance account)
  Prog.require (amountWei ≤ nativeBalance)
    (.conflict "Treasury has insufficient AVAX balance for top-up.")
  let hash ← request (.submit account (.native recipient amountWei) [])
  toTransferExecution d hash

/-- `sweepDerivedPayIn`. -/
def sweepDerivedPayIn (asset : SettlementAsset) (derivationIndex : Int) (expectedAddress : Hex)
    (amount : Option Nat) : Method SweepExecution := do
  Prog.require (0 ≤ derivationIndex) (.badRequest "Invalid pay-in derivation index.")
  let treasury ← Prog.ofExcept (requireTreasuryAddress d)
  let account ← Prog.ofExcept (derivePayInAddress d derivationIndex.toNat)
  let derived ← Prog.ofExcept (liftLibrary (d.getAddress account))
  let expected ← Prog.ofExcept (liftLibrary (d.getAddress expectedAddress))
  Prog.require (derived = expected)
    (.conflict "Derived signer does not match stored pay-in deposit address.")
  let nativeBalance ← request (.getBalance account)
  Prog.require (nativeBalance ≠ 0)
    (.conflict "Derived deposit address has no AVAX for sweep gas.")
  let assetConfig ← Prog.ofExcept (requireAsset d asset)
  let tokenBalance ← request (.balanceOf assetConfig.address account)
  let amountAtomic := amount.getD tokenBalance
  Prog.require (0 < amountAtomic) (.conflict "Derived deposit address has no token balance.")
  Prog.require (amountAtomic ≤ tokenBalance)
    (.conflict "Sweep amount exceeds deposit address balance.")
  let hash ← request
    (.submit account (.transfer assetConfig.address treasury amountAtomic) [])
  let exec ← toTransferExecution d hash
  return {
    toTransferExecution := exec
    «from» := account
    «to» := treasury
    asset := asset
    amountAtomic := amountAtomic
    amount := d.formatUnits amountAtomic assetConfig.decimals }

/-- What a receipt and a head say about a transaction. -/
def reconciliationOf (hash : Hex) (receipt : Receipt) (latestBlock : Nat) :
    TransactionReconciliation where
  hash := hash
  network := d.settlementNetwork
  status := if receipt.status = .success then .success else .reverted
  blockNumber := some receipt.blockNumber
  confirmations := latestBlock - receipt.blockNumber
  finalized := decide (receipt.status = .success) &&
    decide (d.minConfirmations ≤ latestBlock - receipt.blockNumber)

/-- What is known about a transaction without a receipt. -/
def pendingReconciliation (hash : Hex) : TransactionReconciliation where
  hash := hash
  network := d.settlementNetwork
  status := .pending
  blockNumber := none
  confirmations := 0
  finalized := false

/-- `reconcileTransaction`. -/
def reconcileTransaction (hash : Hex) : Method TransactionReconciliation := do
  let receipt ← requestOr (.getTransactionReceipt hash) some none
  match receipt with
  | none => return pendingReconciliation d hash
  | some receipt =>
    let latestBlock ← request .getBlockNumber
    return reconciliationOf d hash receipt latestBlock

/-! ## Log scans -/

/-- The last block of the chunk that begins at `from`. -/
def chunkEnd (chunkSize : ℕ+) (toBlock fromBlock : Nat) : Nat :=
  if fromBlock + chunkSize - 1 < toBlock then fromBlock + chunkSize - 1 else toBlock

/-- The loop of `paginateLogs`, from the chunk at `from`. Each round moves at least one block, so
    that one round of fuel for each block left is enough. -/
def paginateFrom {T : Type} (fetchChunk : Nat → Nat → Method (List T)) (chunkSize : ℕ+)
    (toBlock : Nat) : Nat → Nat → List T → Method (List T)
  | 0, _, results => return results
  | fuel + 1, fromBlock, results =>
    if fromBlock ≤ toBlock then do
      let chunk ← fetchChunk fromBlock (chunkEnd chunkSize toBlock fromBlock)
      paginateFrom fetchChunk chunkSize toBlock fuel (fromBlock + chunkSize) (results ++ chunk)
    else return results

/-- `paginateLogs`. -/
def paginateLogs {T : Type} (fromBlock toBlock : Nat) (fetchChunk : Nat → Nat → Method (List T))
    (chunkSize : ℕ+ := 2000) : Method (List T) :=
  if toBlock < fromBlock then return []
  else paginateFrom fetchChunk chunkSize toBlock (toBlock + 1 - fromBlock) fromBlock []

/-- The first block of a scan: the one asked for, or a look-back from the head. -/
def scanStart (fromBlock latestBlock : Nat) : Nat :=
  if 0 < fromBlock then fromBlock
  else if d.payInLookbackBlocks < latestBlock then latestBlock - d.payInLookbackBlocks
  else 0

/-- An incoming transfer, as a record of the pay-in. -/
def incomingTransfer (decimals : Nat) (log : TransferLog) : PayInTransferRecord where
  hash := log.transactionHash
  logIndex := some log.logIndex
  «from» := log.from
  «to» := log.to
  amountAtomic := log.value
  amount := d.formatUnits log.value decimals
  blockNumber := log.blockNumber

/-- `findIncomingErc20Transfers`. -/
def findIncomingErc20Transfers (asset : SettlementAsset) (recipient : Hex)
    (fromBlock toBlock : Nat) : Method (List PayInTransferRecord) := do
  let assetConfig ← Prog.ofExcept (requireAsset d asset)
  if toBlock < scanStart d fromBlock toBlock then return []
  else do
    let logs ← paginateLogs (scanStart d fromBlock toBlock) toBlock fun f t =>
      request (.getTransferLogs assetConfig.address recipient f t)
    return logs.map (incomingTransfer d assetConfig.decimals)

/-- An invoice payment, with the log's data. -/
def invoicePayment (decimals : Nat) (log : InvoicePaidLog) : PaymentRouterInvoicePayment where
  hash := log.transactionHash
  logIndex := some log.logIndex
  invoiceId := log.invoiceId
  payer := log.payer
  «from» := log.payer
  «to» := log.treasury
  token := log.token
  treasury := log.treasury
  amountAtomic := log.amount
  amount := d.formatUnits log.amount decimals
  blockNumber := log.blockNumber

/-- `findPaymentRouterInvoicePayments`. -/
def findPaymentRouterInvoicePayments (asset : SettlementAsset) (invoiceRef : Hex)
    (amountAtomic fromBlock toBlock : Nat) : Method (List PaymentRouterInvoicePayment) := do
  let routerAddress ← Prog.orThrow
    (.serviceUnavailable "AVASETTLE_PAYMENT_ROUTER_ADDRESS is not configured.")
    d.paymentRouterAddress
  let assetConfig ← Prog.ofExcept (requireAsset d asset)
  let invoiceId ← Prog.ofExcept
    (computeRouterInvoiceId d invoiceRef assetConfig.address amountAtomic)
  if toBlock < scanStart d fromBlock toBlock then return []
  else do
    let logs ← paginateLogs (scanStart d fromBlock toBlock) toBlock fun f t =>
      request (.getInvoicePaidLogs routerAddress invoiceId assetConfig.address f t)
    return logs.map (invoicePayment d assetConfig.decimals)

end

end AvaSettle.Blockchain
