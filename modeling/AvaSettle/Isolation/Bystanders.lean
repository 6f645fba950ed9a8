import AvaSettle.Payins.Service
import AvaSettle.Payouts.Service
import AvaSettle.Settlements.Service

/-!
# Bystanders

The parts of the services that have nothing to do with the rows of the ledgers: the requests to the
chain, the audit trail and the outbox. None of them throws an exception that carries a payout.
-/

namespace AvaSettle.Isolation
open Async
open Blockchain

/-- The exception carries no payout. -/
def Plain : Exception → Prop
  | .badGateway _ (some _) _ => False
  | _ => True

/-- What fails, fails with an exception that carries no payout. -/
def PlainResult {α : Type} (x : Except Exception α) : Prop := ∀ e, x = .error e → Plain e

/-- The operation reads and writes no row of a ledger. -/
def isBystander : Call → Bool
  | .payoutInsert _ => false
  | .payoutFindById _ _ => false
  | .payoutFindByExternalId _ _ => false
  | .payoutList _ => false
  | .payoutUpdate _ _ _ => false
  | .payInInsert _ => false
  | .payInFindById _ _ => false
  | .payInFindByExternalId _ _ => false
  | .payInList _ => false
  | .payInUpdate _ _ _ => false
  | .payInSweepCandidates _ _ => false
  | .idempotencyKeyFind _ => false
  | .idempotencyKeyStore _ _ => false
  | .settlementInsert _ => false
  | .settlementFindById _ _ => false
  | .settlementFindByExternalId _ _ => false
  | .settlementList _ _ _ => false
  | .settlementUpdate _ _ => false
  | .settlementDelete _ => false
  | _ => true

/-- The program reads and writes no row of a ledger, and throws no payout. -/
abbrev Bystander {α : Type} (p : Method α) : Prop :=
  p.Uses (fun c => isBystander c = true) Plain

/-! ## Exceptions -/

section
variable {d : Deployment} {asset : SettlementAsset} {α : Type}

/-- A foreign exception carries no payout. -/
lemma plain_of_foreign {e : Exception} (foreign : e.isForeign = true) : Plain e := by
  cases e <;> trivial

/-- The exceptions of operations carry no payout. -/
lemma plain_of_raises {c : Call} {e : Exception} (raises : c.raises e = true) : Plain e := by
  cases c
  case clock => cases raises
  case randomUUID => cases raises
  case randomBytes32 => cases raises
  all_goals exact plain_of_foreign raises

/-- The exceptions of library functions carry no payout. -/
lemma plain_liftLibrary {x : Except String α} : PlainResult (liftLibrary x) := by
  cases x <;> rintro _ ⟨⟩
  trivial

/-- A mapped result is plain where the result is. -/
lemma plain_map {β : Type} {f : α → β} {x : Except Exception α} (plain : PlainResult x) :
    PlainResult (x.map f) := by
  cases x with
  | ok a => rintro _ ⟨⟩
  | error e =>
    rintro _ ⟨⟩
    exact plain e rfl

/-- A result and what follows it are plain where both are. -/
lemma plain_bind {β : Type} {x : Except Exception α} {f : α → Except Exception β}
    (plain : PlainResult x) (rest : ∀ a, PlainResult (f a)) : PlainResult (x >>= f) := by
  cases x with
  | ok a => exact rest a
  | error e =>
    rintro _ ⟨⟩
    exact plain e rfl

/-- The exceptions of `requireTreasuryAddress` carry no payout. -/
lemma plain_requireTreasuryAddress : PlainResult (requireTreasuryAddress d) := by
  unfold requireTreasuryAddress
  split <;> rintro _ ⟨⟩
  trivial

/-- The exceptions of `requireAsset` carry no payout. -/
lemma plain_requireAsset : PlainResult (requireAsset d asset) := by
  unfold requireAsset
  split <;> rintro _ ⟨⟩
  trivial

/-- The exceptions of `requireVaultAddress` carry no payout. -/
lemma plain_requireVaultAddress : PlainResult (requireVaultAddress d) := by
  unfold requireVaultAddress
  split <;> rintro _ ⟨⟩
  trivial

/-- The exceptions of `requireVaultOperatorAccount` carry no payout. -/
lemma plain_requireVaultOperatorAccount : PlainResult (requireVaultOperatorAccount d) := by
  unfold requireVaultOperatorAccount
  split
  case h_1 => rintro _ ⟨⟩
  case h_2 => exact plain_requireTreasuryAddress

/-- The exceptions of `requireRegistryAddress` carry no payout. -/
lemma plain_requireRegistryAddress : PlainResult (requireRegistryAddress d) := by
  unfold requireRegistryAddress
  split <;> rintro _ ⟨⟩
  trivial

/-- The exceptions of `requireRegistrarAccount` carry no payout. -/
lemma plain_requireRegistrarAccount : PlainResult (requireRegistrarAccount d) := by
  unfold requireRegistrarAccount
  split <;> rintro _ ⟨⟩
  trivial

/-- The exceptions of `requireAuditorAccount` carry no payout. -/
lemma plain_requireAuditorAccount : PlainResult (requireAuditorAccount d) := by
  unfold requireAuditorAccount
  split <;> rintro _ ⟨⟩
  trivial

/-- The exceptions of `derivePayInAddress` carry no payout. -/
lemma plain_derivePayInAddress {index : Nat} : PlainResult (derivePayInAddress d index) := by
  unfold derivePayInAddress
  split
  case h_1 =>
    rintro _ ⟨⟩
    trivial
  case h_2 => exact plain_liftLibrary

/-- The exceptions of `parseAmount` carry no payout. -/
lemma plain_parseAmount {amount : String} {decimals : Nat} :
    PlainResult (parseAmount d amount decimals) := by
  unfold parseAmount
  split <;> rintro _ ⟨⟩
  trivial

/-- The exceptions of `requireAddresses` carry no payout. -/
lemma plain_requireAddresses {as : List Hex} : PlainResult (requireAddresses d as) := by
  induction as with
  | nil => rintro _ ⟨⟩
  | cons a as ih =>
    unfold requireAddresses
    split
    case isTrue => exact ih
    case isFalse =>
      rintro _ ⟨⟩
      trivial

end

/-! ## Requests to the chain -/

section
variable {d : Deployment} {α : Type} {asset : SettlementAsset} {hash token recipient : Hex}
  {amount : Nat} {payouts : List Uuid}

/-- An operation on no ledger is a bystander. -/
lemma bystander_request {c : Call} (aside : isBystander c = true) : Bystander (request c) :=
  Prog.uses_await (S := Api) aside

/-- An operation on no ledger is a bystander, with a default as well. -/
lemma bystander_requestOr {c : Call} {f : c.Res → α} {a : α} (aside : isBystander c = true) :
    Bystander (requestOr c f a) :=
  Prog.uses_awaitOr (S := Api) aside

/-- `recordAudit` is a bystander. -/
lemma bystander_recordAudit {type : AuditEventType} {id : Uuid} {actor : AuditActor}
    {payload : List (String × Json)} : Bystander (recordAudit type id actor payload) :=
  bystander_request rfl

/-- `enqueue` is a bystander. -/
lemma bystander_enqueue {clientId : Option String} {event : String}
    {payload : List (String × Json)} : Bystander (enqueue clientId event payload) := by
  unfold enqueue
  split
  case h_1 => exact Prog.uses_pure _
  case h_2 => exact bystander_requestOr rfl

/-- `getAssetBalance` is a bystander. -/
lemma bystander_getAssetBalance : Bystander (getAssetBalance d asset) := by
  refine Prog.uses_bind (Prog.uses_ofExcept plain_requireTreasuryAddress) fun _ => ?_
  refine Prog.uses_bind (Prog.uses_ofExcept plain_requireAsset) fun _ => ?_
  exact Prog.uses_bind (bystander_request rfl) fun _ => Prog.uses_pure _

/-- `toTransferExecution` is a bystander. -/
lemma bystander_toTransferExecution : Bystander (toTransferExecution d hash) := by
  unfold toTransferExecution
  split
  case isTrue => exact Prog.uses_bind (bystander_request rfl) fun _ => Prog.uses_pure _
  case isFalse => exact Prog.uses_pure _

/-- Submitting a transaction and waiting for its receipt is a bystander. -/
lemma bystander_send {account : Hex} {tx : Tx} :
    Bystander (request (.submit account tx payouts) >>= toTransferExecution d) :=
  Prog.uses_bind (bystander_request rfl) fun _ => bystander_toTransferExecution

/-- `sendErc20Transfer` is a bystander. -/
lemma bystander_sendErc20Transfer :
    Bystander (sendErc20Transfer d asset recipient amount payouts) := by
  refine Prog.uses_bind (Prog.uses_require fun _ => trivial) fun _ => ?_
  refine Prog.uses_bind (Prog.uses_ofExcept plain_requireTreasuryAddress) fun _ => ?_
  exact Prog.uses_bind (Prog.uses_ofExcept plain_requireAsset) fun _ => bystander_send

/-- `ensureVaultAllowance` is a bystander. -/
lemma bystander_ensureVaultAllowance {vault : Hex} :
    Bystander (ensureVaultAllowance vault token amount) := by
  refine Prog.uses_bind (bystander_request rfl) fun _ => ?_
  exact Prog.uses_bind (bystander_request rfl) fun _ => Prog.uses_require fun _ => trivial

/-- `vaultPayout` is a bystander. -/
lemma bystander_vaultPayout {payoutRef : Hex} :
    Bystander (vaultPayout d asset payoutRef recipient amount payouts) := by
  refine Prog.uses_bind (Prog.uses_require fun _ => trivial) fun _ => ?_
  refine Prog.uses_bind (Prog.uses_ofExcept plain_requireVaultAddress) fun _ => ?_
  refine Prog.uses_bind (Prog.uses_ofExcept plain_requireAsset) fun _ => ?_
  refine Prog.uses_bind bystander_ensureVaultAllowance fun _ => ?_
  exact Prog.uses_bind (Prog.uses_ofExcept plain_requireVaultOperatorAccount) fun _ => bystander_send

/-- `vaultPayoutBatch` is a bystander. -/
lemma bystander_vaultPayoutBatch {batchRef : Hex} {recipients : List Hex} {amounts : List Nat} :
    Bystander (vaultPayoutBatch d asset batchRef recipients amounts payouts) := by
  refine Prog.uses_bind (Prog.uses_ofExcept plain_requireVaultAddress) fun _ => ?_
  refine Prog.uses_bind (Prog.uses_ofExcept plain_requireAsset) fun _ => ?_
  refine Prog.uses_bind (Prog.uses_ofExcept plain_requireAddresses) fun _ => ?_
  refine Prog.uses_bind bystander_ensureVaultAllowance fun _ => ?_
  exact Prog.uses_bind (Prog.uses_ofExcept plain_requireVaultOperatorAccount) fun _ => bystander_send

/-- `recordPrivateSettlement` is a bystander. -/
lemma bystander_recordPrivateSettlement {settlementRef commitment : Hex} :
    Bystander (recordPrivateSettlement d settlementRef commitment) := by
  refine Prog.uses_bind (Prog.uses_ofExcept plain_requireRegistryAddress) fun _ => ?_
  exact Prog.uses_bind (Prog.uses_ofExcept plain_requireRegistrarAccount) fun _ => bystander_send

/-- `revealPrivateSettlement` is a bystander. -/
lemma bystander_revealPrivateSettlement {settlementId counterparty nonce : Hex} :
    Bystander (revealPrivateSettlement d settlementId amount token counterparty nonce) := by
  refine Prog.uses_bind (Prog.uses_ofExcept plain_requireRegistryAddress) fun _ => ?_
  exact Prog.uses_bind (Prog.uses_ofExcept plain_requireAuditorAccount) fun _ => bystander_send

/-- `sendNativeTransfer` is a bystander. -/
lemma bystander_sendNativeTransfer : Bystander (sendNativeTransfer d recipient amount) := by
  refine Prog.uses_bind (Prog.uses_require fun _ => trivial) fun _ => ?_
  refine Prog.uses_bind (Prog.uses_ofExcept plain_requireTreasuryAddress) fun _ => ?_
  refine Prog.uses_bind (bystander_request rfl) fun _ => ?_
  exact Prog.uses_bind (Prog.uses_require fun _ => trivial) fun _ => bystander_send

/-- `sweepDerivedPayIn` is a bystander. -/
lemma bystander_sweepDerivedPayIn {index : Int} {expected : Hex} {wanted : Option Nat} :
    Bystander (sweepDerivedPayIn d asset index expected wanted) := by
  refine Prog.uses_bind (Prog.uses_require fun _ => trivial) fun _ => ?_
  refine Prog.uses_bind (Prog.uses_ofExcept plain_requireTreasuryAddress) fun _ => ?_
  refine Prog.uses_bind (Prog.uses_ofExcept plain_derivePayInAddress) fun _ => ?_
  refine Prog.uses_bind (Prog.uses_ofExcept plain_liftLibrary) fun _ => ?_
  refine Prog.uses_bind (Prog.uses_ofExcept plain_liftLibrary) fun _ => ?_
  refine Prog.uses_bind (Prog.uses_require fun _ => trivial) fun _ => ?_
  refine Prog.uses_bind (bystander_request rfl) fun _ => ?_
  refine Prog.uses_bind (Prog.uses_require fun _ => trivial) fun _ => ?_
  refine Prog.uses_bind (Prog.uses_ofExcept plain_requireAsset) fun _ => ?_
  refine Prog.uses_bind (bystander_request rfl) fun _ => ?_
  refine Prog.uses_bind (Prog.uses_require fun _ => trivial) fun _ => ?_
  refine Prog.uses_bind (Prog.uses_require fun _ => trivial) fun _ => ?_
  refine Prog.uses_bind (bystander_request rfl) fun _ => ?_
  exact Prog.uses_bind bystander_toTransferExecution fun _ => Prog.uses_pure _

/-- `reconcileTransaction` is a bystander. -/
lemma bystander_reconcileTransaction : Bystander (reconcileTransaction d hash) := by
  refine Prog.uses_bind (bystander_requestOr rfl) fun receipt => ?_
  cases receipt with
  | none => exact Prog.uses_pure _
  | some receipt => exact Prog.uses_bind (bystander_request rfl) fun _ => Prog.uses_pure _

/-- Reading chunk by chunk is a bystander, if reading a chunk is. -/
lemma bystander_paginateFrom {fetchChunk : Nat → Nat → Method (List α)} {chunkSize : ℕ+}
    {toBlock fuel fromBlock : Nat} {results : List α} (fetch : ∀ f t, Bystander (fetchChunk f t)) :
    Bystander (paginateFrom fetchChunk chunkSize toBlock fuel fromBlock results) := by
  induction fuel generalizing fromBlock results with
  | zero => exact Prog.uses_pure _
  | succ fuel ih =>
    unfold paginateFrom
    split
    case isTrue => exact Prog.uses_bind (fetch _ _) fun _ => ih
    case isFalse => exact Prog.uses_pure _

/-- `paginateLogs` is a bystander, if reading a chunk is. -/
lemma bystander_paginateLogs {fetchChunk : Nat → Nat → Method (List α)} {chunkSize : ℕ+}
    {fromBlock toBlock : Nat} (fetch : ∀ f t, Bystander (fetchChunk f t)) :
    Bystander (paginateLogs fromBlock toBlock fetchChunk chunkSize) := by
  unfold paginateLogs
  split
  case isTrue => exact Prog.uses_pure _
  case isFalse => exact bystander_paginateFrom fetch

/-- `findPayInTransfers` is a bystander. -/
lemma bystander_findPayInTransfers {payin : PayInRecord} {toBlock : Nat} :
    Bystander (Payins.findPayInTransfers d payin toBlock) := by
  unfold Payins.findPayInTransfers
  split
  case h_1 =>
    refine Prog.uses_bind (Prog.uses_orThrow trivial) fun _ => ?_
    refine Prog.uses_bind ?_ fun _ => Prog.uses_pure _
    refine Prog.uses_bind (Prog.uses_orThrow trivial) fun _ => ?_
    refine Prog.uses_bind (Prog.uses_ofExcept plain_requireAsset) fun _ => ?_
    refine Prog.uses_bind (Prog.uses_ofExcept plain_liftLibrary) fun _ => ?_
    split
    case isTrue => exact Prog.uses_pure _
    case isFalse =>
      exact Prog.uses_bind (bystander_paginateLogs fun _ _ => bystander_request rfl) fun _ =>
        Prog.uses_pure _
  case h_2 =>
    refine Prog.uses_bind (Prog.uses_ofExcept plain_requireAsset) fun _ => ?_
    split
    case isTrue => exact Prog.uses_pure _
    case isFalse =>
      exact Prog.uses_bind (bystander_paginateLogs fun _ _ => bystander_request rfl) fun _ =>
        Prog.uses_pure _

end

/-! ## Pay-ins -/

section
open Payins
variable {d : Deployment} {context : RequestContext} {id : Uuid} {r : PayInRecord}

/-- The exceptions of `requirePaymentRouterAddress` carry no payout. -/
lemma plain_requirePaymentRouterAddress : PlainResult (requirePaymentRouterAddress d) := by
  unfold requirePaymentRouterAddress
  split <;> rintro _ ⟨⟩
  trivial

/-- The exceptions of `sweepAmount` carry no payout. -/
lemma plain_sweepAmount {dto : SweepPayInDto} : PlainResult (sweepAmount d dto r) := by
  unfold sweepAmount
  split
  case h_1 => rintro _ ⟨⟩
  case h_2 => exact plain_map plain_parseAmount

/-- The exceptions of `topUpAmount` carry no payout. -/
lemma plain_topUpAmount {amount : Option String} : PlainResult (topUpAmount d amount) :=
  plain_map plain_liftLibrary

/-- `topUp` is a bystander. -/
lemma bystander_topUp {amount : Option String} : Bystander (topUp d id context r amount) := by
  refine Prog.uses_bind (Prog.uses_ofExcept plain_topUpAmount) fun _ => ?_
  refine Prog.uses_bind bystander_sendNativeTransfer fun _ => ?_
  exact Prog.uses_bind bystander_recordAudit fun _ => Prog.uses_pure _

/-- `readExpired` is a bystander. -/
lemma bystander_readExpired : Bystander (readExpired r) := by
  unfold readExpired
  split
  case h_1 => exact Prog.uses_pure _
  case h_2 => exact Prog.uses_bind (bystander_request rfl) fun _ => Prog.uses_pure _

/-- `announceDetected` is a bystander. -/
lemma bystander_announceDetected {first : Bool} : Bystander (announceDetected first r) := by
  unfold announceDetected
  split
  case isTrue => exact bystander_enqueue
  case isFalse => exact Prog.uses_pure _

/-- The response to a pay-in is put together by a bystander. -/
lemma bystander_payInResponse {replay : Bool} : Bystander (Payins.toResponse r replay) :=
  Prog.uses_bind (bystander_request rfl) fun _ => Prog.uses_pure _

end

end AvaSettle.Isolation
