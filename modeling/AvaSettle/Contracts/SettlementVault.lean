import AvaSettle.Contracts.Guard

/-!
# SettlementVault

The contract that pays beneficiaries from the funder treasury. Its functions are written out with
their modifiers in the order of the source; views and getters, which change nothing, are left out.
-/

namespace AvaSettle.Contracts.SettlementVault
open Evm (Word Address Bytes Abi Code Contract Msg Account)

/-- Hard cap on batch size. -/
def maxBatch : Nat := 256

/-- The custom errors, with those that are inherited and the checked arithmetic. -/
inductive Error (oz : OpenZeppelin) : Type where
  | invalidFunder
  | invalidToken
  | unsupportedToken (token : Address)
  | invalidReference
  | invalidAmount
  | invalidBeneficiary
  | invalidOperator
  | notOperator (caller : Address)
  | payoutAlreadyExecuted (payoutId : Word)
  | batchAlreadyExecuted (batchId : Word)
  | emptyBatch
  | batchTooLarge (size max : Nat)
  | lengthMismatch (recipients amounts : Nat)
  | inherited (e : oz.Error)
  | overflow

/-- The storage. -/
structure Storage (oz : OpenZeppelin) where
  base : oz.Base
  funder : Address
  operators : Address → Bool
  supportedTokens : Address → Bool
  payoutExecuted : Word → Bool
  batchExecuted : Word → Bool

/-- The event `PayoutExecuted`. -/
structure PayoutExecuted where
  payoutId : Word
  batchId : Word
  token : Address
  payoutRef : Word
  funder : Address
  «to» : Address
  amount : Word
  metadata : Bytes
  deriving DecidableEq

/-- The event `BatchExecuted`. -/
structure BatchExecuted where
  batchId : Word
  token : Address
  batchRef : Word
  count : Nat
  total : Word
  deriving DecidableEq

/-- The events. -/
inductive Event (oz : OpenZeppelin) : Type where
  | funderUpdated (previousFunder newFunder : Address)
  | operatorUpdated (operator : Address) (allowed : Bool)
  | tokenSupportUpdated (token : Address) (supported : Bool)
  | payoutExecuted (e : PayoutExecuted)
  | batchExecuted (e : BatchExecuted)
  | inherited (e : oz.Event)

/-- The external functions. -/
inductive Call (oz : OpenZeppelin) : Type where
  | setFunder (newFunder : Address)
  | setOperator (operator : Address) (allowed : Bool)
  | setTokenSupported (token : Address) (supported : Bool)
  | pause
  | unpause
  | inherited (i : oz.Inherited)
  | payout (payoutRef : Word) (token «to» : Address) (amount : Word) (metadata : Bytes)
  | payoutBatch (batchRef : Word) (token : Address) (recipients : List Address)
      (amounts : List Word) (metadata : Bytes)

/-- The types of the contract. -/
abbrev abi (oz : OpenZeppelin) : Abi := tokenAbi (Storage oz) (Event oz) (Error oz) (Call oz)

section
variable {oz : OpenZeppelin}

/-- The code of the contract. -/
abbrev Fn (oz : OpenZeppelin) (α : Type) := Code (abi oz) α

/-- What the contract inherits. -/
def inherits : Inheritance oz (abi oz) where
  base := Storage.base
  setBase s base := { s with base := base }
  error := .inherited
  event := .inherited
  base_setBase _ _ := rfl

/-! ## Modifiers -/

/-- `onlyOperator`. -/
def onlyOperator (sender : Address) : Fn oz Unit := do
  let s ← Code.read
  Code.require (s.operators sender = true) (.notOperator sender)

/-! ## Owner administration -/

/-- `setFunder`. -/
def setFunder (sender newFunder : Address) : Fn oz Unit := do
  inherits.onlyOwner sender
  Code.require (newFunder ≠ 0) .invalidFunder
  let previous := (← Code.read).funder
  Code.modify fun s => { s with funder := newFunder }
  Code.log (.funderUpdated previous newFunder)

/-- `setOperator`. -/
def setOperator (sender operator : Address) (allowed : Bool) : Fn oz Unit := do
  inherits.onlyOwner sender
  Code.require (operator ≠ 0) .invalidOperator
  Code.modify fun s => { s with operators := Function.update s.operators operator allowed }
  Code.log (.operatorUpdated operator allowed)

/-- `setTokenSupported`. -/
def setTokenSupported (sender token : Address) (supported : Bool) : Fn oz Unit := do
  inherits.onlyOwner sender
  Code.require (token ≠ 0) .invalidToken
  Code.modify fun s =>
    { s with supportedTokens := Function.update s.supportedTokens token supported }
  Code.log (.tokenSupportUpdated token supported)

/-- `pause`. -/
def pause (sender : Address) : Fn oz Unit := do
  inherits.onlyOwner sender
  inherits.inheritedFn (oz.pause sender)

/-- `unpause`. -/
def unpause (sender : Address) : Fn oz Unit := do
  inherits.onlyOwner sender
  inherits.inheritedFn (oz.unpause sender)

/-! ## Core -/

variable (keccak256 : List Word → Word)

/-- `computePayoutId`. -/
def computePayoutId (payoutRef : Word) (token recipient : Address) (amount : Word) : Word :=
  keccak256 [payoutRef, token.word, recipient.word, amount]

/-- `_execute`. -/
def execute (batchId payoutRef : Word) (token recipient : Address) (amount : Word)
    (metadata : Bytes) : Fn oz Word := do
  Code.require (payoutRef ≠ 0) .invalidReference
  Code.require (recipient ≠ 0) .invalidBeneficiary
  Code.require (amount ≠ 0) .invalidAmount
  let payoutId := computePayoutId keccak256 payoutRef token recipient amount
  let s ← Code.read
  Code.require (s.payoutExecuted payoutId = false) (.payoutAlreadyExecuted payoutId)
  Code.modify fun s => { s with payoutExecuted := Function.update s.payoutExecuted payoutId true }
  let funder := (← Code.read).funder
  inherits.safeTransferFrom token funder recipient amount
  Code.log (.payoutExecuted
    ⟨payoutId, batchId, token, payoutRef, funder, recipient, amount, metadata⟩)
  return payoutId

/-- `payout`. -/
def payout (sender : Address) (payoutRef : Word) (token recipient : Address) (amount : Word)
    (metadata : Bytes) : Fn oz Word := do
  onlyOperator sender
  inherits.nonReentrant do
    inherits.whenNotPaused
    let s ← Code.read
    Code.require (s.supportedTokens token = true) (.unsupportedToken token)
    execute keccak256 0 payoutRef token recipient amount metadata

/-- Checked addition. -/
def checkedAdd (a b : Word) : Fn oz Word := do
  Code.require (a.toNat + b.toNat < 2 ^ 256) .overflow
  return a + b

/-- The loop of `payoutBatch`, from the leg `i` on. -/
def payLegs (batchId batchRef : Word) (token : Address) (metadata : Bytes) :
    Nat → List (Address × Word) → Word → Fn oz Word
  | _, [], total => return total
  | i, (recipient, amount) :: legs, total => do
    let legRef := keccak256 [batchRef, .ofNat 256 i]
    let _ ← execute keccak256 batchId legRef token recipient amount metadata
    let total ← checkedAdd total amount
    payLegs batchId batchRef token metadata (i + 1) legs total

/-- `payoutBatch`. -/
def payoutBatch (sender : Address) (batchRef : Word) (token : Address) (recipients : List Address)
    (amounts : List Word) (metadata : Bytes) : Fn oz Word := do
  onlyOperator sender
  inherits.nonReentrant do
    inherits.whenNotPaused
    Code.require (batchRef ≠ 0) .invalidReference
    let s ← Code.read
    Code.require (s.supportedTokens token = true) (.unsupportedToken token)
    Code.require (recipients.length = amounts.length)
      (.lengthMismatch recipients.length amounts.length)
    Code.require (recipients.length ≠ 0) .emptyBatch
    Code.require (recipients.length ≤ maxBatch) (.batchTooLarge recipients.length maxBatch)
    let batchId := keccak256 [batchRef, token.word]
    let s ← Code.read
    Code.require (s.batchExecuted batchId = false) (.batchAlreadyExecuted batchId)
    Code.modify fun s => { s with batchExecuted := Function.update s.batchExecuted batchId true }
    let total ← payLegs keccak256 batchId batchRef token metadata 0 (recipients.zip amounts) 0
    Code.log (.batchExecuted ⟨batchId, token, batchRef, recipients.length, total⟩)
    return batchId

/-! ## The contract -/

/-- The external functions of the contract. -/
def contract : Contract (abi oz) := fun m =>
  match m.call with
  | .setFunder newFunder => setFunder m.sender newFunder
  | .setOperator operator allowed => setOperator m.sender operator allowed
  | .setTokenSupported token supported => setTokenSupported m.sender token supported
  | .pause => pause m.sender
  | .unpause => unpause m.sender
  | .inherited i => inherits.inheritedFn (oz.inherited m.sender i)
  | .payout payoutRef token recipient amount metadata => do
    let _ ← payout keccak256 m.sender payoutRef token recipient amount metadata
  | .payoutBatch batchRef token recipients amounts metadata => do
    let _ ← payoutBatch keccak256 m.sender batchRef token recipients amounts metadata

end

/-- The constructor. Its event is not part of the journal, which begins with the first call. -/
def construct (oz : OpenZeppelin) (initialOwner initialFunder : Address) :
    Except (Error oz) (Account (abi oz)) :=
  match oz.construct initialOwner with
  | .error e => .error (.inherited e)
  | .ok base =>
    if initialFunder = 0 then .error .invalidFunder
    else
      .ok ⟨⟨base, initialFunder, fun _ => false, fun _ => false, fun _ => false, fun _ => false⟩, []⟩

/-- A vault owned by account 1 and funded by account 2. -/
def sampleVault : Account (abi .standard) :=
  ⟨⟨⟨1, 0, false, false⟩, 2, fun _ => false, fun _ => false, fun _ => false, fun _ => false⟩, []⟩

end AvaSettle.Contracts.SettlementVault
