import AvaSettle.Contracts.Guard

/-!
# PaymentRouter

The contract through which payers settle invoices. Its functions are written out with their
modifiers in the order of the source; views and getters, which change nothing, are left out.
-/

namespace AvaSettle.Contracts.PaymentRouter
open Evm (Word Address Bytes Abi Code Contract Msg Account)

/-- The custom errors, with those that are inherited and the call of an address without code. -/
inductive Error (oz : OpenZeppelin) : Type where
  | invalidTreasury
  | invalidToken
  | unsupportedToken (token : Address)
  | invalidReference
  | invalidAmount
  | amountBelowMinimum (token : Address) (amount minimum : Word)
  | invoiceAlreadyPaid (invoiceId : Word)
  | invoiceExpired (deadline : Word)
  | inherited (e : oz.Error)
  | noCode

/-- The storage. -/
structure Storage (oz : OpenZeppelin) where
  base : oz.Base
  treasury : Address
  supportedTokens : Address → Bool
  minAmount : Address → Word
  invoicePaid : Word → Bool

/-- The event `InvoicePaid`. -/
structure InvoicePaid where
  invoiceId : Word
  payer : Address
  token : Address
  invoiceRef : Word
  amount : Word
  treasury : Address
  metadata : Bytes
  deriving DecidableEq

/-- The events. -/
inductive Event (oz : OpenZeppelin) : Type where
  | treasuryUpdated (previousTreasury newTreasury : Address)
  | tokenSupportUpdated (token : Address) (supported : Bool)
  | minAmountUpdated (token : Address) (minAmount : Word)
  | invoicePaid (e : InvoicePaid)
  | emergencyWithdraw (token «to» : Address) (amount : Word)
  | inherited (e : oz.Event)

/-- The external functions. -/
inductive Call (oz : OpenZeppelin) : Type where
  | setTreasury (newTreasury : Address)
  | setTokenSupported (token : Address) (supported : Bool) (minimum : Word)
  | pause
  | unpause
  | emergencyWithdraw (token «to» : Address) (amount : Word)
  | inherited (i : oz.Inherited)
  | payInvoice (invoiceRef : Word) (token : Address) (amount : Word) (metadata : Bytes)
  | payInvoiceWithPermit (invoiceRef : Word) (token : Address) (amount : Word) (metadata : Bytes)
      (deadline : Word) (v : UInt8) (r s : Word)
  | payInvoiceWithExpiry (invoiceRef : Word) (token : Address) (amount deadline : Word)
      (metadata : Bytes)

/-- The types of the contract. -/
abbrev abi (oz : OpenZeppelin) : Abi := tokenAbi (Storage oz) (Event oz) (Error oz) (Call oz)

section
variable {oz : OpenZeppelin}

/-- The code of the contract. -/
abbrev Fn (oz : OpenZeppelin) (α : Type) := Code (abi oz) α

/-- What the contract inherits. -/
def inherits : Inheritance oz (abi oz) where
  base := Storage.base
  setBase s base := { s with base := base }
  error := .inherited
  event := .inherited
  base_setBase _ _ := rfl

/-! ## Owner administration -/

/-- `setTreasury`. -/
def setTreasury (sender newTreasury : Address) : Fn oz Unit := do
  inherits.onlyOwner sender
  Code.require (newTreasury ≠ 0) .invalidTreasury
  let previousTreasury := (← Code.read).treasury
  Code.modify fun s => { s with treasury := newTreasury }
  Code.log (.treasuryUpdated previousTreasury newTreasury)

/-- `setTokenSupported`. -/
def setTokenSupported (sender token : Address) (supported : Bool) (minimum : Word) :
    Fn oz Unit := do
  inherits.onlyOwner sender
  Code.require (token ≠ 0) .invalidToken
  Code.modify fun s =>
    { s with supportedTokens := Function.update s.supportedTokens token supported }
  Code.modify fun s => { s with minAmount := Function.update s.minAmount token minimum }
  Code.log (.tokenSupportUpdated token supported)
  Code.log (.minAmountUpdated token minimum)

/-- `pause`. -/
def pause (sender : Address) : Fn oz Unit := do
  inherits.onlyOwner sender
  inherits.inheritedFn (oz.pause sender)

/-- `unpause`. -/
def unpause (sender : Address) : Fn oz Unit := do
  inherits.onlyOwner sender
  inherits.inheritedFn (oz.unpause sender)

/-- `emergencyWithdraw`. -/
def emergencyWithdraw (sender token recipient : Address) (amount : Word) : Fn oz Unit := do
  inherits.onlyOwner sender
  Code.require (token ≠ 0) .invalidToken
  Code.require (recipient ≠ 0) .invalidTreasury
  inherits.safeTransfer token recipient amount
  Code.log (.emergencyWithdraw token recipient amount)

/-! ## Core -/

/-- `_settle`. -/
def settle (sender : Address) (invoiceId invoiceRef : Word) (token : Address) (amount : Word)
    (metadata : Bytes) : Fn oz Word := do
  Code.require (invoiceRef ≠ 0) .invalidReference
  Code.require (token ≠ 0) .invalidToken
  let s ← Code.read
  Code.require (s.supportedTokens token = true) (.unsupportedToken token)
  Code.require (amount ≠ 0) .invalidAmount
  let minimum := (← Code.read).minAmount token
  Code.require (¬(0 < minimum ∧ amount < minimum)) (.amountBelowMinimum token amount minimum)
  let s ← Code.read
  Code.require (s.invoicePaid invoiceId = false) (.invoiceAlreadyPaid invoiceId)
  Code.modify fun s => { s with invoicePaid := Function.update s.invoicePaid invoiceId true }
  let settledTreasury := (← Code.read).treasury
  inherits.safeTransferFrom token sender settledTreasury amount
  Code.log (.invoicePaid
    ⟨invoiceId, sender, token, invoiceRef, amount, settledTreasury, metadata⟩)
  return invoiceId

variable (keccak256 : List Word → Word)

/-- `computeInvoiceId`. -/
def computeInvoiceId (invoiceRef : Word) (token : Address) (amount : Word) : Word :=
  keccak256 [invoiceRef, token.word, amount]

/-- `computeInvoiceIdWithExpiry`. -/
def computeInvoiceIdWithExpiry (invoiceRef : Word) (token : Address) (amount deadline : Word) :
    Word :=
  keccak256 [invoiceRef, token.word, amount, deadline]

/-- `_payInvoice`. -/
def payInvoiceInternal (sender : Address) (invoiceRef : Word) (token : Address) (amount : Word)
    (metadata : Bytes) : Fn oz Word :=
  let id := computeInvoiceId keccak256 invoiceRef token amount
  settle sender id invoiceRef token amount metadata

/-- `payInvoice`. -/
def payInvoice (sender : Address) (invoiceRef : Word) (token : Address) (amount : Word)
    (metadata : Bytes) : Fn oz Word :=
  inherits.nonReentrant do
    inherits.whenNotPaused
    payInvoiceInternal keccak256 sender invoiceRef token amount metadata

/-- `payInvoiceWithPermit`, of the router at `self`. What the permit comes to is ignored, but it is not
    tried on an address without code. -/
def payInvoiceWithPermit (self sender : Address) (invoiceRef : Word) (token : Address)
    (amount : Word) (metadata : Bytes) (deadline : Word) (v : UInt8) (r s : Word) : Fn oz Word :=
  inherits.nonReentrant do
    inherits.whenNotPaused
    let answer ← Code.request (.permit token sender self amount deadline v r s)
    Code.require (answer ≠ some .noCode) .noCode
    payInvoiceInternal keccak256 sender invoiceRef token amount metadata

/-- `payInvoiceWithExpiry`, at the block timestamp `now`. -/
def payInvoiceWithExpiry (sender : Address) (now : Nat) (invoiceRef : Word) (token : Address)
    (amount deadline : Word) (metadata : Bytes) : Fn oz Word :=
  inherits.nonReentrant do
    inherits.whenNotPaused
    Code.require (¬(deadline ≠ 0 ∧ deadline.toNat < now)) (.invoiceExpired deadline)
    let id := computeInvoiceIdWithExpiry keccak256 invoiceRef token amount deadline
    settle sender id invoiceRef token amount metadata

/-! ## The contract -/

/-- The external functions of the contract at the address `self`. -/
def contract (self : Address) : Contract (abi oz) := fun m =>
  match m.call with
  | .setTreasury newTreasury => setTreasury m.sender newTreasury
  | .setTokenSupported token supported minimum => setTokenSupported m.sender token supported minimum
  | .pause => pause m.sender
  | .unpause => unpause m.sender
  | .emergencyWithdraw token recipient amount => emergencyWithdraw m.sender token recipient amount
  | .inherited i => inherits.inheritedFn (oz.inherited m.sender i)
  | .payInvoice invoiceRef token amount metadata => do
    let _ ← payInvoice keccak256 m.sender invoiceRef token amount metadata
  | .payInvoiceWithPermit invoiceRef token amount metadata deadline v r s => do
    let _ ← payInvoiceWithPermit keccak256 self m.sender invoiceRef token amount metadata deadline
      v r s
  | .payInvoiceWithExpiry invoiceRef token amount deadline metadata => do
    let _ ← payInvoiceWithExpiry keccak256 m.sender m.time invoiceRef token amount deadline
      metadata

end

/-- The constructor. Its event is not part of the journal, which begins with the first call. -/
def construct (oz : OpenZeppelin) (initialOwner initialTreasury : Address) :
    Except (Error oz) (Account (abi oz)) :=
  match oz.construct initialOwner with
  | .error e => .error (.inherited e)
  | .ok base =>
    if initialTreasury = 0 then .error .invalidTreasury
    else .ok ⟨⟨base, initialTreasury, fun _ => false, fun _ => 0, fun _ => false⟩, []⟩

/-- A router owned by account 1 that pays into account 2. -/
def sampleRouter : Account (abi .standard) :=
  ⟨⟨⟨1, 0, false, false⟩, 2, fun _ => false, fun _ => 0, fun _ => false⟩, []⟩

end AvaSettle.Contracts.PaymentRouter
