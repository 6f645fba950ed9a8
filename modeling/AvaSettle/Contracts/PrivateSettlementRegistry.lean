import AvaSettle.Contracts.Guard

/-!
# PrivateSettlementRegistry

The contract that records settlements as hash commitments. It calls no other contract. Its functions
are written out with their modifiers in the order of the source; of the views there is
`verifyCommitment`, which the auditor's function calls.
-/

namespace AvaSettle.Contracts.PrivateSettlementRegistry
open Evm (Word Address Bytes Abi Code Contract Account)

/-- The custom errors, with those that are inherited. -/
inductive Error (oz : OpenZeppelin) : Type where
  | notRegistrar (caller : Address)
  | notAuditor (caller : Address)
  | invalidReference
  | invalidCommitment
  | invalidAccount
  | settlementAlreadyRecorded (settlementId : Word)
  | unknownSettlement (settlementId : Word)
  | commitmentMismatch (settlementId : Word)
  | inherited (e : oz.Error)

/-- `Status`. -/
inductive Status : Type where
  | none
  | recorded
  | revealed
  deriving DecidableEq

/-- `Record`. -/
structure Record where
  commitment : Word
  status : Status
  recordedAt : BitVec 64
  registrar : Address
  deriving DecidableEq

/-- What a mapping holds where nothing has been stored. -/
def Record.empty : Record := ⟨0, .none, 0, 0⟩

/-- The storage. -/
structure Storage (oz : OpenZeppelin) where
  base : oz.Base
  registrars : Address → Bool
  auditors : Address → Bool
  records : Word → Record

/-- The event `PrivateSettlementRecorded`. -/
structure Recorded where
  settlementId : Word
  settlementRef : Word
  registrar : Address
  commitment : Word
  publicMetadata : Bytes
  deriving DecidableEq

/-- The event `PrivateSettlementRevealed`. -/
structure Revealed where
  settlementId : Word
  auditor : Address
  deriving DecidableEq

/-- The events. -/
inductive Event (oz : OpenZeppelin) : Type where
  | registrarUpdated (registrar : Address) (allowed : Bool)
  | auditorUpdated (auditor : Address) (allowed : Bool)
  | privateSettlementRecorded (e : Recorded)
  | privateSettlementRevealed (e : Revealed)
  | inherited (e : oz.Event)

/-- What is committed to. -/
structure Preimage where
  amount : Word
  asset : Address
  counterparty : Address
  nonce : Word
  deriving DecidableEq

/-- `abi.encode(amount, asset, counterparty, nonce)`. -/
def Preimage.words (p : Preimage) : List Word :=
  [p.amount, p.asset.word, p.counterparty.word, p.nonce]

/-- A preimage is determined by its words. -/
lemma Preimage.words_injective : Function.Injective Preimage.words := by
  rintro ⟨amount, asset, counterparty, nonce⟩ ⟨amount', asset', counterparty', nonce'⟩ eq
  simpa [words, Address.word_injective.eq_iff] using eq

/-- The external functions that are not views. -/
inductive Call (oz : OpenZeppelin) : Type where
  | setRegistrar (registrar : Address) (allowed : Bool)
  | setAuditor (auditor : Address) (allowed : Bool)
  | inherited (i : oz.Inherited)
  | recordSettlement (settlementRef commitment : Word) (publicMetadata : Bytes)
  | revealForAudit (settlementId : Word) (p : Preimage)

/-- The types of the contract. -/
abbrev abi (oz : OpenZeppelin) : Abi where
  Storage := Storage oz
  Request := Empty
  Answer := Empty
  Event := Event oz
  Error := Error oz
  Call := Call oz

section
variable {oz : OpenZeppelin}

/-- The code of the contract. -/
abbrev Fn (oz : OpenZeppelin) (α : Type) := Code (abi oz) α

/-- What the contract inherits. -/
def inherits : Inheritance oz (abi oz) where
  base := Storage.base
  setBase s base := { s with base := base }
  error := .inherited
  event := .inherited
  base_setBase _ _ := rfl

/-! ## Modifiers -/

/-- `onlyRegistrar`. -/
def onlyRegistrar (sender : Address) : Fn oz Unit := do
  let s ← Code.read
  Code.require (s.registrars sender = true) (.notRegistrar sender)

/-- `onlyAuditor`. -/
def onlyAuditor (sender : Address) : Fn oz Unit := do
  let s ← Code.read
  Code.require (s.auditors sender = true) (.notAuditor sender)

/-! ## Owner administration -/

/-- `setRegistrar`. -/
def setRegistrar (sender registrar : Address) (allowed : Bool) : Fn oz Unit := do
  inherits.onlyOwner sender
  Code.require (registrar ≠ 0) .invalidAccount
  Code.modify fun s => { s with registrars := Function.update s.registrars registrar allowed }
  Code.log (.registrarUpdated registrar allowed)

/-- `setAuditor`. -/
def setAuditor (sender auditor : Address) (allowed : Bool) : Fn oz Unit := do
  inherits.onlyOwner sender
  Code.require (auditor ≠ 0) .invalidAccount
  Code.modify fun s => { s with auditors := Function.update s.auditors auditor allowed }
  Code.log (.auditorUpdated auditor allowed)

/-! ## Views -/

variable (keccak256 : List Word → Word)

/-- `computeCommitment`. -/
def computeCommitment (p : Preimage) : Word := keccak256 p.words

/-- `verifyCommitment`. -/
def verifyCommitment (settlementId : Word) (p : Preimage) : Fn oz Bool := do
  let rec' := (← Code.read).records settlementId
  Code.require (rec'.status ≠ .none) (.unknownSettlement settlementId)
  return decide (rec'.commitment = computeCommitment keccak256 p)

/-! ## Core -/

/-- `recordSettlement`, at the block timestamp `now`. -/
def recordSettlement (sender : Address) (now : Nat) (settlementRef commitment : Word)
    (publicMetadata : Bytes) : Fn oz Word := do
  onlyRegistrar sender
  Code.require (settlementRef ≠ 0) .invalidReference
  Code.require (commitment ≠ 0) .invalidCommitment
  let settlementId := keccak256 [settlementRef]
  let s ← Code.read
  Code.require ((s.records settlementId).status = .none) (.settlementAlreadyRecorded settlementId)
  Code.modify fun s => { s with
    records := Function.update s.records settlementId
      ⟨commitment, .recorded, .ofNat 64 now, sender⟩ }
  Code.log (.privateSettlementRecorded
    ⟨settlementId, settlementRef, sender, commitment, publicMetadata⟩)
  return settlementId

/-- `revealForAudit`. -/
def revealForAudit (sender : Address) (settlementId : Word) (p : Preimage) : Fn oz Unit := do
  onlyAuditor sender
  let verified ← verifyCommitment keccak256 settlementId p
  Code.require (verified = true) (.commitmentMismatch settlementId)
  Code.modify fun s => { s with
    records := Function.update s.records settlementId
      { s.records settlementId with status := .revealed } }
  Code.log (.privateSettlementRevealed ⟨settlementId, sender⟩)

/-! ## The contract -/

/-- The external functions of the contract. -/
def contract : Contract (abi oz) := fun m =>
  match m.call with
  | .setRegistrar registrar allowed => setRegistrar m.sender registrar allowed
  | .setAuditor auditor allowed => setAuditor m.sender auditor allowed
  | .inherited i => inherits.inheritedFn (oz.inherited m.sender i)
  | .recordSettlement settlementRef commitment publicMetadata => do
    let _ ← recordSettlement keccak256 m.sender m.time settlementRef commitment publicMetadata
  | .revealForAudit settlementId p => revealForAudit keccak256 m.sender settlementId p

end

/-- The constructor. Its event is not part of the journal, which begins with the first call. -/
def construct (oz : OpenZeppelin) (initialOwner : Address) :
    Except (Error oz) (Account (abi oz)) :=
  match oz.construct initialOwner with
  | .error e => .error (.inherited e)
  | .ok base => .ok ⟨⟨base, fun _ => false, fun _ => false, fun _ => .empty⟩, []⟩

/-- A registry owned by account 1. -/
def sampleRegistry : Account (abi .standard) :=
  ⟨⟨⟨1, 0, false, false⟩, fun _ => false, fun _ => false, fun _ => .empty⟩, []⟩

end AvaSettle.Contracts.PrivateSettlementRegistry
