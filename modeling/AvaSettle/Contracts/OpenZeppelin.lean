import AvaSettle.Evm.Reentry

/-!
# What the contracts inherit

The library contracts `Ownable2Step`, `Pausable`, `ReentrancyGuard` and `SafeERC20`. They are a
parameter of the models: their storage is opaque, and of their functions we know what is documented.
-/

namespace AvaSettle.Contracts
open Evm

/-- What the contracts ask of a token. -/
inductive TokenCall : Type where
  | transferFrom (token «from» «to» : Address) (amount : Word)
  | transfer (token «to» : Address) (amount : Word)
  | permit (token owner spender : Address) (value deadline : Word) (v : UInt8) (r s : Word)
  deriving DecidableEq

/-- What a call to a token returns. -/
inductive TokenAnswer : Type where
  /-- There is no contract at the address. -/
  | noCode
  /-- Nothing is returned. -/
  | noData
  /-- The first word returned. -/
  | word (w : Word)
  deriving DecidableEq

/-- The token did as it was asked: it neither reverted nor returned false. -/
def Successful (a : Option TokenAnswer) : Prop :=
  a = some .noData ∨ a = some (.word 1)

instance (a : Option TokenAnswer) : Decidable (Successful a) :=
  inferInstanceAs (Decidable (_ ∨ _))

/-- The inherited contracts. -/
structure OpenZeppelin where
  /-- The storage of the inherited contracts. -/
  Base : Type
  /-- Their custom errors. -/
  Error : Type
  /-- Their events. -/
  Event : Type
  /-- The external functions of `Ownable2Step`, with their arguments. -/
  Inherited : Type
  /-- `paused()`. -/
  paused : Base → Bool
  /-- The guard against re-entry is taken. -/
  entered : Base → Bool
  /-- The constructors. -/
  construct : Address → Except Error Base
  /-- `_checkOwner`, for a sender. -/
  checkOwner : Address → Base → Except Error Unit
  /-- `_requireNotPaused`. -/
  requireNotPaused : Base → Except Error Unit
  /-- `_pause`, for a sender. -/
  pause : Address → Base → Except Error (Base × List Event)
  /-- `_unpause`, for a sender. -/
  unpause : Address → Base → Except Error (Base × List Event)
  /-- The external functions of `Ownable2Step`, for a sender. -/
  inherited : Address → Inherited → Base → Except Error (Base × List Event)
  /-- `_nonReentrantBefore`. -/
  nonReentrantBefore : Base → Except Error Base
  /-- `_nonReentrantAfter`. -/
  nonReentrantAfter : Base → Base
  /-- What `SafeERC20` makes of the answer of a token. -/
  checkAnswer : Option TokenAnswer → Except Error Unit
  /-- A new contract has not been entered. -/
  entered_construct : ∀ {a b}, construct a = .ok b → entered b = false
  /-- `whenNotPaused`: the function cannot be called while the contract is paused. -/
  paused_of_requireNotPaused : ∀ {b}, requireNotPaused b = .ok () → paused b = false
  /-- Pausing has nothing to do with the guard. -/
  entered_pause : ∀ {a b r}, pause a b = .ok r → entered r.1 = entered b
  /-- Neither has unpausing. -/
  entered_unpause : ∀ {a b r}, unpause a b = .ok r → entered r.1 = entered b
  /-- Neither has ownership. -/
  entered_inherited : ∀ {a i b r}, inherited a i b = .ok r → entered r.1 = entered b
  /-- `nonReentrant`: a guarded function cannot be entered from a guarded function. -/
  entered_before :
    ∀ {b b'}, nonReentrantBefore b = .ok b' → entered b = false ∧ entered b' = true
  /-- The guard has nothing to do with pausing. -/
  paused_before : ∀ {b b'}, nonReentrantBefore b = .ok b' → paused b' = paused b
  /-- A guarded function that returns can be entered again. -/
  entered_after : ∀ {b}, entered (nonReentrantAfter b) = false
  /-- `SafeERC20` throws where the token reverts or returns false. -/
  successful_of_checkAnswer : ∀ {a}, checkAnswer a = .ok () → Successful a

/-! ## The library as it is published -/

/-- The storage of the library contracts. -/
structure StandardBase where
  owner : Address
  pendingOwner : Address
  paused : Bool
  entered : Bool
  deriving DecidableEq

/-- The custom errors of the library contracts. -/
inductive StandardError : Type where
  | ownableInvalidOwner (owner : Address)
  | ownableUnauthorizedAccount (account : Address)
  | enforcedPause
  | expectedPause
  | reentrancyGuardReentrantCall
  | safeERC20FailedOperation
  deriving DecidableEq

/-- The events of the library contracts. -/
inductive StandardEvent : Type where
  | paused (account : Address)
  | unpaused (account : Address)
  | ownershipTransferStarted (previousOwner newOwner : Address)
  | ownershipTransferred (previousOwner newOwner : Address)
  deriving DecidableEq

/-- The external functions of `Ownable2Step`. -/
inductive StandardCall : Type where
  | transferOwnership (newOwner : Address)
  | acceptOwnership
  | renounceOwnership
  deriving DecidableEq

/-- `_transferOwnership`. -/
def StandardBase.transferOwnership (b : StandardBase) (newOwner : Address) :
    StandardBase × List StandardEvent :=
  ({ b with pendingOwner := 0, owner := newOwner }, [.ownershipTransferred b.owner newOwner])

/-- The external functions of `Ownable2Step`. -/
def StandardBase.inherited (sender : Address) (call : StandardCall) (b : StandardBase) :
    Except StandardError (StandardBase × List StandardEvent) :=
  match call with
  | .transferOwnership newOwner =>
    if b.owner = sender then
      .ok ({ b with pendingOwner := newOwner }, [.ownershipTransferStarted b.owner newOwner])
    else .error (.ownableUnauthorizedAccount sender)
  | .acceptOwnership =>
    if b.pendingOwner = sender then .ok (b.transferOwnership sender)
    else .error (.ownableUnauthorizedAccount sender)
  | .renounceOwnership =>
    if b.owner = sender then .ok (b.transferOwnership 0)
    else .error (.ownableUnauthorizedAccount sender)

/-- A value where a check passes. -/
def guarded {ε α : Type} (c : Bool) (e : ε) (a : α) : Except ε α :=
  if c then .ok a else .error e

/-- A guarded value is there only where the guard holds. -/
lemma of_guarded {ε α : Type} {c : Bool} {e : ε} {a b : α} (h : guarded c e a = .ok b) :
    c = true ∧ a = b := by
  unfold guarded at h
  split at h
  case isTrue hc => exact ⟨hc, Except.ok.inj h⟩
  case isFalse => cases h

/-- An inherited call leaves the guard against re-entry. -/
lemma entered_of_inherited {sender : Address} {call : StandardCall} {b : StandardBase}
    {r : StandardBase × List StandardEvent} (h : b.inherited sender call = .ok r) :
    r.1.entered = b.entered := by
  cases call <;> (unfold StandardBase.inherited at h; dsimp only at h; split at h <;> cases h; rfl)

/-- The library as it is published. -/
def OpenZeppelin.standard : OpenZeppelin where
  Base := StandardBase
  Error := StandardError
  Event := StandardEvent
  Inherited := StandardCall
  paused := StandardBase.paused
  entered := StandardBase.entered
  construct owner := guarded (owner ≠ 0) (.ownableInvalidOwner owner) ⟨owner, 0, false, false⟩
  checkOwner sender b := guarded (b.owner = sender) (.ownableUnauthorizedAccount sender) ()
  requireNotPaused b := guarded (!b.paused) .enforcedPause ()
  pause sender b := guarded (!b.paused) .enforcedPause ({ b with paused := true }, [.paused sender])
  unpause sender b := guarded b.paused .expectedPause ({ b with paused := false }, [.unpaused sender])
  inherited := StandardBase.inherited
  nonReentrantBefore b :=
    guarded (!b.entered) .reentrancyGuardReentrantCall { b with entered := true }
  nonReentrantAfter b := { b with entered := false }
  checkAnswer a := guarded (Successful a) .safeERC20FailedOperation ()
  entered_construct h := (of_guarded h).2 ▸ rfl
  paused_of_requireNotPaused h := by simpa using (of_guarded h).1
  entered_pause h := (of_guarded h).2 ▸ rfl
  entered_unpause h := (of_guarded h).2 ▸ rfl
  entered_inherited := entered_of_inherited
  entered_before h := ⟨by simpa using (of_guarded h).1, (of_guarded h).2 ▸ rfl⟩
  paused_before h := (of_guarded h).2 ▸ rfl
  entered_after := rfl
  successful_of_checkAnswer h := of_decide_eq_true (of_guarded h).1

end AvaSettle.Contracts
