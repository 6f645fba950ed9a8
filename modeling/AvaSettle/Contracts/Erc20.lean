import AvaSettle.Contracts.Guard
import AvaSettle.Evm.Passive

/-!
# Standard tokens

`ERC20Permit` as the library documents it. A token call that reverts leaves the token as it was. The
signer of a permit is recovered from the message and the signature; this is a parameter.
-/

namespace AvaSettle.Contracts
open Evm

/-- The state of a token. -/
structure Token where
  balances : Address → Word
  allowances : Address → Address → Word
  nonces : Address → Word

/-- The message that a permit signs, with the token that its domain names. -/
structure Permit where
  token : Address
  owner : Address
  spender : Address
  value : Word
  nonce : Word
  deadline : Word
  deriving DecidableEq

/-- A signature. -/
structure Signature where
  v : UInt8
  r : Word
  s : Word
  deriving DecidableEq

/-- `ECDSA.recover`: who has signed a message, if anybody. -/
abbrev Recover := Permit → Signature → Option Address

namespace Token

/-- The allowance without end. -/
def infinite : Word := BitVec.allOnes 256

/-- `_approve`. -/
def approve (t : Token) (owner spender : Address) (value : Word) : Option Token :=
  if owner = 0 ∨ spender = 0 then none
  else
    let granted := Function.update (t.allowances owner) spender value
    some { t with allowances := Function.update t.allowances owner granted }

/-- `_spendAllowance`. -/
def spendAllowance (t : Token) (owner spender : Address) (value : Word) : Option Token :=
  let currentAllowance := t.allowances owner spender
  if currentAllowance < infinite then
    if currentAllowance < value then none
    else t.approve owner spender (currentAllowance - value)
  else some t

/-- `_transfer`. -/
def transferInternal (t : Token) (sender recipient : Address) (value : Word) : Option Token :=
  if sender = 0 ∨ recipient = 0 then none
  else if t.balances sender < value then none
  else
    let balances := Function.update t.balances sender (t.balances sender - value)
    some { t with balances := Function.update balances recipient (balances recipient + value) }

/-- `transfer`, called by `sender`. -/
def transfer (t : Token) (sender recipient : Address) (value : Word) : Option Token :=
  t.transferInternal sender recipient value

/-- `transferFrom`, called by `spender`. -/
def transferFrom (t : Token) (spender payer recipient : Address) (value : Word) : Option Token := do
  let t ← t.spendAllowance payer spender value
  t.transferInternal payer recipient value

/-- `permit`, of the token at `self`, at the block timestamp `now`. -/
def permit (recover : Recover) (self : Address) (now : Nat) (t : Token) (owner spender : Address)
    (value deadline : Word) (signature : Signature) : Option Token :=
  if deadline.toNat < now then none
  else
    let nonce := t.nonces owner
    let t := { t with nonces := Function.update t.nonces owner (nonce + 1) }
    match recover ⟨self, owner, spender, value, nonce, deadline⟩ signature with
    | none => none
    | some signer => if signer ≠ owner then none else t.approve owner spender value

section
variable {recover : Recover} {self owner spender : Address} {now : Nat} {t t' : Token}
  {value deadline : Word} {signature : Signature}

/-- An approval changes an allowance. -/
lemma of_approve (approved : t.approve owner spender value = some t') :
    owner ≠ 0 ∧ spender ≠ 0 ∧ t' = { t with
      allowances := Function.update t.allowances owner
        (Function.update (t.allowances owner) spender value) } := by
  unfold approve at approved
  split at approved
  case isTrue => cases approved
  case isFalse nonzero =>
    obtain ⟨owner, spender⟩ := not_or.1 nonzero
    exact ⟨owner, spender, (Option.some.inj approved).symm⟩

/-- A permit is accepted in time and with a signature of its owner for the current nonce; it uses the
    nonce up and grants the allowance. -/
lemma permit_eq_some :
    t.permit recover self now owner spender value deadline signature = some t' ↔
      now ≤ deadline.toNat ∧
        recover ⟨self, owner, spender, value, t.nonces owner, deadline⟩ signature = some owner ∧
          { t with nonces := Function.update t.nonces owner (t.nonces owner + 1) }.approve owner
            spender value = some t' := by
  unfold permit
  split
  case isTrue late => exact iff_of_false nofun fun valid => absurd valid.1 (not_le.2 late)
  case isFalse early =>
    dsimp only
    split
    case h_1 unsigned => exact iff_of_false nofun fun valid => nomatch unsigned.symm.trans valid.2.1
    case h_2 signer signed =>
      split
      case isTrue other =>
        refine iff_of_false nofun fun valid => other ?_
        exact Option.some.inj (signed.symm.trans valid.2.1)
      case isFalse same =>
        obtain rfl := not_not.1 same
        exact ⟨fun approved => ⟨not_lt.1 early, signed, approved⟩, fun valid => valid.2.2⟩

end

end Token

/-- The tokens, by their addresses. -/
abbrev Tokens := Address → Token

/-- What a call to a token leaves, which is nothing where it reverts. -/
def Tokens.put (ts : Tokens) (token : Address) (returned : TokenAnswer) :
    Option Token → Option TokenAnswer × Tokens
  | some t => (some returned, Function.update ts token t)
  | none => (none, ts)

/-- Standard tokens, called by the contract at `self`. -/
def standardTokens (recover : Recover) (self : Address) (now : Nat) :
    TokenCall → Tokens → Option TokenAnswer × Tokens
  | .transferFrom token payer recipient amount, ts =>
    ts.put token (.word 1) ((ts token).transferFrom self payer recipient amount)
  | .transfer token recipient amount, ts =>
    ts.put token (.word 1) ((ts token).transfer self recipient amount)
  | .permit token owner spender value deadline v r s, ts =>
    ts.put token .noData ((ts token).permit recover token now owner spender value deadline ⟨v, r, s⟩)

end AvaSettle.Contracts
