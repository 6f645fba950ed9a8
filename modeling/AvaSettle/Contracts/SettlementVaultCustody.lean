import AvaSettle.Contracts.Erc20
import AvaSettle.Contracts.SettlementVault

/-!
# What the vault holds

The vault moves tokens from the funder to the recipients, which it checks for the zero address only. A
payout to the vault itself leaves the tokens on the vault; any other payout adds nothing to them.
-/

namespace AvaSettle.Contracts.SettlementVault
open Evm

variable {oz : OpenZeppelin} {keccak256 : List Word → Word} {recover : Recover} {self : Address}

/-! ## Transfers to others -/

/-- No balance of the account has grown. -/
def NoGain (self : Address) (ts ts' : Tokens) : Prop :=
  ∀ token, ((ts' token).balances self).toNat ≤ ((ts token).balances self).toNat

/-- Nothing is gained when nothing happens. -/
lemma NoGain.refl {ts : Tokens} : NoGain self ts ts := fun _ => le_rfl

/-- What gains nothing twice gains nothing. -/
lemma NoGain.trans {ts₁ ts₂ ts₃ : Tokens} (h₁ : NoGain self ts₁ ts₂) (h₂ : NoGain self ts₂ ts₃) :
    NoGain self ts₁ ts₃ := fun token => (h₂ token).trans (h₁ token)

/-- The transfer of one account to another, or of the account itself. -/
def Outgoing (self : Address) : TokenCall → Prop
  | .transferFrom _ payer recipient _ => recipient ≠ self ∨ payer = self
  | _ => False

section
variable {t t' : Token} {payer recipient : Address} {amount : Word}

/-- A transfer does not add to the balance of an account that is not its recipient, or that is its
    payer. -/
lemma balance_of_transferInternal (outgoing : recipient ≠ self ∨ payer = self)
    (moved : t.transferInternal payer recipient amount = some t') :
    (t'.balances self).toNat ≤ (t.balances self).toNat := by
  unfold Token.transferInternal at moved
  split at moved
  case isTrue => cases moved
  split at moved
  case isTrue => cases moved
  case isFalse enough =>
    cases moved
    have covered : amount ≤ t.balances payer := BitVec.not_lt.1 enough
    dsimp only
    by_cases kept : recipient = self
    · obtain rfl : payer = self := outgoing.resolve_left (not_not.2 kept)
      subst kept
      rw [Function.update_self, Function.update_self, BitVec.sub_add_cancel]
    · rw [Function.update_of_ne (Ne.symm kept)]
      by_cases own : payer = self
      · subst own
        rw [Function.update_self, BitVec.toNat_sub_of_le covered]
        exact Nat.sub_le ..
      · rw [Function.update_of_ne (Ne.symm own)]

/-- The allowance is none of the balances. -/
lemma balances_of_spendAllowance {spender : Address}
    (spent : t.spendAllowance payer spender amount = some t') : t'.balances = t.balances := by
  unfold Token.spendAllowance at spent
  dsimp only at spent
  split at spent
  case isTrue =>
    split at spent
    case isTrue => cases spent
    case isFalse =>
      obtain ⟨-, -, rfl⟩ := Token.of_approve spent
      rfl
  case isFalse =>
    cases spent
    rfl

/-- Nor does an outgoing request to a token. -/
lemma noGain_of_outgoing {now : Nat} {r : TokenCall} {ts : Tokens} (outgoing : Outgoing self r) :
    NoGain self ts (standardTokens recover self now r ts).2 := by
  cases r with
  | transfer => cases outgoing
  | permit => cases outgoing
  | transferFrom token payer recipient amount =>
    change NoGain self ts
      (ts.put token (.word 1) ((ts token).transferFrom self payer recipient amount)).2
    cases moved : (ts token).transferFrom self payer recipient amount with
    | none => exact .refl
    | some t' =>
      obtain ⟨t, spent, transferred⟩ := Option.bind_eq_some_iff.1 moved
      intro other
      change (((Function.update ts token t') other).balances self).toNat ≤ _
      by_cases own : other = token
      · subst own
        rw [Function.update_self, ← balances_of_spendAllowance spent]
        exact balance_of_transferInternal outgoing transferred
      · rw [Function.update_of_ne own]

end

/-! ## Calls that pay others -/

/-- The call pays nobody but others, or with what is the vault's own. -/
def Call.Outward (self funder : Address) : Call oz → Prop
  | .payout _ _ recipient _ _ => recipient ≠ self ∨ funder = self
  | .payoutBatch _ _ recipients _ _ => (∀ recipient ∈ recipients, recipient ≠ self) ∨ funder = self
  | _ => True

section
variable {v : Storage oz} {sender token recipient : Address} {payoutRef batchId batchRef amount : Word}
  {metadata : Bytes} {α : Type}

/-- Requests to tokens that add nothing to the vault, with the funder left as it is. -/
abbrev PaysOthers (self : Address) (c : Fn oz α) (v : Storage oz) : Prop :=
  c.Asks (A := abi oz) (Outgoing self) v fun _ v' => v'.funder = v.funder

/-- `execute` pays others. -/
lemma paysOthers_execute (outgoing : recipient ≠ self ∨ v.funder = self) :
    PaysOthers self (execute keccak256 batchId payoutRef token recipient amount metadata) v := by
  refine Code.asks_require_bind fun _ => Code.asks_require_bind fun _ =>
    Code.asks_require_bind fun _ => ?_
  refine Code.asks_read_bind.2 (Code.asks_require_bind fun _ => ?_)
  refine Code.asks_modify_bind.2 (Code.asks_read_bind.2 (Code.asks_bind ?_))
  refine Code.asks_request_bind.2 ⟨outgoing, fun answer => Code.asks_inherit fun _ _ => ?_⟩
  exact Code.asks_log_bind.2 rfl

/-- Paying the legs pays others. -/
lemma paysOthers_payLegs {legs : List (Address × Word)} {i : Nat} {total : Word}
    (outgoing : (∀ leg ∈ legs, leg.1 ≠ self) ∨ v.funder = self) :
    PaysOthers self (payLegs keccak256 batchId batchRef token metadata i legs total) v := by
  induction legs generalizing v i total with
  | nil => rfl
  | cons leg legs ih =>
    refine Code.asks_bind (Code.asks_mono (fun _ v' kept => ?_)
      (paysOthers_execute (outgoing.imp_left fun others => others leg List.mem_cons_self)))
    refine Code.asks_bind (Code.asks_require_bind fun _ => Code.asks_pure.2 ?_)
    refine Code.asks_mono (fun _ _ kept' => Eq.trans kept' kept) (ih ?_)
    rw [kept]
    exact outgoing.imp_left fun others leg mem => others leg (List.mem_cons_of_mem _ mem)

/-- The modifiers of a paying function ask nothing. -/
lemma paysOthers_guarded {body : Fn oz Word}
    (pays : ∀ v' : Storage oz, v'.funder = v.funder → PaysOthers self body v') :
    PaysOthers self (onlyOperator sender >>= fun _ =>
      inherits.nonReentrant (inherits.whenNotPaused >>= fun _ => body)) v := by
  refine Code.asks_bind (Code.asks_read_bind.2 (Code.asks_require fun _ => ?_))
  refine Code.asks_read_bind.2 (Code.asks_inherit_bind fun base _ => Code.asks_modify_bind.2 ?_)
  refine Code.asks_bind (Code.asks_bind (Code.asks_read_bind.2 (Code.asks_inherit fun _ _ => ?_)))
  exact Code.asks_mono (fun _ _ kept => Code.asks_modify_bind.2 kept) (pays _ rfl)

/-- A payout to others pays others. -/
lemma paysOthers_payout (outgoing : recipient ≠ self ∨ v.funder = self) :
    PaysOthers self (payout keccak256 sender payoutRef token recipient amount metadata) v := by
  refine paysOthers_guarded fun v' kept => ?_
  refine Code.asks_read_bind.2 (Code.asks_require_bind fun _ => ?_)
  exact paysOthers_execute (kept ▸ outgoing)

/-- `payoutBatch` pays others. -/
lemma paysOthers_payoutBatch {recipients : List Address} {amounts : List Word}
    (outgoing : (∀ recipient ∈ recipients, recipient ≠ self) ∨ v.funder = self) :
    PaysOthers self (payoutBatch keccak256 sender batchRef token recipients amounts metadata) v := by
  refine paysOthers_guarded fun v' kept => ?_
  refine Code.asks_require_bind fun _ => Code.asks_read_bind.2 (Code.asks_require_bind fun _ => ?_)
  refine Code.asks_require_bind fun _ => Code.asks_require_bind fun _ =>
    Code.asks_require_bind fun _ => ?_
  refine Code.asks_read_bind.2 (Code.asks_require_bind fun _ => Code.asks_modify_bind.2 ?_)
  refine Code.asks_bind (Code.asks_mono (fun _ _ kept' => Code.asks_log_bind.2 kept') ?_)
  refine paysOthers_payLegs (outgoing.imp (fun others leg mem => ?_) kept.trans)
  exact others leg.1 (List.of_mem_zip mem).1

/-- What is not a payout asks nothing. -/
lemma asks_onlyOwner {k : Unit → Fn oz Unit} {Q : Unit → Storage oz → Prop}
    (asks : (k ()).Asks (A := abi oz) (Outgoing self) v Q) :
    (inherits.onlyOwner sender >>= k).Asks (A := abi oz) (Outgoing self) v Q :=
  Code.asks_bind (Code.asks_read_bind.2 (Code.asks_inherit fun _ _ => asks))

/-- An inherited function asks for nothing. -/
lemma asks_inheritedFn {f : oz.Base → Except oz.Error (oz.Base × List oz.Event)} :
    ((inherits : Inheritance oz (abi oz)).inheritedFn f).Asks (Outgoing self) v fun _ _ => True :=
  Code.asks_read_bind.2 (Code.asks_inherit_bind fun _ _ =>
    Code.asks_modify_bind.2 (Code.asks_logAll.2 trivial))

/-- A call that pays others adds nothing to the vault. -/
lemma asks_contract {m : Msg (abi oz)} (outward : m.call.Outward self v.funder) :
    (contract keccak256 m).Asks (Outgoing self) v fun _ _ => True := by
  unfold contract
  split
  case h_1 => exact asks_onlyOwner (Code.asks_require_bind fun _ => trivial)
  case h_2 => exact asks_onlyOwner (Code.asks_require_bind fun _ => trivial)
  case h_3 => exact asks_onlyOwner (Code.asks_require_bind fun _ => trivial)
  case h_4 => exact asks_onlyOwner asks_inheritedFn
  case h_5 => exact asks_onlyOwner asks_inheritedFn
  case h_6 => exact asks_inheritedFn
  case h_7 call =>
    rw [call] at outward
    exact Code.asks_bind (Code.asks_mono (fun _ _ _ => trivial) (paysOthers_payout outward))
  case h_8 call =>
    rw [call] at outward
    exact Code.asks_bind (Code.asks_mono (fun _ _ _ => trivial) (paysOthers_payoutBatch outward))

end

/-! ## Every run -/

/-- A step: a call of the vault, or anything that is done to the tokens elsewhere. -/
inductive Step (oz : OpenZeppelin) : Type where
  | vault (m : Msg (abi oz))
  | elsewhere (ts : Tokens)

/-- The vault and the tokens after a step. -/
def step (keccak256 : List Word → Word) (recover : Recover) (self : Address)
    (s : Account (abi oz) × Tokens) : Step oz → Account (abi oz) × Tokens
  | .vault m => (invoke (contract keccak256) (passive (standardTokens recover self m.time)) m s).2
  | .elsewhere ts => (s.1, ts)

/-- The vault and the tokens after some steps. -/
def steps (keccak256 : List Word → Word) (recover : Recover) (self : Address)
    (s : Account (abi oz) × Tokens) (l : List (Step oz)) : Account (abi oz) × Tokens :=
  l.foldl (step keccak256 recover self) s

/-- The step, if it is a payout, pays nobody but others. -/
def Step.Outward (self funder : Address) : Step oz → Prop
  | .vault m => m.call.Outward self funder
  | .elsewhere _ => True

/-- Every payout of the run pays nobody but others. -/
def AllOutward (keccak256 : List Word → Word) (recover : Recover) (self : Address)
    (s : Account (abi oz) × Tokens) : List (Step oz) → Prop
  | [] => True
  | a :: l => a.Outward self s.1.storage.funder ∧
      AllOutward keccak256 recover self (step keccak256 recover self s a) l

section
variable {s : Account (abi oz) × Tokens} {l : List (Step oz)} {m : Msg (abi oz)}

/-- A call of the vault that pays others adds nothing to what the vault has. -/
lemma noGain_of_outward (outward : m.call.Outward self s.1.storage.funder) :
    NoGain self s.2 (step keccak256 recover self s (.vault m)).2 :=
  invoke_of_asks (fun _ => NoGain.refl) NoGain.trans (fun _ _ => noGain_of_outgoing)
    (asks_contract outward)

/-- The calls of a run. -/
lemma noGain_of_call {before after : List (Step oz)}
    (outward : AllOutward keccak256 recover self s (before ++ .vault m :: after)) :
    NoGain self (steps keccak256 recover self s before).2
      (steps keccak256 recover self s (before ++ [.vault m])).2 := by
  induction before generalizing s with
  | nil => exact noGain_of_outward outward.1
  | cons a before ih => exact ih outward.2

/-- In a run in which every payout pays others, no call of the vault adds to what the vault has, of any
    token; where nothing is done elsewhere, neither does the run. -/
theorem never_holds (s : Account (abi oz) × Tokens) (l : List (Step oz))
    (outward : AllOutward keccak256 recover self s l) :
    (∀ before m after, l = before ++ .vault m :: after →
      NoGain self (steps keccak256 recover self s before).2
        (steps keccak256 recover self s (before ++ [.vault m])).2) ∧
      ((∀ ts, .elsewhere ts ∉ l) → NoGain self s.2 (steps keccak256 recover self s l).2) := by
  constructor
  · rintro before m after rfl
    exact noGain_of_call outward
  · intro own
    induction l generalizing s with
    | nil => exact .refl
    | cons a l ih =>
      have rest := ih (step keccak256 recover self s a) outward.2
        fun ts mem => own ts (List.mem_cons_of_mem _ mem)
      cases a with
      | elsewhere ts => exact absurd List.mem_cons_self (own ts)
      | vault m => exact (noGain_of_outward outward.1).trans rest

end

/-! ## Concrete runs -/

/-- The funder holds a million of every token and has approved the vault for it. -/
def fundedTokens : Tokens := fun _ =>
  ⟨fun a => if a = 2 then 1000000 else 0, fun _ _ => 1000000, fun _ => 0⟩

/-- A vault with operator 3 that supports token 4, about to pay a recipient. -/
def payoutTo (recipient : Address) : List (Step .standard) :=
  [.vault ⟨1, 0, .setOperator 3 true⟩, .vault ⟨1, 0, .setTokenSupported 4 true⟩,
    .vault ⟨3, 1, .payout 1 4 recipient 1000000 []⟩]

/-- The vault at account 9 and the tokens after that. -/
def afterPayoutTo (recipient : Address) : Account (abi .standard) × Tokens :=
  steps (fun _ => 7) (fun _ _ => none) 9 (⟨⟨⟨1, 0, false, false⟩, 2, fun _ => false, fun _ => false,
    fun _ => false, fun _ => false⟩, []⟩, fundedTokens) (payoutTo recipient)

/-- A payout to account 5 is carried out, and the vault has what it had. -/
theorem never_holds_of_beneficiary :
    ((afterPayoutTo 5).2 4).balances 5 = 1000000 ∧ NoGain 9 fundedTokens (afterPayoutTo 5).2 := by
  refine ⟨by decide, (never_holds _ _ ?_).2 fun ts mem => ?_⟩
  · exact ⟨trivial, trivial, .inl (by decide), trivial⟩
  · simp [payoutTo] at mem

/-- A payout to the vault is carried out too, and leaves a million on it. -/
theorem payout_to_vault : ((afterPayoutTo 9).2 4).balances 9 = 1000000 ∧
    ¬NoGain 9 fundedTokens (afterPayoutTo 9).2 := by
  have held : ((afterPayoutTo 9).2 4).balances 9 = 1000000 := by decide
  exact ⟨held, fun kept => absurd (kept 4) (by decide)⟩

end AvaSettle.Contracts.SettlementVault
