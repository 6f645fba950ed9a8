import AvaSettle.Contracts.SettlementVaultCustody

/-!
# What a paid call has covered

A payout or a batch that returns has taken what it paid from the allowance that the funder has granted the
vault, unless that allowance is without end. So the allowance there was is at least the sum of what was paid.
-/

namespace AvaSettle.Evm

variable {A : Abi} {θ α β : Type}

/-- What holds of the value, the storage and the other contracts, if the play returns. -/
def Code.Returns (answer : A.Request → θ → Option A.Answer × θ) (c : Code A α) (v : A.Storage) (t : θ)
    (Q : α → A.Storage → θ → Prop) : Prop :=
  ∀ a, (c.play answer v t).result = .ok a → Q a (c.play answer v t).storage (c.play answer v t).others

section
variable {answer : A.Request → θ → Option A.Answer × θ} {v : A.Storage} {t : θ} {c : Code A α}
  {k : α → Code A β} {u : Unit → Code A β} {Q Q' : α → A.Storage → θ → Prop}
  {R : β → A.Storage → θ → Prop}

/-- The rule of consequence. -/
lemma Code.returns_mono (weaker : ∀ a v t, Q a v t → Q' a v t) (returns : c.Returns answer v t Q) :
    c.Returns answer v t Q' :=
  fun a ok => weaker a _ _ (returns a ok)

/-- The rule of sequencing. -/
lemma Code.returns_bind (returns : c.Returns answer v t fun a v t => (k a).Returns answer v t R) :
    (c >>= k).Returns answer v t R := by
  intro b ok
  rw [play_bind, Play.then] at ok ⊢
  cases result : (c.play answer v t).result with
  | error e =>
    rw [result] at ok
    cases ok
  | ok a =>
    rw [result] at ok
    exact returns a result b ok

/-- A value returns. -/
lemma Code.returns_pure {a : α} (holds : Q a v t) : (pure a : Code A α).Returns answer v t Q := by
  intro b ok
  cases ok
  exact holds

/-- What follows a read returns with the storage. -/
lemma Code.returns_read_bind {k : A.Storage → Code A β} (returns : (k v).Returns answer v t R) :
    (read >>= k).Returns answer v t R := returns

/-- What follows a write returns from the changed storage. -/
lemma Code.returns_modify_bind {g : A.Storage → A.Storage} (returns : (u ()).Returns answer (g v) t R) :
    (modify g >>= u).Returns answer v t R := returns

/-- What follows an event returns. -/
lemma Code.returns_log_bind {e : A.Event} (returns : (u ()).Returns answer v t R) :
    (log e >>= u).Returns answer v t R := returns

/-- What follows a request returns with its answer. -/
lemma Code.returns_request_bind {r : A.Request} {k : Option A.Answer → Code A β}
    (returns : (k (answer r t).1).Returns answer v (answer r t).2 R) :
    (request r >>= k).Returns answer v t R := returns

/-- A check returns only where it passes. -/
lemma Code.returns_require {p : Prop} [Decidable p] {e : A.Error} {Q : Unit → A.Storage → θ → Prop}
    (holds : p → Q () v t) : (require p e).Returns answer v t Q := by
  intro a ok
  unfold require at ok ⊢
  split at ok
  case isTrue holds' =>
    rw [if_pos holds']
    exact holds holds'
  case isFalse => cases ok

/-- A computation returns its result only. -/
lemma Code.returns_inherit {ε : Type} {g : ε → A.Error} {x : Except ε α} (holds : ∀ a, x = .ok a → Q a v t) :
    (inherit g x).Returns answer v t Q := by
  intro a ok
  cases x with
  | ok b =>
    cases ok
    exact holds a rfl
  | error e => cases ok

end

/-- A call that returns has played to its end. -/
lemma invoke_returned {answer : A.Request → θ → Option A.Answer × θ} {C : Contract A} {m : Msg A}
    {s : Account A} {t : θ} (returned : (invoke C (passive answer) m (s, t)).1 = .ok ()) :
    ((C m).play answer s.storage t).result = .ok () := by
  cases result : ((C m).play answer s.storage t).result with
  | ok u => rfl
  | error e =>
    rw [(invoke_passive answer).1 e result] at returned
    cases returned

end AvaSettle.Evm

namespace AvaSettle.Contracts

/-! ## Allowances -/

namespace Token
variable {t t' : Token} {payer spender recipient : Evm.Address} {value : Evm.Word}

/-- The value has been taken from the allowance, unless that is without end. -/
structure Draws (payer spender : Evm.Address) (value : Nat) (t t' : Token) : Prop where
  endless : t.allowances payer spender = infinite → t'.allowances payer spender = infinite
  drawn : t.allowances payer spender ≠ infinite →
    (t'.allowances payer spender).toNat + value = (t.allowances payer spender).toNat

/-- Nothing is drawn when nothing happens. -/
lemma Draws.refl : Draws payer spender 0 t t := ⟨id, fun _ => rfl⟩

/-- What is not more than a finite allowance is finite. -/
lemma ne_infinite_of_lt {w w' : Evm.Word} (ne : w ≠ infinite) (le : w'.toNat ≤ w.toNat) : w' ≠ infinite := by
  rintro rfl
  apply ne
  apply BitVec.eq_of_toNat_eq
  have bound := w.isLt
  simp only [infinite, BitVec.toNat_allOnes] at le ⊢
  omega

/-- Draws add up. -/
lemma Draws.trans {t₁ t₂ t₃ : Token} {n n' : Nat} (h₁ : Draws payer spender n t₁ t₂)
    (h₂ : Draws payer spender n' t₂ t₃) : Draws payer spender (n + n') t₁ t₃ where
  endless infinite := h₂.endless (h₁.endless infinite)
  drawn finite := by
    have first := h₁.drawn finite
    have second := h₂.drawn (ne_infinite_of_lt finite (by omega))
    omega

/-- A transfer leaves the allowances alone. -/
lemma allowances_of_transferInternal (moved : t.transferInternal payer recipient value = some t') :
    t'.allowances = t.allowances := by
  unfold transferInternal at moved
  split at moved
  case isTrue => cases moved
  split at moved
  case isTrue => cases moved
  case isFalse =>
    cases moved
    rfl

/-- Spending an allowance draws its value. -/
lemma draws_of_spendAllowance (spent : t.spendAllowance payer spender value = some t') :
    Draws payer spender value.toNat t t' := by
  unfold spendAllowance at spent
  dsimp only at spent
  split at spent
  case isTrue finite =>
    split at spent
    case isTrue => cases spent
    case isFalse covered =>
      have le : value ≤ t.allowances payer spender := BitVec.not_lt.1 covered
      obtain ⟨-, -, rfl⟩ := of_approve spent
      constructor
      · intro endless
        rw [endless] at finite
        exact absurd finite (BitVec.lt_irrefl _)
      · intro _
        change (Function.update t.allowances payer _ payer spender).toNat + _ = _
        rw [Function.update_self, Function.update_self, BitVec.toNat_sub_of_le le]
        exact Nat.sub_add_cancel (BitVec.le_def.1 le)
  case isFalse endless =>
    cases spent
    have top : t.allowances payer spender = infinite := by
      have bound := (t.allowances payer spender).isLt
      apply BitVec.eq_of_toNat_eq
      rw [BitVec.not_lt, BitVec.le_def] at endless
      simp only [infinite, BitVec.toNat_allOnes] at endless ⊢
      omega
    exact ⟨id, fun finite => absurd top finite⟩

/-- A transfer on behalf of the payer draws on the allowance. -/
lemma draws_of_transferFrom (moved : t.transferFrom spender payer recipient value = some t') :
    Draws payer spender value.toNat t t' := by
  obtain ⟨t₁, spent, transferred⟩ := Option.bind_eq_some_iff.1 moved
  have draws := draws_of_spendAllowance spent
  have same := allowances_of_transferInternal transferred
  constructor
  · rw [same]
    exact draws.endless
  · rw [same]
    exact draws.drawn

end Token

/-! ## Calls of the vault -/

namespace SettlementVault
open Evm

variable {oz : OpenZeppelin} {keccak256 : List Word → Word} {recover : Recover} {self : Address} {now : Nat}
  {v : Storage oz} {ts ts' : Tokens} {sender token recipient : Address}
  {payoutRef batchId batchRef amount : Word} {metadata : Bytes} {α : Type}

/-- What is left once some value has been paid with a token: the funder is the same, and the value has been
    taken from its allowance. -/
structure Paid (vault token : Address) (v : Storage oz) (ts : Tokens) (value : Nat) (v' : Storage oz)
    (ts' : Tokens) : Prop where
  funder : v'.funder = v.funder
  draws : Token.Draws v.funder vault value (ts token) (ts' token)

/-- A leg that is paid has been covered. -/
lemma returns_execute :
    (execute keccak256 batchId payoutRef token recipient amount metadata).Returns (A := abi oz)
      (standardTokens recover self now) v ts fun _ v' ts' => Paid self token v ts amount.toNat v' ts' := by
  refine Code.returns_bind (Code.returns_require fun _ => ?_)
  refine Code.returns_bind (Code.returns_require fun _ => ?_)
  refine Code.returns_bind (Code.returns_require fun _ => ?_)
  refine Code.returns_read_bind (Code.returns_bind (Code.returns_require fun _ => ?_))
  refine Code.returns_modify_bind (Code.returns_read_bind (Code.returns_bind ?_))
  refine Code.returns_request_bind (Code.returns_inherit fun _ checked => ?_)
  have successful := oz.successful_of_checkAnswer checked
  refine Code.returns_log_bind (Code.returns_pure ⟨rfl, ?_⟩)
  change Token.Draws v.funder self amount.toNat (ts token)
    ((ts.put token (.word 1) ((ts token).transferFrom self v.funder recipient amount)).2 token)
  change Successful
    (ts.put token (.word 1) ((ts token).transferFrom self v.funder recipient amount)).1 at successful
  cases moved : (ts token).transferFrom self v.funder recipient amount with
  | none =>
    rw [moved] at successful
    rcases successful with none' | none' <;> cases none'
  | some t =>
    change Token.Draws _ _ _ _ (Function.update ts token t token)
    rw [Function.update_self]
    exact Token.draws_of_transferFrom moved

/-- The legs that are paid have been covered together, and their total is counted. -/
lemma returns_payLegs {legs : List (Address × Word)} {i : Nat} {total : Word} :
    (payLegs keccak256 batchId batchRef token metadata i legs total).Returns (A := abi oz)
      (standardTokens recover self now) v ts fun total' v' ts' =>
        total'.toNat = total.toNat + (legs.map fun leg => leg.2.toNat).sum ∧
          Paid self token v ts (legs.map fun leg => leg.2.toNat).sum v' ts' := by
  induction legs generalizing i total v ts with
  | nil => exact Code.returns_pure ⟨rfl, rfl, .refl⟩
  | cons leg legs ih =>
    refine Code.returns_bind (Code.returns_mono (fun _ v₁ ts₁ paid => ?_) returns_execute)
    refine Code.returns_bind (Code.returns_bind (Code.returns_require fun fits => Code.returns_pure ?_))
    refine Code.returns_mono (fun total' v' ts' rest => ?_) ih
    obtain ⟨counted, rest⟩ := rest
    have added : (total + leg.2).toNat = total.toNat + leg.2.toNat := by
      rw [BitVec.toNat_add, Nat.mod_eq_of_lt fits]
    rw [List.map_cons, List.sum_cons]
    refine ⟨by omega, rest.funder.trans paid.funder, ?_⟩
    have draws := rest.draws
    rw [paid.funder] at draws
    exact paid.draws.trans draws

/-- The modifiers of a paying function. -/
lemma returns_guarded {body : Fn oz Word} {P : Prop}
    (pays : ∀ v' : Storage oz, v'.funder = v.funder →
      body.Returns (A := abi oz) (standardTokens recover self now) v' ts fun _ _ _ => P) :
    (onlyOperator sender >>= fun _ =>
      inherits.nonReentrant (inherits.whenNotPaused >>= fun _ => body)).Returns (A := abi oz)
        (standardTokens recover self now) v ts fun _ _ _ => P := by
  refine Code.returns_bind (Code.returns_read_bind (Code.returns_require fun _ => ?_))
  refine Code.returns_read_bind (Code.returns_bind (Code.returns_inherit fun base _ => ?_))
  refine Code.returns_modify_bind (Code.returns_bind (Code.returns_bind ?_))
  refine Code.returns_read_bind (Code.returns_inherit fun _ _ => ?_)
  refine Code.returns_mono (fun _ _ _ holds => ?_) (pays _ rfl)
  exact Code.returns_modify_bind (Code.returns_pure holds)

/-- What has been paid was covered by the allowance of the funder. -/
lemma Paid.covered {v' : Storage oz} {n : Nat} (paid : Paid self token v ts n v' ts') (fits : n < 2 ^ 256) :
    n ≤ ((ts token).allowances v.funder self).toNat := by
  by_cases endless : (ts token).allowances v.funder self = Token.infinite
  · rw [endless]
    simp only [Token.infinite, BitVec.toNat_allOnes]
    omega
  · have drawn := paid.draws.drawn endless
    omega

/-- A payout that returns was covered by the allowance of the funder. -/
theorem allowance_of_payout {m : Msg (abi oz)} {s : Account (abi oz)}
    (call : m.call = .payout payoutRef token recipient amount metadata)
    (returned : (invoke (contract keccak256) (passive (standardTokens recover self m.time)) m (s, ts)).1 =
      .ok ()) : amount.toNat ≤ ((ts token).allowances s.storage.funder self).toNat := by
  have pays : (contract keccak256 m).Returns (A := abi oz) (standardTokens recover self m.time) s.storage ts
      fun _ _ _ => amount.toNat ≤ ((ts token).allowances s.storage.funder self).toNat := by
    unfold contract
    rw [call]
    refine Code.returns_bind (Code.returns_mono (fun _ _ _ covered => Code.returns_pure covered) ?_)
    refine returns_guarded fun v' funder => ?_
    refine Code.returns_read_bind (Code.returns_bind (Code.returns_require fun _ => ?_))
    refine Code.returns_mono (fun _ _ _ paid => ?_) returns_execute
    rw [← funder]
    exact paid.covered amount.isLt
  exact pays () (invoke_returned returned)

/-- A batch that returns was covered by the allowance of the funder. -/
theorem allowance_of_payoutBatch {m : Msg (abi oz)} {s : Account (abi oz)} {recipients : List Address}
    {amounts : List Word} (call : m.call = .payoutBatch batchRef token recipients amounts metadata)
    (returned : (invoke (contract keccak256) (passive (standardTokens recover self m.time)) m (s, ts)).1 =
      .ok ()) :
    (amounts.map BitVec.toNat).sum ≤ ((ts token).allowances s.storage.funder self).toNat := by
  have pays : (contract keccak256 m).Returns (A := abi oz) (standardTokens recover self m.time) s.storage ts
      fun _ _ _ => (amounts.map BitVec.toNat).sum ≤ ((ts token).allowances s.storage.funder self).toNat := by
    unfold contract
    rw [call]
    refine Code.returns_bind (Code.returns_mono (fun _ _ _ covered => Code.returns_pure covered) ?_)
    refine returns_guarded fun v' funder => ?_
    refine Code.returns_bind (Code.returns_require fun _ => Code.returns_read_bind ?_)
    refine Code.returns_bind (Code.returns_require fun _ => ?_)
    refine Code.returns_bind (Code.returns_require fun same => ?_)
    refine Code.returns_bind (Code.returns_require fun _ => ?_)
    refine Code.returns_bind (Code.returns_require fun _ => Code.returns_read_bind ?_)
    refine Code.returns_bind (Code.returns_require fun _ => Code.returns_modify_bind ?_)
    refine Code.returns_bind (Code.returns_mono (fun total v' ts' paid => ?_) returns_payLegs)
    obtain ⟨counted, paid⟩ := paid
    refine Code.returns_log_bind (Code.returns_pure ?_)
    have legs : ((recipients.zip amounts).map fun leg => leg.2.toNat) = amounts.map BitVec.toNat := by
      conv_rhs => rw [← List.map_snd_zip (le_of_eq same.symm)]
      rw [List.map_map]
      rfl
    rw [legs] at counted paid
    have fits : (amounts.map BitVec.toNat).sum < 2 ^ 256 := by
      have bound := total.isLt
      have zero : (0 : Word).toNat = 0 := rfl
      omega
    rw [← funder]
    exact paid.covered fits
  exact pays () (invoke_returned returned)

end SettlementVault

end AvaSettle.Contracts
