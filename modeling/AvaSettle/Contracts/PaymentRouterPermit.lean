import AvaSettle.Contracts.Erc20
import AvaSettle.Contracts.PaymentRouter

/-!
# Payments with a permit

What a payment with a permit comes to, with standard tokens: to the payment alone, once the permit has
been tried. A permit that somebody has submitted before has been used up, but has left the allowance that
the payment needs.
-/

namespace AvaSettle.Contracts.PaymentRouter
open Evm

variable {oz : OpenZeppelin} {keccak256 : List Word → Word} {recover : Recover} {self : Address}
  {now : Nat}

/-! ## The two functions -/

/-- The arguments of a payment with a permit, with the payer. -/
structure PermitPayment where
  payer : Address
  invoiceRef : Word
  token : Address
  amount : Word
  metadata : Bytes
  deadline : Word
  signature : Signature

/-- The message that calls `payInvoiceWithPermit`. -/
def PermitPayment.withPermit (p : PermitPayment) (now : Nat) : Msg (abi oz) :=
  ⟨p.payer, now, .payInvoiceWithPermit p.invoiceRef p.token p.amount p.metadata p.deadline
    p.signature.v p.signature.r p.signature.s⟩

/-- The message that calls `payInvoice` with the same arguments. -/
def PermitPayment.alone (p : PermitPayment) (now : Nat) : Msg (abi oz) :=
  ⟨p.payer, now, .payInvoice p.invoiceRef p.token p.amount p.metadata⟩

/-- The token after the permit, if it is valid. -/
def PermitPayment.permit (p : PermitPayment) (recover : Recover) (self : Address) (now : Nat)
    (ts : Tokens) : Option Token :=
  (ts p.token).permit recover p.token now p.payer self p.amount p.deadline p.signature

/-- The tokens after the permit has been tried. -/
def PermitPayment.attempted (p : PermitPayment) (recover : Recover) (self : Address) (now : Nat)
    (ts : Tokens) : Tokens :=
  match p.permit recover self now ts with
  | some t => Function.update ts p.token t
  | none => ts

/-- The tokens after somebody has submitted the permit. -/
def PermitPayment.submitted (p : PermitPayment) (recover : Recover) (self : Address) (now : Nat)
    (ts : Tokens) (other : Address) : Tokens :=
  (standardTokens recover other now (.permit p.token p.payer self p.amount p.deadline p.signature.v
    p.signature.r p.signature.s) ts).2

/-! ## Trying the permit first -/

section
variable {p : PermitPayment} {ts : Tokens} {v : Storage oz}

/-- Guarded bodies that agree once the guard is taken. -/
lemma agrees_nonReentrant {α θ : Type} {answer : TokenCall → θ → Option TokenAnswer × θ}
    {body body' : Fn oz α} {t t' : θ}
    (agrees : ∀ v, (body.play answer v t).Agrees (body'.play answer v t')) :
    ((inherits.nonReentrant body).play answer v t).Agrees
      ((inherits.nonReentrant body').play answer v t') := by
  unfold Inheritance.nonReentrant
  rw [Code.play_read_bind, Code.play_read_bind]
  cases oz.nonReentrantBefore (inherits.base v) with
  | error e => exact ⟨rfl, nofun⟩
  | ok b =>
    rw [Code.inherit_ok_bind, Code.inherit_ok_bind, Code.play_modify_bind, Code.play_modify_bind,
      Code.play_bind, Code.play_bind]
    exact (agrees _).then

/-- What the permit answers, and leaves. -/
lemma standardTokens_permit : standardTokens recover self now (.permit p.token p.payer self p.amount
    p.deadline p.signature.v p.signature.r p.signature.s) ts =
      ((p.permit recover self now ts).map fun _ => .noData, p.attempted recover self now ts) := by
  change ts.put p.token .noData (p.permit recover self now ts) = _
  unfold PermitPayment.attempted
  cases p.permit recover self now ts <;> rfl

/-- The payment with the permit is the payment after the permit has been tried. -/
lemma agrees_withPermit :
    ((contract keccak256 self (p.withPermit now)).play (standardTokens recover self now) v ts).Agrees
      ((contract keccak256 self (p.alone now)).play (standardTokens recover self now) v
        (p.attempted recover self now ts)) := by
  change ((payInvoiceWithPermit keccak256 self p.payer p.invoiceRef p.token p.amount p.metadata p.deadline
    p.signature.v p.signature.r p.signature.s >>= _).play _ v ts).Agrees
      ((payInvoice keccak256 p.payer p.invoiceRef p.token p.amount p.metadata >>= _).play _ v _)
  rw [Code.play_bind, Code.play_bind]
  refine (agrees_nonReentrant fun v => ?_).then
  unfold Inheritance.whenNotPaused
  rw [Code.read_bind_bind, Code.read_bind_bind, Code.play_read_bind, Code.play_read_bind]
  cases oz.requireNotPaused (inherits.base v) with
  | error e => exact ⟨rfl, nofun⟩
  | ok u =>
    rw [Code.inherit_ok_bind, Code.inherit_ok_bind, Code.play_request_bind, standardTokens_permit,
      Code.require_pos_bind (by cases p.permit recover self now ts <;> simp)]
    exact Play.agrees_after

/-! ## A permit that has been submitted before -/

/-- A permit that is taken changes the token. -/
lemma attempted_of_some {t : Token} (valid : p.permit recover self now ts = some t) :
    p.attempted recover self now ts = Function.update ts p.token t := by
  rw [PermitPayment.attempted, valid]

/-- Who submits the permit, and when, makes no difference as long as it is in time. -/
lemma submitted_eq {earlier : Nat} {other : Address} {t : Token} (le : earlier ≤ now)
    (valid : p.permit recover self now ts = some t) :
    p.submitted recover self earlier ts other = Function.update ts p.token t := by
  obtain ⟨inTime, signed, approved⟩ := Token.permit_eq_some.1 valid
  have accepted : (ts p.token).permit recover p.token earlier p.payer self p.amount p.deadline
      p.signature = some t := Token.permit_eq_some.2 ⟨le.trans inTime, signed, approved⟩
  change (ts.put p.token .noData ((ts p.token).permit recover p.token earlier p.payer self p.amount
    p.deadline p.signature)).2 = _
  rw [accepted]
  rfl

/-- A permit that has been accepted is not accepted again, unless the signature is one for the next
    message too. -/
lemma permit_submitted {t : Token} (valid : p.permit recover self now ts = some t)
    (once : recover ⟨p.token, p.payer, self, p.amount, (ts p.token).nonces p.payer + 1, p.deadline⟩
      p.signature ≠ some p.payer) :
    p.permit recover self now (Function.update ts p.token t) = none := by
  obtain ⟨-, -, approved⟩ := Token.permit_eq_some.1 valid
  obtain ⟨-, -, rfl⟩ := Token.of_approve approved
  refine Option.eq_none_iff_forall_ne_some.2 fun t' again => once ?_
  obtain ⟨-, signed, -⟩ := Token.permit_eq_some.1 again
  simpa using signed

/-- A permit moves no money. -/
lemma balances_of_permit {t : Token} (valid : p.permit recover self now ts = some t) :
    t.balances = (ts p.token).balances := by
  obtain ⟨-, -, approved⟩ := Token.permit_eq_some.1 valid
  obtain ⟨-, -, rfl⟩ := Token.of_approve approved
  rfl

end

/-! ## Every payment -/

/-- A payment with a permit comes to the payment alone, once the permit has been tried. A permit that
    is valid may have been submitted by anybody before: the payment succeeds or fails all the same, and
    where it succeeds it leaves the same. Where it fails, it moves nothing and leaves the permit to
    whoever has submitted it. -/
theorem permit_payment (p : PermitPayment) (s : Account (abi oz)) (ts : Tokens) :
    let pay := fun m ts =>
      invoke (contract keccak256 self) (passive (standardTokens recover self now)) m (s, ts)
    Coincide (pay (p.withPermit now) ts) (pay (p.alone now) (p.attempted recover self now ts)) ∧
      ∀ t, p.permit recover self now ts = some t →
        recover ⟨p.token, p.payer, self, p.amount, (ts p.token).nonces p.payer + 1, p.deadline⟩
          p.signature ≠ some p.payer →
        ∀ earlier ≤ now, ∀ other, let ts' := p.submitted recover self earlier ts other
          Coincide (pay (p.withPermit now) ts) (pay (p.withPermit now) ts') ∧
            ∀ e, (pay (p.withPermit now) ts).1 = .error e →
              (pay (p.withPermit now) ts).2 = (s, ts) ∧ (pay (p.withPermit now) ts').2 = (s, ts') ∧
                ∀ token, (ts' token).balances = (ts token).balances := by
  intro pay
  have first (ts : Tokens) : Coincide (pay (p.withPermit now) ts)
      (pay (p.alone now) (p.attempted recover self now ts)) := coincide_of_agrees agrees_withPermit
  refine ⟨first ts, fun t valid once earlier le other => ?_⟩
  intro ts'
  have before : ts' = Function.update ts p.token t := submitted_eq le valid
  have used : p.permit recover self now ts' = none := before ▸ permit_submitted valid once
  have same : Coincide (pay (p.withPermit now) ts) (pay (p.withPermit now) ts') := by
    have direct : p.attempted recover self now ts = ts' := (attempted_of_some valid).trans before.symm
    have again : p.attempted recover self now ts' = ts' := by rw [PermitPayment.attempted, used]
    refine coincide_of_agrees (agrees_withPermit.trans ?_)
    have second : ((contract keccak256 self (p.withPermit now)).play
        (standardTokens recover self now) s.storage ts').Agrees
          ((contract keccak256 self (p.alone now)).play (standardTokens recover self now) s.storage
            (p.attempted recover self now ts')) := agrees_withPermit
    rw [again] at second
    rw [direct]
    exact second.symm
  refine ⟨same, fun e failed => ⟨invoke_error failed, ?_, fun token => ?_⟩⟩
  · exact invoke_error (same.result.symm.trans failed)
  · rw [before]
    by_cases own : token = p.token
    · subst own
      rw [Function.update_self, balances_of_permit valid]
    · rw [Function.update_of_ne own]

/-! ## Concrete payments -/

/-- A router that supports every token. -/
def openRouter : Account (abi .standard) :=
  ⟨⟨⟨1, 0, false, false⟩, 2, fun _ => true, fun _ => 0, fun _ => false⟩, []⟩

/-- Tokens of which everybody holds an amount, with no allowances. -/
def tokensOf (amount : Word) : Tokens := fun _ => ⟨fun _ => amount, fun _ _ => 0, fun _ => 0⟩

/-- Account 3 has signed for its first nonce. -/
def firstNonce : Recover := fun m _ => if m.nonce = 0 then some 3 else none

/-- Account 3 pays one token unit with its permit, which expires at time 5. -/
def samplePermit : PermitPayment := ⟨3, 1, 4, 1000000, [], 5, ⟨27, 0, 0⟩⟩

/-- The payment. -/
def payWith (ts : Tokens) :
    Except (Error .standard) Unit × Account (abi .standard) × Tokens :=
  invoke (contract (fun _ => 0) 9) (passive (standardTokens firstNonce 9 5)) (samplePermit.withPermit 5)
    (openRouter, ts)

/-- The permit has been submitted by account 7 before. -/
def afterSubmission (ts : Tokens) : Tokens := samplePermit.submitted firstNonce 9 4 ts 7

/-- A payment succeeds after its permit has been submitted, and comes to what it would have been. -/
theorem permit_payment_of_submitted :
    (payWith (afterSubmission (tokensOf 1000000))).1 = .ok () ∧
      Coincide (A := abi .standard) (payWith (tokensOf 1000000))
        (payWith (afterSubmission (tokensOf 1000000))) := by
  obtain ⟨t, valid⟩ : ∃ t, samplePermit.permit firstNonce 9 5 (tokensOf 1000000) = some t := ⟨_, rfl⟩
  have paid : (payWith (afterSubmission (tokensOf 1000000))).1 = .ok () := by rfl
  exact ⟨paid, ((permit_payment samplePermit openRouter (tokensOf 1000000)).2 t valid (by decide) 4
    (by decide) 7).1⟩

/-- A payment that fails for want of money leaves another nonce and another allowance where its permit
    has been submitted before. -/
theorem permit_payment_differs :
    (samplePermit.permit firstNonce 9 5 (tokensOf 0)).isSome = true ∧
      firstNonce ⟨4, 3, 9, 1000000, (tokensOf 0 4).nonces 3 + 1, 5⟩ samplePermit.signature ≠ some 3 ∧
        ((payWith (tokensOf 0)).2.2 4).nonces 3 ≠
          ((payWith (afterSubmission (tokensOf 0))).2.2 4).nonces 3 ∧
        ((payWith (tokensOf 0)).2.2 4).allowances 3 9 ≠
          ((payWith (afterSubmission (tokensOf 0))).2.2 4).allowances 3 9 := by
  decide

end AvaSettle.Contracts.PaymentRouter
