import AvaSettle.Contracts.PaymentRouterRuns

/-!
# Invoices that expire

The id of an invoice with a deadline is the hash of four words, the last of which is the deadline. It is
marked paid by a call with that deadline only, and such a call checks the time of its block first.
-/

namespace AvaSettle.Contracts.PaymentRouter
open Evm

variable {oz : OpenZeppelin} {keccak256 : List Word → Word} {self : Address}

/-! ## Calls in time -/

/-- The call is not too late for its deadline, if it has one. -/
def InTime (f : Frame (abi oz)) : Prop :=
  ∀ invoiceRef token amount deadline metadata,
    f.call = .payInvoiceWithExpiry invoiceRef token amount deadline metadata →
      deadline ≠ 0 → f.time ≤ deadline.toNat

/-- The calls that have returned were in time. -/
def Punctual (j : List (Record (abi oz))) : Prop :=
  ∀ f, (⟨f, .returned⟩ : Record (abi oz)) ∈ j → InTime f

/-- The calls that return are in time. -/
def Expires (s s' : Account (abi oz)) : Prop := Punctual s.journal → Punctual s'.journal

section
variable {s s' : Account (abi oz)} {f : Frame (abi oz)} {α : Type}

/-- Nothing is paid late when nothing happens. -/
lemma Expires.refl : Expires s s := id

/-- What pays nothing late twice pays nothing late. -/
lemma Expires.trans {s₁ s₂ s₃ : Account (abi oz)} (h₁ : Expires s₁ s₂) (h₂ : Expires s₂ s₃) :
    Expires s₁ s₃ := fun punctual => h₂ (h₁ punctual)

/-- A call that returns in time is noted. -/
lemma Expires.note {item : Item (abi oz)} (inTime : item = .returned → InTime f) :
    Expires s (s.note f item) := by
  intro punctual g mem
  rcases List.mem_append.1 mem with mem | mem
  · exact punctual g mem
  · cases List.mem_singleton.1 mem
    exact inTime rfl

/-- While a call is in progress, nothing of it has returned. -/
lemma wp_expires {c : Fn oz α} : c.wp Expires f (fun _ s' => Expires s s') s := by
  induction c generalizing s with
  | done a => exact .refl
  | revert e => exact .refl
  | get k ih => exact ih _
  | set v k ih => exact ih (s := { s with storage := v })
  | emit e k ih =>
    have noted : Expires s (s.note f (.event e)) := .note nofun
    exact Code.wp_mono (fun _ _ post => noted.trans post) ih
  | ask r k ih =>
    intro a s' called
    have noted : Expires s' (s'.note f (.asked r a s.storage)) := .note nofun
    exact Code.wp_mono (fun _ _ post => called.trans (noted.trans post)) (ih a)

/-- A payment with a deadline returns in time only. -/
lemma wp_payInvoiceWithExpiry_inTime {sender : Address} {now : Nat} {invoiceRef : Word}
    {token : Address} {amount deadline : Word} {metadata : Bytes} :
    (payInvoiceWithExpiry keccak256 sender now invoiceRef token amount deadline metadata).wp Expires f
      (fun r _ => ∀ id, r = .ok id → deadline ≠ 0 → now ≤ deadline.toNat) s := by
  refine Code.wp_read_bind.2 (Code.wp_inherit_bind.2 ⟨fun b _ => ?_, fun _ _ => nofun⟩)
  refine Code.wp_modify_bind.2 (Code.wp_bind (Code.wp_mono (fun r s' inTime => ?_) (Code.wp_bind
    (Q := fun r _ => ∀ id, r = .ok id → deadline ≠ 0 → now ≤ deadline.toNat) ?_)))
  · cases r with
    | error e => exact nofun
    | ok id => exact fun _ _ => inTime id rfl
  refine Code.wp_read_bind.2 (Code.wp_inherit.2 ⟨fun _ _ => ?_, fun _ _ => nofun⟩)
  refine Code.wp_require_bind.2 ⟨fun early => ?_, fun _ => nofun⟩
  refine Code.wp_trivial fun _ _ _ _ nonzero => ?_
  by_contra late
  exact early ⟨nonzero, not_le.1 late⟩

/-- Every call of the router that returns is in time. -/
theorem expires_guarantee : Guarantee (contract keccak256 self : Contract (abi oz)) Expires where
  refl _ := .refl
  trans := .trans
  call m s := by
    have inTime : (contract keccak256 self m).wp Expires (m.frame s)
        (fun r _ => r = .ok () → InTime (m.frame s)) (s.note (m.frame s) .entered) := by
      unfold contract
      split
      case h_9 invoiceRef token amount deadline metadata eq =>
        refine Code.wp_bind (Code.wp_mono (fun r s' inTime => ?_) wp_payInvoiceWithExpiry_inTime)
        cases r with
        | error e => exact nofun
        | ok id =>
          intro _ invoiceRef' token' amount' deadline' metadata' call
          obtain ⟨-, -, -, rfl, -⟩ : _ ∧ _ ∧ _ ∧ deadline = deadline' ∧ _ := by
            have same := eq.symm.trans call
            simpa using same
          exact inTime id rfl
      all_goals
        rename_i eq
        refine Code.wp_trivial fun _ _ _ _ _ _ _ _ call => ?_
        cases eq.symm.trans call
    refine Code.wp_mono (fun r s' post ok => ?_) (Code.wp_and inTime wp_expires)
    have begun : Expires s (s.note (m.frame s) .entered) := .note nofun
    exact begun.trans (post.2.trans (.note fun _ => post.1 ok))

end

/-! ## The flag that a payment sets -/

/-- Of all flags, a payment sets the one of its invoice. -/
def Marks (s : Account (abi oz)) (id : Word) {α : Type} (r : Except (Error oz) α)
    (s' : Account (abi oz)) : Prop :=
  ∀ a, r = .ok a → s'.storage.invoicePaid = Function.update s.storage.invoicePaid id true

section
variable {s : Account (abi oz)} {f : Frame (abi oz)} {sender : Address} {invoiceRef id : Word}
  {token : Address} {amount : Word} {metadata : Bytes}

/-- `settle` marks its invoice only. -/
lemma wp_settle_marks (entered : inherits.Entered s) :
    (settle sender id invoiceRef token amount metadata).wp (Guards keccak256) f (Marks s id) s := by
  unfold settle
  refine Code.wp_require_bind.2 ⟨fun _ => ?_, fun _ => nofun⟩
  refine Code.wp_require_bind.2 ⟨fun _ => ?_, fun _ => nofun⟩
  refine Code.wp_read_bind.2 (Code.wp_require_bind.2 ⟨fun _ => ?_, fun _ => nofun⟩)
  refine Code.wp_require_bind.2 ⟨fun _ => ?_, fun _ => nofun⟩
  refine Code.wp_read_bind.2 (Code.wp_require_bind.2 ⟨fun _ => ?_, fun _ => nofun⟩)
  refine Code.wp_read_bind.2 (Code.wp_require_bind.2 ⟨fun _ => ?_, fun _ => nofun⟩)
  refine Code.wp_modify_bind.2 (Code.wp_read_bind.2 (Code.wp_bind ?_))
  refine Code.wp_request_bind.2 fun answer s' called => ?_
  refine Code.wp_inherit.2 ⟨fun _ _ => ?_, fun _ _ => nofun⟩
  -- what the token calls back leaves the flags alone
  have flags : s'.storage.invoicePaid = Function.update s.storage.invoicePaid id true :=
    (called.within entered).2.flags
  exact fun _ _ => flags

/-- The body of a guarded function sets what the function sets. -/
lemma wp_nonReentrant_marks {body : Fn oz Word}
    (wp : ∀ b, inherits.Entered (inherits.rebase s b) →
      body.wp (Guards keccak256) f (Marks s id) (inherits.rebase s b)) :
    (inherits.nonReentrant body).wp (Guards keccak256) f (Marks s id) s := by
  refine Code.wp_read_bind.2 (Code.wp_inherit_bind.2 ⟨fun b before => ?_, fun _ _ => nofun⟩)
  have body := wp b (inherits.entered_rebase.2 (oz.entered_before before).2)
  refine Code.wp_modify_bind.2 (Code.wp_bind (Code.wp_mono (fun r s' marks => ?_) body))
  cases r with
  | error e => exact nofun
  | ok a => exact fun _ _ => marks a rfl

/-- `payInvoice` marks its invoice only. -/
lemma wp_payInvoice_marks : (payInvoice keccak256 sender invoiceRef token amount metadata).wp
    (Guards keccak256) f (Marks s (computeInvoiceId keccak256 invoiceRef token amount)) s := by
  refine wp_nonReentrant_marks fun b entered => ?_
  refine Code.wp_bind (Code.wp_read_bind.2 (Code.wp_inherit.2 ⟨fun _ _ => ?_, fun _ _ => nofun⟩))
  exact wp_settle_marks (s := inherits.rebase s b) entered

/-- `payInvoiceWithPermit` marks its invoice only. -/
lemma wp_payInvoiceWithPermit_marks {deadline : Word} {v : UInt8} {r t : Word} :
    (payInvoiceWithPermit keccak256 self sender invoiceRef token amount metadata deadline v r t).wp
      (Guards keccak256) f (Marks s (computeInvoiceId keccak256 invoiceRef token amount)) s := by
  refine wp_nonReentrant_marks fun b entered => ?_
  refine Code.wp_bind (Code.wp_read_bind.2 (Code.wp_inherit.2 ⟨fun _ _ => ?_, fun _ _ => nofun⟩))
  refine Code.wp_request_bind.2 fun answer s' called => ?_
  refine Code.wp_require_bind.2 ⟨fun _ => ?_, fun _ => nofun⟩
  -- neither does the permit
  obtain ⟨entered', same⟩ := called.within entered
  have flags : s'.storage.invoicePaid = s.storage.invoicePaid := same.flags
  refine Code.wp_mono (fun r s'' marks a ok => ?_) (wp_settle_marks
    (s := s'.note f (.asked (.permit token sender self amount deadline v _ t) answer _)) entered')
  rw [← flags]
  exact marks a ok

/-- `payInvoiceWithExpiry` marks its invoice only. -/
lemma wp_payInvoiceWithExpiry_marks {now : Nat} {deadline : Word} :
    (payInvoiceWithExpiry keccak256 sender now invoiceRef token amount deadline metadata).wp
      (Guards keccak256) f
      (Marks s (computeInvoiceIdWithExpiry keccak256 invoiceRef token amount deadline)) s := by
  refine wp_nonReentrant_marks fun b entered => ?_
  refine Code.wp_bind (Code.wp_read_bind.2 (Code.wp_inherit.2 ⟨fun _ _ => ?_, fun _ _ => nofun⟩))
  refine Code.wp_require_bind.2 ⟨fun _ => ?_, fun _ => nofun⟩
  exact wp_settle_marks (s := inherits.rebase s b) entered

/-- Dropping the result of a payment marks what it marks. -/
lemma wp_marks_bind {s' : Account (abi oz)} {c : Fn oz Word}
    (wp : c.wp (Guards keccak256) f (Marks s id) s') :
    (c >>= fun _ => pure ()).wp (Guards keccak256) f (Marks s id) s' := by
  refine Code.wp_bind (Code.wp_mono (fun r s' marks => ?_) wp)
  cases r with
  | error e => exact nofun
  | ok a => exact fun _ _ => marks a rfl

/-- A paying transaction leaves all flags but the one of its invoice. -/
lemma flags_of_pays {t : Transaction (abi oz)} {i : Invoice} (pays : t.call.invoice = some i)
    (other : id ≠ keccak256 i.preimage) :
    (transact (contract keccak256 self) s t).storage.invoicePaid id = s.storage.invoicePaid id := by
  have marks : (contract keccak256 self t.toMsg).wp (Guards keccak256) (t.toMsg.frame s)
      (Marks (s.note (t.toMsg.frame s) .entered) (keccak256 i.preimage))
      (s.note (t.toMsg.frame s) .entered) := by
    unfold contract
    split
    case h_7 r t' a m eq =>
      rw [eq] at pays
      cases pays
      exact wp_marks_bind wp_payInvoice_marks
    case h_8 r t' a m d v r' s' eq =>
      rw [eq] at pays
      cases pays
      exact wp_marks_bind wp_payInvoiceWithPermit_marks
    case h_9 r t' a d m eq =>
      rw [eq] at pays
      cases pays
      exact wp_marks_bind wp_payInvoiceWithExpiry_marks
    all_goals
      rename_i eq
      rw [eq] at pays
      cases pays
  refine guarantee.storage (P := fun v => v.invoicePaid id = s.storage.invoicePaid id)
    (Code.wp_mono (fun r s' marks => ?_) marks)
  cases r with
  | error e => rfl
  | ok u =>
    change s'.storage.invoicePaid id = _
    rw [marks u rfl, Function.update_of_ne other]
    rfl

end

/-! ## Every run -/

/-- The call pays an invoice with a deadline. -/
def Call.paysWithExpiry (invoiceRef : Word) (token : Address) (amount deadline : Word) :
    Call oz → Bool
  | .payInvoiceWithExpiry r t a d _ => r = invoiceRef ∧ t = token ∧ a = amount ∧ d = deadline
  | _ => false

section
variable {invoiceRef : Word} {token : Address} {amount deadline : Word} {c : Call oz} {i : Invoice}

/-- A payment with a deadline is told by what it hashes. -/
lemma paysWithExpiry_iff (invoice : c.invoice = some i) :
    c.paysWithExpiry invoiceRef token amount deadline = true ↔
      i.preimage = [invoiceRef, token.word, amount, deadline] := by
  cases c with
  | payInvoiceWithExpiry r t a d m =>
    cases invoice
    simp [Call.paysWithExpiry, Address.word_injective.eq_iff]
  | payInvoice r t a m =>
    cases invoice
    simp [Call.paysWithExpiry, exactInvoice]
  | payInvoiceWithPermit r t a m d v r' s' =>
    cases invoice
    simp [Call.paysWithExpiry, exactInvoice]
  | _ => cases invoice

/-- A payment with a deadline is in time, where it is one that has to be. -/
lemma InTime.le {f : Frame (abi oz)} (inTime : InTime f) (nonzero : deadline ≠ 0)
    (pays : f.call.paysWithExpiry invoiceRef token amount deadline = true) :
    f.time ≤ deadline.toNat := by
  cases call : f.call with
  | payInvoiceWithExpiry r t a d m =>
    rw [call] at pays
    obtain ⟨-, -, -, rfl⟩ := of_decide_eq_true pays
    exact inTime r t a _ m call nonzero
  | _ =>
    rw [call] at pays
    cases pays

/-- The id of an invoice with a deadline is marked exactly when a call with that deadline has paid it,
    and every call that has was in time. In a transaction the id becomes marked only by its deadline,
    and never by a paying transaction for any other invoice, or without the deadline. -/
theorem paid_in_time {initialOwner initialTreasury : Address} {s₀ s : Account (abi oz)}
    {ts : List (Transaction (abi oz))} {t : Transaction (abi oz)}
    (init : construct oz initialOwner initialTreasury = .ok s₀)
    (ran : run (contract keccak256 self) s₀ ts = s) (nonzero : deadline ≠ 0)
    (collisionFree : CollisionFree keccak256 [invoiceRef, token.word, amount, deadline]
      (transact (contract keccak256 self) s t).journal) :
    let id := computeInvoiceIdWithExpiry keccak256 invoiceRef token amount deadline
    let s' := transact (contract keccak256 self) s t
    (s.storage.invoicePaid id = false → s'.storage.invoicePaid id = true →
      t.time ≤ deadline.toNat ∧ (t.call.invoice ≠ none →
        t.call.paysWithExpiry invoiceRef token amount deadline = true)) ∧
      (s'.storage.invoicePaid id = true ↔ ∃ p ∈ settlements s'.journal,
        p.1.call.paysWithExpiry invoiceRef token amount deadline = true) ∧
        ∀ p ∈ settlements s'.journal, keccak256 p.2.preimage = id →
          p.1.call.paysWithExpiry invoiceRef token amount deadline = true ∧
            p.1.time ≤ deadline.toNat := by
  intro id s'
  subst ran
  have all : run (contract keccak256 self) s₀ (ts ++ [t]) = s' := List.foldl_concat ..
  obtain ⟨free, (books₀ : Books keccak256 s₀), new⟩ := books_construct init
  have books : Books keccak256 (run (contract keccak256 self) s₀ ts) :=
    ((guarantee.run s₀ ts).outside free books₀).2
  have books' : Books keccak256 s' := all ▸ ((guarantee.run s₀ (ts ++ [t])).outside free books₀).2
  have punctual : Punctual s'.journal :=
    all ▸ expires_guarantee.run s₀ (ts ++ [t]) fun f mem => by simp [new] at mem
  have exact {p : Frame (abi oz) × Invoice} (mem : p ∈ settlements s'.journal)
      (eq : keccak256 p.2.preimage = id) :
      p.1.call.paysWithExpiry invoiceRef token amount deadline = true :=
    (paysWithExpiry_iff (record_of_settlement mem).2).2 (collisionFree p mem eq)
  have inTime {p : Frame (abi oz) × Invoice} (mem : p ∈ settlements s'.journal)
      (pays : p.1.call.paysWithExpiry invoiceRef token amount deadline = true) :
      p.1.time ≤ deadline.toNat :=
    (punctual p.1 (record_of_settlement mem).1).le nonzero pays
  refine ⟨fun unpaid paid => ⟨?_, fun paying => ?_⟩, ?_, fun p mem eq => ?_⟩
  · obtain ⟨p, mem, eq⟩ := List.mem_map.1 ((books'.flags id).1 paid)
    obtain ⟨noted, invoice⟩ := record_of_settlement mem
    rcases (stamps_guarantee (contract keccak256 self) t.time).transact _ _ noted with before | now
    · -- a call that had returned before would have marked the id before
      have marked := (books.flags id).2 (List.mem_map.2 ⟨p, settlement_of_record before invoice, eq⟩)
      exact absurd (unpaid.symm.trans marked) nofun
    · exact now ▸ inTime mem (exact mem eq)
  · obtain ⟨i, invoice⟩ := Option.ne_none_iff_exists'.1 paying
    by_cases own : id = keccak256 i.preimage
    · rcases returned_of_transact (contract keccak256 self)
        (run (contract keccak256 self) s₀ ts) t with same | returned
      · rw [show s' = _ from same] at paid
        exact absurd (unpaid.symm.trans paid) nofun
      · exact exact (settlement_of_record returned invoice) own.symm
    · exact absurd (unpaid.symm.trans ((flags_of_pays invoice own).symm.trans paid)) nofun
  · rw [books'.flags, paidIds]
    constructor
    · intro marked
      obtain ⟨p, mem, eq⟩ := List.mem_map.1 marked
      exact ⟨p, mem, exact mem eq⟩
    · rintro ⟨p, mem, pays⟩
      have preimage := (paysWithExpiry_iff (record_of_settlement mem).2).1 pays
      exact List.mem_map.2 ⟨p, mem, congrArg keccak256 preimage⟩
  · exact ⟨exact mem eq, inTime mem (exact mem eq)⟩

end

/-! ## A concrete run -/

/-- The hash of the invoice of the concrete run, which expires at time 7. -/
def expiryHash (preimage : List Word) : Word :=
  if preimage = [1, 4, 1000000, 7] then
    0xb146faad010551977f46188bbb23db3fa89416115e3388b4f5576cbaa149d7c8
  else 0

/-- The owner supports token 4. -/
def openingTransactions : List (Transaction (abi .standard)) :=
  [⟨⟨1, 0, .setTokenSupported 4 true 0⟩, 1, []⟩]

/-- Account 3 pays at the last second. -/
def lastSecond : Transaction (abi .standard) :=
  ⟨⟨3, 7, .payInvoiceWithExpiry 1 4 1000000 7 []⟩, 2, [.handles [] (some (.word 1))]⟩

/-- A payment at the last second. -/
theorem paid_in_time_of_lastSecond :
    let s := run (contract expiryHash 9) sampleRouter openingTransactions
    let s' := transact (contract expiryHash 9) s lastSecond
    let id := computeInvoiceIdWithExpiry expiryHash 1 4 1000000 7
    s.storage.invoicePaid id = false ∧ s'.storage.invoicePaid id = true ∧
      lastSecond.time ≤ (7 : Word).toNat ∧ ∃ p ∈ settlements s'.journal,
        p.1.call.paysWithExpiry 1 4 1000000 7 = true := by
  have init : construct .standard 1 2 = .ok sampleRouter := rfl
  have collisionFree : CollisionFree expiryHash [1, Address.word 4, 1000000, 7]
      (transact (contract expiryHash 9)
        (run (contract expiryHash 9) sampleRouter openingTransactions) lastSecond).journal := by
    unfold CollisionFree
    decide
  obtain ⟨first, iff, -⟩ := paid_in_time init rfl (by decide) collisionFree
  have marked : (transact (contract expiryHash 9) (run (contract expiryHash 9) sampleRouter
      openingTransactions) lastSecond).storage.invoicePaid
        (computeInvoiceIdWithExpiry expiryHash 1 4 1000000 7) = true := by decide
  exact ⟨by decide, marked, (first (by decide) marked).1, iff.1 marked⟩

end AvaSettle.Contracts.PaymentRouter
