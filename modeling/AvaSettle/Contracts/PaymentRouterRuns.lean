import AvaSettle.Contracts.PaymentRouter
import AvaSettle.Data.Lists

/-!
# Runs of PaymentRouter

Whatever the callers and the tokens do, the invoices that are marked paid are those that a call has
paid: each successful paying call goes with one transfer that a token carried out and with one
`InvoicePaid`, and each id is paid once. An id is a hash of what is paid, so that as long as the hash
does not collide, nothing but the exact payment marks an invoice.
-/

namespace AvaSettle.Contracts.PaymentRouter
open Evm

variable {oz : OpenZeppelin} {keccak256 : List Word → Word} {self : Address}

/-! ## The books -/

/-- The invoice that a call pays. -/
structure Invoice where
  /-- The words that its id is the hash of. -/
  preimage : List Word
  invoiceRef : Word
  token : Address
  amount : Word
  deriving DecidableEq

/-- The invoice with a reference, a token and an amount. -/
def exactInvoice (invoiceRef : Word) (token : Address) (amount : Word) : Invoice :=
  ⟨[invoiceRef, token.word, amount], invoiceRef, token, amount⟩

/-- The invoice that a call pays, if it is one of the paying calls. -/
def Call.invoice : Call oz → Option Invoice
  | .payInvoice invoiceRef token amount _ => some (exactInvoice invoiceRef token amount)
  | .payInvoiceWithPermit invoiceRef token amount _ _ _ _ _ =>
    some (exactInvoice invoiceRef token amount)
  | .payInvoiceWithExpiry invoiceRef token amount deadline _ =>
    some ⟨[invoiceRef, token.word, amount, deadline], invoiceRef, token, amount⟩
  | _ => none

/-- The `InvoicePaid` of a record, with the call that emitted it. -/
def paidOf (r : Record (abi oz)) : Option (Frame (abi oz) × InvoicePaid) :=
  match r.item with
  | .event (.invoicePaid e) => some (r.frame, e)
  | _ => none

/-- The paying call that returned with a record. -/
def settlementOf (r : Record (abi oz)) : Option (Frame (abi oz) × Invoice) :=
  match r.item with
  | .returned => r.frame.call.invoice.map fun i => (r.frame, i)
  | _ => none

/-- The `InvoicePaid` events of the router. -/
def paid (j : List (Record (abi oz))) : List (Frame (abi oz) × InvoicePaid) := j.filterMap paidOf

/-- The paying calls that have succeeded. -/
def settlements (j : List (Record (abi oz))) : List (Frame (abi oz) × Invoice) :=
  j.filterMap settlementOf

/-- The ids of the invoices paid. -/
def paidIds (keccak256 : List Word → Word) (j : List (Record (abi oz))) : List Word :=
  (settlements j).map fun p => keccak256 p.2.preimage

/-- The transfer is that of the paying call: it moves the amount from the caller to the treasury of
    that moment, and the token carried it out. -/
structure Moves (t : Transfer (abi oz)) (p : Frame (abi oz) × Invoice) : Prop where
  frame : t.frame = p.1
  token : t.token = p.2.token
  payer : t.from = p.1.sender
  treasury : t.to = t.storage.treasury
  amount : t.amount = p.2.amount
  successful : Successful t.answer

/-- The event is that of the paying call. -/
structure Announces (keccak256 : List Word → Word) (e : Frame (abi oz) × InvoicePaid)
    (p : Frame (abi oz) × Invoice) : Prop where
  frame : e.1 = p.1
  invoiceId : e.2.invoiceId = keccak256 p.2.preimage
  payer : e.2.payer = p.1.sender
  token : e.2.token = p.2.token
  invoiceRef : e.2.invoiceRef = p.2.invoiceRef
  amount : e.2.amount = p.2.amount

/-- The books of the router. -/
structure Books (keccak256 : List Word → Word) (s : Account (abi oz)) : Prop where
  moved : List.Forall₂ Moves (transfers s.journal) (settlements s.journal)
  announced : List.Forall₂ (Announces keccak256) (paid s.journal) (settlements s.journal)
  flags : ∀ id, s.storage.invoicePaid id = true ↔ id ∈ paidIds keccak256 s.journal
  once : (paidIds keccak256 s.journal).Nodup

/-! ## What the books are not about -/

/-- Nothing that the books are about has changed. -/
structure Same (s s' : Account (abi oz)) : Prop where
  flags : s'.storage.invoicePaid = s.storage.invoicePaid
  asked : transfers s'.journal = transfers s.journal
  events : paid s'.journal = paid s.journal
  settled : settlements s'.journal = settlements s.journal

section
variable {s s₁ s₂ s₃ s' : Account (abi oz)} {f : Frame (abi oz)} {sender : Address}

/-- The books are the same when nothing happens. -/
lemma Same.refl : Same s s := ⟨rfl, rfl, rfl, rfl⟩

/-- Books that are the same twice are the same. -/
lemma Same.trans (h₁ : Same s₁ s₂) (h₂ : Same s₂ s₃) : Same s₁ s₃ where
  flags := h₂.flags.trans h₁.flags
  asked := h₂.asked.trans h₁.asked
  events := h₂.events.trans h₁.events
  settled := h₂.settled.trans h₁.settled

/-- Books stay kept where they are the same. -/
lemma Books.same (books : Books keccak256 s) (same : Same s s') : Books keccak256 s' where
  moved := by
    rw [same.asked, same.settled]
    exact books.moved
  announced := by
    rw [same.events, same.settled]
    exact books.announced
  flags id := by
    rw [same.flags, paidIds, same.settled]
    exact books.flags id
  once := by
    rw [paidIds, same.settled]
    exact books.once

/-- The events after an item is noted. -/
lemma paid_note {item : Item (abi oz)} :
    paid (s.note f item).journal = paid s.journal ++ (paidOf ⟨f, item⟩).toList :=
  Account.filterMap_note

/-- The payments after an item is noted. -/
lemma settlements_note {item : Item (abi oz)} : settlements (s.note f item).journal =
    settlements s.journal ++ (settlementOf ⟨f, item⟩).toList :=
  Account.filterMap_note

/-- A write that leaves the flags alone. -/
lemma Same.write {v : Storage oz} (flags : v.invoicePaid = s.storage.invoicePaid) :
    Same s { s with storage := v } :=
  ⟨flags, rfl, rfl, rfl⟩

/-- Something done that the books are not about. -/
lemma Same.note {item : Item (abi oz)} (noTransfer : transferOf ⟨f, item⟩ = none)
    (noEvent : paidOf ⟨f, item⟩ = none) (noSettlement : settlementOf ⟨f, item⟩ = none) :
    Same s (s.note f item) where
  flags := rfl
  asked := by
    rw [transfers_note, noTransfer]
    exact List.append_nil _
  events := by
    rw [paid_note, noEvent]
    exact List.append_nil _
  settled := by
    rw [settlements_note, noSettlement]
    exact List.append_nil _

/-- The discipline of the router. -/
def discipline (oz : OpenZeppelin) (keccak256 : List Word → Word) :
    Discipline (inherits : Inheritance oz (abi oz)) where
  books := Books keccak256
  same := Same
  refl _ := .refl
  trans := .trans
  keep := Books.same
  rebase _ _ := .write rfl
  inherited _ _ _ := .note rfl rfl rfl
  entered _ _ := .note rfl rfl rfl

/-- What any call of the router guarantees. -/
abbrev Guards (keccak256 : List Word → Word) : Account (abi oz) → Account (abi oz) → Prop :=
  (discipline oz keccak256).Guards

/-! ## Owner administration -/

/-- `setTreasury` administers. -/
lemma wp_setTreasury {newTreasury : Address} : (setTreasury sender newTreasury).wp
    (Guards keccak256) f ((discipline oz keccak256).Administers s) s := by
  refine Discipline.wp_onlyOwner (fun _ _ => nofun) ?_
  refine Code.wp_require_bind.2 ⟨fun _ _ => ⟨Iff.rfl, ?_⟩, fun _ => nofun⟩
  have written : Same s { s with storage := { s.storage with treasury := newTreasury } } :=
    .write rfl
  exact written.trans (.note rfl rfl rfl)

/-- `setTokenSupported` administers. -/
lemma wp_setTokenSupported {token : Address} {supported : Bool} {minimum : Word} :
    (setTokenSupported sender token supported minimum).wp (Guards keccak256) f
      ((discipline oz keccak256).Administers s) s := by
  refine Discipline.wp_onlyOwner (fun _ _ => nofun) ?_
  refine Code.wp_require_bind.2 ⟨fun _ _ => ⟨Iff.rfl, ?_⟩, fun _ => nofun⟩
  have written : Same s { s with storage := { s.storage with
      supportedTokens := Function.update s.storage.supportedTokens token supported
      minAmount := Function.update s.storage.minAmount token minimum } } := .write rfl
  refine written.trans (Same.trans ?_ (.note rfl rfl rfl))
  exact .note rfl rfl rfl

/-- A withdrawal calls a token without a guard, and what the token calls back keeps the books. -/
lemma wp_emergencyWithdraw {token recipient : Address} {amount : Word} :
    (emergencyWithdraw sender token recipient amount).wp (Guards keccak256) f
      (fun r s' => r = .ok () → Guards keccak256 s s') s := by
  refine Discipline.wp_onlyOwner (fun _ _ => nofun) ?_
  refine Code.wp_require_bind.2 ⟨fun _ => ?_, fun _ => nofun⟩
  refine Code.wp_require_bind.2 ⟨fun _ => ?_, fun _ => nofun⟩
  refine Code.wp_bind (Code.wp_request_bind.2 fun answer s' called => ?_)
  refine Code.wp_inherit.2 ⟨fun _ _ _ => ?_, fun _ _ => nofun⟩
  have asked : Same s' (s'.note f (.asked (.transfer token recipient amount) answer s.storage)) :=
    .note rfl rfl rfl
  exact called.trans (.of_same Iff.rfl (asked.trans (.note rfl rfl rfl)))

/-! ## Payments -/

/-- The storage once an invoice is marked paid. -/
def markInvoice (v : Storage oz) (id : Word) : Storage oz :=
  { v with invoicePaid := Function.update v.invoicePaid id true }

/-- A paying call: its id is marked, the token carries out the transfer, the event is emitted, and the
    call returns. -/
lemma Books.pay {i : Invoice} {t : Transfer (abi oz)} {e : InvoicePaid} {v : Storage oz}
    (books : Books keccak256 s) (unpaid : s.storage.invoicePaid (keccak256 i.preimage) = false)
    (same : Same { s with storage := markInvoice s.storage (keccak256 i.preimage) } s')
    (flags : v.invoicePaid = s'.storage.invoicePaid) (call : t.frame.call.invoice = some i)
    (moves : Moves t (t.frame, i)) (announces : Announces keccak256 (t.frame, e) (t.frame, i)) :
    Books keccak256 { storage := v, journal := (((s'.note t.frame (.asked
      (.transferFrom t.token t.from t.to t.amount) t.answer t.storage)).note t.frame
        (.event (.invoicePaid e))).note t.frame .returned).journal } := by
  have new : keccak256 i.preimage ∉ paidIds keccak256 s.journal := fun mem => by
    simp [(books.flags _).2 mem] at unpaid
  have asked : transfers (((s'.note t.frame (.asked (.transferFrom t.token t.from t.to t.amount)
      t.answer t.storage)).note t.frame (.event (.invoicePaid e))).note t.frame .returned).journal =
        transfers s.journal ++ [t] := by
    rw [transfers_note, transfers_note, transfers_note, same.asked]
    exact (List.append_nil _).trans (List.append_nil _)
  have events : paid (((s'.note t.frame (.asked (.transferFrom t.token t.from t.to t.amount)
      t.answer t.storage)).note t.frame (.event (.invoicePaid e))).note t.frame .returned).journal =
        paid s.journal ++ [(t.frame, e)] := by
    rw [paid_note, paid_note, paid_note, same.events]
    exact (List.append_nil _).trans (congrArg (· ++ _) (List.append_nil _))
  have settled : settlements (((s'.note t.frame (.asked (.transferFrom t.token t.from t.to t.amount)
      t.answer t.storage)).note t.frame (.event (.invoicePaid e))).note t.frame .returned).journal =
        settlements s.journal ++ [(t.frame, i)] := by
    have last : settlementOf (⟨t.frame, .returned⟩ : Record (abi oz)) = some (t.frame, i) := by
      simp [settlementOf, call]
    rw [settlements_note, settlements_note, settlements_note, same.settled, last]
    exact congrArg (· ++ _) ((List.append_nil _).trans (List.append_nil _))
  refine ⟨?_, ?_, fun id => ?_, ?_⟩
  · rw [asked, settled]
    exact List.rel_append books.moved (.cons moves .nil)
  · rw [events, settled]
    exact List.rel_append books.announced (.cons announces .nil)
  · rw [paidIds, settled, List.map_append, List.mem_append]
    change v.invoicePaid id = true ↔
      id ∈ paidIds keccak256 s.journal ∨ id ∈ [keccak256 i.preimage]
    rw [flags, same.flags, ← books.flags id]
    by_cases h : id = keccak256 i.preimage <;> simp [markInvoice, h]
  · rw [paidIds, settled, List.map_append]
    exact List.nodup_append_comm.1 (List.nodup_cons.2 ⟨new, books.once⟩)

/-- What a payment leaves within its guard: books that are in order once it has returned. -/
def Pays (keccak256 : List Word → Word) (f : Frame (abi oz)) {α : Type} (r : Except (Error oz) α)
    (s' : Account (abi oz)) : Prop :=
  ∀ a, r = .ok a → ∀ b, Books keccak256 ((inherits.rebase s' b).note f .returned)

/-- `settle` pays the invoice of its call. -/
lemma wp_settle {i : Invoice} {metadata : Bytes} (call : f.call.invoice = some i)
    (entered : inherits.Entered s) (books : Books keccak256 s) :
    (settle f.sender (keccak256 i.preimage) i.invoiceRef i.token i.amount metadata).wp
      (Guards keccak256) f (Pays keccak256 f) s := by
  unfold settle
  refine Code.wp_require_bind.2 ⟨fun _ => ?_, fun _ => nofun⟩
  refine Code.wp_require_bind.2 ⟨fun _ => ?_, fun _ => nofun⟩
  refine Code.wp_read_bind.2 (Code.wp_require_bind.2 ⟨fun _ => ?_, fun _ => nofun⟩)
  refine Code.wp_require_bind.2 ⟨fun _ => ?_, fun _ => nofun⟩
  refine Code.wp_read_bind.2 (Code.wp_require_bind.2 ⟨fun _ => ?_, fun _ => nofun⟩)
  refine Code.wp_read_bind.2 (Code.wp_require_bind.2 ⟨fun unpaid => ?_, fun _ => nofun⟩)
  refine Code.wp_modify_bind.2 (Code.wp_read_bind.2 (Code.wp_bind ?_))
  -- the token is called with the invoice marked; what it calls back changes nothing
  refine Code.wp_request_bind.2 fun answer s' called => ?_
  refine Code.wp_inherit.2 ⟨fun _ ok => ?_, fun _ _ => nofun⟩
  obtain ⟨-, same⟩ := called.within entered
  rintro id - b
  exact books.pay (t := ⟨f, i.token, f.sender, s.storage.treasury, i.amount, answer,
    markInvoice s.storage _⟩) unpaid same rfl call
    ⟨rfl, rfl, rfl, rfl, rfl, oz.successful_of_checkAnswer ok⟩ ⟨rfl, rfl, rfl, rfl, rfl, rfl⟩

/-- `payInvoice` pays its invoice. -/
lemma wp_payInvoice {invoiceRef : Word} {token : Address} {amount : Word} {metadata : Bytes}
    (call : f.call.invoice = some (exactInvoice invoiceRef token amount))
    (books : Books keccak256 s) :
    (payInvoice keccak256 f.sender invoiceRef token amount metadata).wp (Guards keccak256) f
      ((discipline oz keccak256).Settles f) s := by
  refine Discipline.wp_nonReentrant books fun b _ entered _ books => ?_
  refine Discipline.wp_whenNotPaused (fun _ _ => nofun) fun _ => ?_
  exact wp_settle call entered books

/-- `payInvoiceWithPermit` pays its invoice. -/
lemma wp_payInvoiceWithPermit {invoiceRef : Word} {token : Address} {amount : Word}
    {metadata : Bytes} {deadline : Word} {v : UInt8} {r t : Word}
    (call : f.call.invoice = some (exactInvoice invoiceRef token amount))
    (books : Books keccak256 s) :
    (payInvoiceWithPermit keccak256 self f.sender invoiceRef token amount metadata deadline v r t).wp
      (Guards keccak256) f ((discipline oz keccak256).Settles f) s := by
  refine Discipline.wp_nonReentrant books fun b _ entered _ books => ?_
  refine Discipline.wp_whenNotPaused (fun _ _ => nofun) fun _ => ?_
  refine Code.wp_request_bind.2 fun answer s' called => ?_
  refine Code.wp_require_bind.2 ⟨fun _ => ?_, fun _ => nofun⟩
  obtain ⟨entered', same⟩ := called.within entered
  exact wp_settle call entered' (books.same (Same.trans same (.note rfl rfl rfl)))

/-- `payInvoiceWithExpiry` pays its invoice. -/
lemma wp_payInvoiceWithExpiry {now : Nat} {invoiceRef : Word} {token : Address}
    {amount deadline : Word} {metadata : Bytes} (call : f.call.invoice =
      some ⟨[invoiceRef, token.word, amount, deadline], invoiceRef, token, amount⟩)
    (books : Books keccak256 s) :
    (payInvoiceWithExpiry keccak256 f.sender now invoiceRef token amount deadline metadata).wp
      (Guards keccak256) f ((discipline oz keccak256).Settles f) s := by
  refine Discipline.wp_nonReentrant books fun b _ entered _ books => ?_
  refine Discipline.wp_whenNotPaused (fun _ _ => nofun) fun _ => ?_
  refine Code.wp_require_bind.2 ⟨fun _ => ?_, fun _ => nofun⟩
  exact wp_settle call entered books

/-! ## Refusals -/

/-- A call that is refused as already paid finds its id marked. -/
def Refuses (s : Account (abi oz)) (id : Word) {α : Type} (r : Except (Error oz) α) : Prop :=
  ∀ e, r = .error e → ∀ id', e = .invoiceAlreadyPaid id' → s.storage.invoicePaid id = true

/-- Any other revert. -/
lemma refuses_error {α : Type} {id : Word} {e : Error oz} (other : ∀ id, e ≠ .invoiceAlreadyPaid id) :
    Refuses s id (.error e : Except (Error oz) α) :=
  fun _ eq id eq' => absurd ((Except.error.inj eq).trans eq') (other id)

/-- `settle` refuses an invoice as paid only where it is marked. -/
lemma wp_settle_refuses {id invoiceRef : Word} {token : Address} {amount : Word} {metadata : Bytes} :
    (settle sender id invoiceRef token amount metadata).wp (Guards keccak256) f
      (fun r _ => Refuses s id r) s := by
  unfold settle
  refine Code.wp_require_bind.2 ⟨fun _ => ?_, fun _ => refuses_error nofun⟩
  refine Code.wp_require_bind.2 ⟨fun _ => ?_, fun _ => refuses_error nofun⟩
  refine Code.wp_read_bind.2 (Code.wp_require_bind.2 ⟨fun _ => ?_, fun _ => refuses_error nofun⟩)
  refine Code.wp_require_bind.2 ⟨fun _ => ?_, fun _ => refuses_error nofun⟩
  refine Code.wp_read_bind.2 (Code.wp_require_bind.2 ⟨fun _ => ?_, fun _ => refuses_error nofun⟩)
  refine Code.wp_read_bind.2 (Code.wp_require_bind.2 ⟨fun _ => ?_, fun marked => ?_⟩)
  · refine Code.wp_modify_bind.2 (Code.wp_read_bind.2 (Code.wp_bind ?_))
    refine Code.wp_request_bind.2 fun _ _ _ => ?_
    exact Code.wp_inherit.2 ⟨fun _ _ => nofun, fun _ _ => refuses_error nofun⟩
  · exact fun _ _ _ _ => Bool.of_not_eq_false marked

/-- `payInvoice` refuses an invoice as paid only where it is marked. -/
lemma wp_payInvoice_refuses {invoiceRef : Word} {token : Address} {amount : Word} {metadata : Bytes} :
    (payInvoice keccak256 sender invoiceRef token amount metadata).wp (Guards keccak256) f
      (fun r _ => Refuses s (computeInvoiceId keccak256 invoiceRef token amount) r) s := by
  refine Discipline.wp_nonReentrant_error (fun _ => nofun) fun b entered => ?_
  refine Code.wp_bind (Code.wp_read_bind.2 (Code.wp_inherit.2 ⟨fun _ _ => ?_, fun _ _ => ?_⟩))
  · exact wp_settle_refuses (s := inherits.rebase s b)
  · exact refuses_error nofun

/-- `payInvoiceWithPermit` refuses an invoice as paid only where it is marked. -/
lemma wp_payInvoiceWithPermit_refuses {invoiceRef : Word} {token : Address} {amount : Word}
    {metadata : Bytes} {deadline : Word} {v : UInt8} {r t : Word} :
    (payInvoiceWithPermit keccak256 self sender invoiceRef token amount metadata deadline v r t).wp
      (Guards keccak256) f
      (fun r _ => Refuses s (computeInvoiceId keccak256 invoiceRef token amount) r) s := by
  refine Discipline.wp_nonReentrant_error (fun _ => nofun) fun b entered => ?_
  refine Code.wp_bind (Code.wp_read_bind.2 (Code.wp_inherit.2 ⟨fun _ _ => ?_, fun _ _ => ?_⟩))
  · refine Code.wp_request_bind.2 fun _ s' called => ?_
    refine Code.wp_require_bind.2 ⟨fun _ => ?_, fun _ => refuses_error nofun⟩
    -- what the permit calls back leaves the flags alone
    have flags : s'.storage.invoicePaid = s.storage.invoicePaid := (called.within entered).2.flags
    refine Code.wp_mono (fun r _ refuses e eq id eq' => ?_) wp_settle_refuses
    rw [← flags]
    exact refuses e eq id eq'
  · exact refuses_error nofun

end

/-! ## Every run -/

/-- Every call keeps the books, whatever is called back. -/
theorem guarantee : Guarantee (contract keccak256 self : Contract (abi oz)) (Guards keccak256) where
  refl _ := .refl
  trans := .trans
  call m s := by
    have returned (unpaying : m.call.invoice = none) (s' : Account (abi oz)) :
        Same s' (s'.note (m.frame s) .returned) := by
      refine .note rfl rfl ?_
      change m.call.invoice.map _ = none
      rw [unpaying]
      rfl
    unfold contract
    split
    case h_1 _ eq =>
      exact Discipline.guards_of_administers (returned (eq ▸ rfl)) wp_setTreasury
    case h_2 _ _ _ eq =>
      exact Discipline.guards_of_administers (returned (eq ▸ rfl)) wp_setTokenSupported
    case h_3 eq =>
      exact Discipline.guards_of_administers (returned (eq ▸ rfl))
        (Discipline.wp_onlyOwner (fun _ _ => nofun) (Discipline.wp_inheritedFn oz.entered_pause))
    case h_4 eq =>
      exact Discipline.guards_of_administers (returned (eq ▸ rfl))
        (Discipline.wp_onlyOwner (fun _ _ => nofun) (Discipline.wp_inheritedFn oz.entered_unpause))
    case h_5 _ _ _ eq =>
      exact Discipline.guards_of_guards (returned (eq ▸ rfl)) wp_emergencyWithdraw
    case h_6 _ eq =>
      exact Discipline.guards_of_administers (returned (eq ▸ rfl))
        (Discipline.wp_inheritedFn oz.entered_inherited)
    case h_7 invoiceRef token amount metadata eq =>
      exact Discipline.guards_of_settles
        (wp_payInvoice (congrArg Call.invoice eq)) fun entered =>
          Discipline.wp_nonReentrant_of_entered entered
    case h_8 invoiceRef token amount metadata deadline v r t eq =>
      exact Discipline.guards_of_settles
        (wp_payInvoiceWithPermit (congrArg Call.invoice eq)) fun entered =>
          Discipline.wp_nonReentrant_of_entered entered
    case h_9 invoiceRef token amount deadline metadata eq =>
      exact Discipline.guards_of_settles
        (wp_payInvoiceWithExpiry (congrArg Call.invoice eq)) fun entered =>
          Discipline.wp_nonReentrant_of_entered entered

/-- A new router has empty books. -/
lemma books_construct {initialOwner initialTreasury : Address} {s : Account (abi oz)}
    (init : construct oz initialOwner initialTreasury = .ok s) :
    ¬inherits.Entered s ∧ Books keccak256 s ∧ s.journal = [] := by
  unfold construct at init
  split at init
  case h_1 => cases init
  case h_2 base new =>
    split at init
    case isTrue => cases init
    case isFalse =>
      cases init
      refine ⟨fun entered => ?_, ⟨.nil, .nil, fun id => ⟨nofun, nofun⟩, .nil⟩, rfl⟩
      exact absurd (entered.symm.trans (oz.entered_construct new)) nofun

/-! ## Exact payments -/

/-- The call pays an invoice exactly, without an expiry. -/
def Call.pays (invoiceRef : Word) (token : Address) (amount : Word) : Call oz → Bool
  | .payInvoice r t a _ => r = invoiceRef ∧ t = token ∧ a = amount
  | .payInvoiceWithPermit r t a _ _ _ _ _ => r = invoiceRef ∧ t = token ∧ a = amount
  | _ => false

/-- The calls that have paid an invoice exactly. -/
def payments (invoiceRef : Word) (token : Address) (amount : Word) (j : List (Record (abi oz))) :
    List (Frame (abi oz)) :=
  ((settlements j).filter fun p => p.1.call.pays invoiceRef token amount).map Prod.fst

/-- The hash of an invoice is not the hash of another invoice that has been paid. -/
def CollisionFree (keccak256 : List Word → Word) (preimage : List Word)
    (j : List (Record (abi oz))) : Prop :=
  ∀ p ∈ settlements j, keccak256 p.2.preimage = keccak256 preimage → p.2.preimage = preimage

section
variable {invoiceRef : Word} {token : Address} {amount : Word} {j : List (Record (abi oz))}
  {p : Frame (abi oz) × Invoice} {c : Call oz} {i : Invoice}

/-- Exact invoices are determined by reference, token and amount. -/
lemma exactInvoice_eq_iff {r : Word} {t : Address} {a : Word} :
    exactInvoice r t a = exactInvoice invoiceRef token amount ↔
      r = invoiceRef ∧ t = token ∧ a = amount := by
  simp only [exactInvoice, Invoice.mk.injEq]
  exact ⟨fun eq => eq.2, fun ⟨hr, ht, ha⟩ => ⟨by rw [hr, ht, ha], hr, ht, ha⟩⟩

/-- An exact payment is told by what it hashes. -/
lemma pays_iff (invoice : c.invoice = some i) : c.pays invoiceRef token amount = true ↔
    i.preimage = [invoiceRef, token.word, amount] := by
  cases c with
  | payInvoice r t a m =>
    cases invoice
    simp [Call.pays, exactInvoice, Address.word_injective.eq_iff]
  | payInvoiceWithPermit r t a m d v r' s' =>
    cases invoice
    simp [Call.pays, exactInvoice, Address.word_injective.eq_iff]
  | payInvoiceWithExpiry r t a d m =>
    cases invoice
    simp [Call.pays]
  | _ => cases invoice

/-- A call that pays reference, token and amount pays the exact invoice. -/
lemma eq_exactInvoice (invoice : c.invoice = some i) (pays : c.pays invoiceRef token amount = true) :
    i = exactInvoice invoiceRef token amount := by
  cases c with
  | payInvoice r t a m =>
    cases invoice
    exact exactInvoice_eq_iff.2 (of_decide_eq_true pays)
  | payInvoiceWithPermit r t a m d v r' s' =>
    cases invoice
    exact exactInvoice_eq_iff.2 (of_decide_eq_true pays)
  | _ => cases pays

/-- A payment is a call that returned. -/
lemma record_of_settlement (mem : p ∈ settlements j) :
    (⟨p.1, .returned⟩ : Record (abi oz)) ∈ j ∧ p.1.call.invoice = some p.2 := by
  obtain ⟨⟨f, item⟩, noted, eq⟩ := List.mem_filterMap.1 mem
  cases item with
  | returned =>
    obtain ⟨i, invoice, rfl⟩ := Option.map_eq_some_iff.1 eq
    exact ⟨noted, invoice⟩
  | _ => cases eq

/-- A call that returned is a payment, if it has an invoice. -/
lemma settlement_of_record {f : Frame (abi oz)} (noted : (⟨f, .returned⟩ : Record (abi oz)) ∈ j)
    (invoice : f.call.invoice = some i) : (f, i) ∈ settlements j :=
  List.mem_filterMap.2 ⟨_, noted, by simp [settlementOf, invoice]⟩

/-- Paying calls are told apart by their ids. -/
lemma eq_of_id_eq {p p' : Frame (abi oz) × Invoice} (opened : Opened j) (mem : p ∈ settlements j)
    (mem' : p' ∈ settlements j) (eq : p'.1.id = p.1.id) : p' = p := by
  obtain ⟨noted, invoice⟩ := record_of_settlement mem
  obtain ⟨noted', invoice'⟩ := record_of_settlement mem'
  have frame : p'.1 = p.1 := opened.frame_eq noted' noted eq
  rw [frame, invoice] at invoice'
  exact Prod.ext frame (Option.some.inj invoice').symm

variable {s : Account (abi oz)}

/-- A paying call made one transfer, and emitted the only event with its id. -/
lemma Books.once_of_mem (books : Books keccak256 s) (opened : Opened s.journal)
    (mem : p ∈ settlements s.journal) :
    (∃ t, (transfers s.journal).filter (·.frame.id = p.1.id) = [t] ∧ Moves t p) ∧
      ∃ e, (paid s.journal).filter (·.2.invoiceId = keccak256 p.2.preimage) = [e] ∧
        Announces keccak256 e p := by
  have nodup : (settlements s.journal).Nodup := books.once.of_map _
  constructor
  · refine Data.exists_of_filter (q := fun p' => p'.1.id = p.1.id) books.moved (fun t p' moves => ?_) ?_
    · rw [moves.frame]
    · refine Data.filter_eq_singleton nodup mem fun p' mem' => ?_
      exact decide_eq_true_iff.trans ⟨eq_of_id_eq opened mem mem', fun eq => eq ▸ rfl⟩
  · refine Data.exists_of_filter (q := fun p' => keccak256 p'.2.preimage = keccak256 p.2.preimage)
      books.announced (fun e p' announces => ?_) ?_
    · rw [announces.invoiceId]
    · refine Data.filter_eq_singleton nodup mem fun p' mem' => ?_
      exact decide_eq_true_iff.trans
        ⟨List.inj_on_of_nodup_map books.once mem' mem, fun eq => eq ▸ rfl⟩

/-- The events carry the ids of the invoices paid, in the order of payment. -/
lemma Books.map_paid (books : Books keccak256 s) :
    (paid s.journal).map (·.2.invoiceId) = paidIds keccak256 s.journal := by
  rw [paidIds, ← List.forall₂_eq_eq_eq, List.forall₂_map_left_iff, List.forall₂_map_right_iff]
  exact books.announced.imp fun _ _ announces => announces.invoiceId

/-- An event with the id of an invoice tells of its amount. -/
lemma Books.amount_of_mem_paid {e : Frame (abi oz) × InvoicePaid} (books : Books keccak256 s)
    (collisionFree : CollisionFree keccak256 [invoiceRef, token.word, amount] s.journal)
    (mem : e ∈ paid s.journal)
    (id : e.2.invoiceId = computeInvoiceId keccak256 invoiceRef token amount) :
    e.2.amount = amount := by
  obtain ⟨p, mem', announces⟩ := Data.exists_of_mem books.announced mem
  have preimage := collisionFree p mem' (announces.invoiceId.symm.trans id)
  have invoice := (record_of_settlement mem').2
  have exact := eq_exactInvoice invoice ((pays_iff invoice).2 preimage)
  rw [announces.amount, exact]
  rfl

/-- An invoice is marked exactly when it has been paid exactly. -/
lemma Books.marked_iff (books : Books keccak256 s)
    (collisionFree : CollisionFree keccak256 [invoiceRef, token.word, amount] s.journal) :
    s.storage.invoicePaid (computeInvoiceId keccak256 invoiceRef token amount) = true ↔
      (payments invoiceRef token amount s.journal).length = 1 := by
  have only {p p' : Frame (abi oz) × Invoice} (mem : p ∈ settlements s.journal)
      (mem' : p' ∈ settlements s.journal) (pays : p.1.call.pays invoiceRef token amount = true) :
      p'.1.call.pays invoiceRef token amount = true ↔ p' = p := by
    refine ⟨fun pays' => ?_, fun eq => eq ▸ pays⟩
    refine List.inj_on_of_nodup_map books.once mem' mem ?_
    rw [(pays_iff (record_of_settlement mem).2).1 pays,
      (pays_iff (record_of_settlement mem').2).1 pays']
  rw [books.flags, payments, List.length_map]
  constructor
  · intro marked
    obtain ⟨p, mem, eq⟩ := List.mem_map.1 marked
    have pays := (pays_iff (record_of_settlement mem).2).2 (collisionFree p mem eq)
    rw [Data.filter_eq_singleton (books.once.of_map _) mem fun p' mem' => only mem mem' pays]
    rfl
  · intro single
    obtain ⟨p, eq⟩ := List.length_eq_one_iff.1 single
    obtain ⟨mem, pays⟩ := List.mem_filter.1 (eq ▸ List.mem_singleton_self p)
    refine List.mem_map.2 ⟨p, mem, ?_⟩
    rw [(pays_iff (record_of_settlement mem).2).1 pays]
    rfl

end

/-- The refusals of a paying function are those of the call. -/
lemma wp_refuses_bind {s s' : Account (abi oz)} {f : Frame (abi oz)} {id : Word} {c : Fn oz Word}
    (wp : c.wp (Guards keccak256) f (fun r _ => Refuses s id r) s') :
    (c >>= fun _ => pure ()).wp (Guards keccak256) f (fun r _ => Refuses s id r) s' := by
  refine Code.wp_bind (Code.wp_mono (fun r s' refuses => ?_) wp)
  cases r with
  | ok _ => exact nofun
  | error e => exact fun e' eq => refuses e' (congrArg _ (Except.error.inj eq))

/-- An exact payment that is refused as already paid finds its invoice marked. -/
lemma marked_of_refused {s : Account (abi oz)} {invoiceRef : Word} {token : Address} {amount : Word}
    {t : Transaction (abi oz)} {id : Word} (pays : t.call.pays invoiceRef token amount = true)
    (refused : (t.result (contract keccak256 self) s).1 = .error (.invoiceAlreadyPaid id)) :
    s.storage.invoicePaid (computeInvoiceId keccak256 invoiceRef token amount) = true := by
  have refuses : (contract keccak256 self t.toMsg).wp (Guards keccak256) (t.toMsg.frame s)
      (fun r _ => Refuses s (computeInvoiceId keccak256 invoiceRef token amount) r)
      (s.note (t.toMsg.frame s) .entered) := by
    unfold contract
    split
    case h_7 r t' a m eq =>
      rw [eq] at pays
      obtain ⟨rfl, rfl, rfl⟩ := of_decide_eq_true pays
      exact wp_refuses_bind wp_payInvoice_refuses
    case h_8 r t' a m d v r' s' eq =>
      rw [eq] at pays
      obtain ⟨rfl, rfl, rfl⟩ := of_decide_eq_true pays
      exact wp_refuses_bind wp_payInvoiceWithPermit_refuses
    all_goals
      rename_i eq
      rw [eq] at pays
      cases pays
  exact guarantee.result refuses _ refused id rfl

/-- An invoice is marked paid exactly when one call has paid it exactly, and that call made one
    transfer, of the amount from its caller to the treasury of that moment, and emitted the only event
    with its id. An exact payment is refused as already paid only where an exact payment was made. -/
theorem paid_exactly {initialOwner initialTreasury : Address} {s₀ s : Account (abi oz)}
    {ts : List (Transaction (abi oz))} {invoiceRef : Word} {token : Address} {amount : Word}
    (init : construct oz initialOwner initialTreasury = .ok s₀)
    (ran : run (contract keccak256 self) s₀ ts = s)
    (collisionFree : CollisionFree keccak256 [invoiceRef, token.word, amount] s.journal) :
    (s.storage.invoicePaid (computeInvoiceId keccak256 invoiceRef token amount) = true ↔
      (payments invoiceRef token amount s.journal).length = 1) ∧
      (∀ f ∈ payments invoiceRef token amount s.journal,
        (∃ t, (transfers s.journal).filter (·.frame.id = f.id) = [t] ∧
          Moves t (f, exactInvoice invoiceRef token amount)) ∧
        ∃ e, (paid s.journal).filter
            (·.2.invoiceId = computeInvoiceId keccak256 invoiceRef token amount) = [e] ∧
          Announces keccak256 e (f, exactInvoice invoiceRef token amount)) ∧
        ∀ t : Transaction (abi oz), t.call.pays invoiceRef token amount = true → ∀ id,
          (t.result (contract keccak256 self) s).1 = .error (.invoiceAlreadyPaid id) →
            (payments invoiceRef token amount s.journal).length = 1 := by
  subst ran
  obtain ⟨free, (books : Books keccak256 s₀), new⟩ := books_construct init
  obtain ⟨-, books⟩ := (guarantee.run s₀ ts).outside free books
  refine ⟨books.marked_iff collisionFree, fun f mem => ?_, fun t pays id refused => ?_⟩
  · obtain ⟨p, kept, rfl⟩ := List.mem_map.1 mem
    obtain ⟨mem, pays⟩ := List.mem_filter.1 kept
    have exact := eq_exactInvoice (record_of_settlement mem).2 pays
    have once := books.once_of_mem (opened_run new ts) mem
    obtain ⟨f, i⟩ := p
    obtain rfl := exact
    exact once
  · exact (books.marked_iff collisionFree).1 (marked_of_refused pays refused)

/-- The hashes of the invoices of the concrete run. -/
def sampleHash (preimage : List Word) : Word :=
  if preimage = [1, 4, 1000000] then
    0xa8a7402c18a0c726bf2f6618099578994b48532335f50f8abcd9680be92663ed
  else if preimage = [1, 4, 1000000, 0] then
    0xb146faad010551977f46188bbb23db3fa89416115e3388b4f5576cbaa149d7c8
  else 0

/-- The owner supports token 4; account 3 pays an invoice with an expiry, during which the token calls
    back in vain; account 5 pays the same invoice without; the token carries both transfers out. -/
def sampleTransactions : List (Transaction (abi .standard)) :=
  [⟨⟨1, 0, .setTokenSupported 4 true 0⟩, 1, []⟩,
    ⟨⟨3, 1, .payInvoiceWithExpiry 1 4 1000000 0 []⟩, 2,
      [.handles [(3, .payInvoice 1 4 1000000 [], [.handles [] (some (.word 1))])] (some (.word 1))]⟩,
    ⟨⟨5, 2, .payInvoice 1 4 1000000 []⟩, 2, [.handles [] (some (.word 1))]⟩]

/-- The state after these transactions. -/
def sampleState : Account (abi .standard) :=
  run (contract sampleHash 9) sampleRouter sampleTransactions

/-- One exact payment. -/
theorem paid_exactly_of_payment : (payments 1 4 1000000 sampleState.journal).length = 1 ∧
    (sampleState.storage.invoicePaid (computeInvoiceId sampleHash 1 4 1000000) = true ↔
      (payments 1 4 1000000 sampleState.journal).length = 1) ∧
      (∀ f ∈ payments 1 4 1000000 sampleState.journal,
        (∃ t, (transfers sampleState.journal).filter (·.frame.id = f.id) = [t] ∧
          Moves t (f, exactInvoice 1 4 1000000)) ∧
        ∃ e, (paid sampleState.journal).filter
            (·.2.invoiceId = computeInvoiceId sampleHash 1 4 1000000) = [e] ∧
          Announces sampleHash e (f, exactInvoice 1 4 1000000)) ∧
        ∀ t : Transaction (abi .standard), t.call.pays 1 4 1000000 = true → ∀ id,
          (t.result (contract sampleHash 9) sampleState).1 = .error (.invoiceAlreadyPaid id) →
            (payments 1 4 1000000 sampleState.journal).length = 1 := by
  have init : construct .standard 1 2 = .ok sampleRouter := rfl
  have collisionFree : CollisionFree sampleHash [1, Address.word 4, 1000000] sampleState.journal := by
    unfold CollisionFree
    decide
  exact ⟨by decide, paid_exactly init rfl collisionFree⟩

end AvaSettle.Contracts.PaymentRouter
