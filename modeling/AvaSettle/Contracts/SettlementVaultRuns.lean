import AvaSettle.Contracts.SettlementVault

/-!
# Runs of SettlementVault

Whatever the callers and the tokens do, the events of the vault are its books: each `PayoutExecuted`
goes with one transfer that a token carried out, and each id is paid once. The books are not in order
in the middle of a payout, where the token is called, but there the guard keeps every other payout
out.
-/

namespace AvaSettle.Contracts.SettlementVault
open Evm

variable {oz : OpenZeppelin}

/-! ## The books -/

/-- The `PayoutExecuted` of a record, with the call that emitted it. -/
def payoutOf (r : Record (abi oz)) : Option (Frame (abi oz) × PayoutExecuted) :=
  match r.item with
  | .event (.payoutExecuted e) => some (r.frame, e)
  | _ => none

/-- The `BatchExecuted` of a record. -/
def batchOf (r : Record (abi oz)) : Option BatchExecuted :=
  match r.item with
  | .event (.batchExecuted e) => some e
  | _ => none

/-- The `PayoutExecuted` events of the vault. -/
def payouts (j : List (Record (abi oz))) : List (Frame (abi oz) × PayoutExecuted) :=
  j.filterMap payoutOf

/-- The ids of the payouts. -/
def payoutIds (j : List (Record (abi oz))) : List Word := (payouts j).map fun p => p.2.payoutId

/-- The ids of the batches. -/
def batchIds (j : List (Record (abi oz))) : List Word :=
  (j.filterMap batchOf).map BatchExecuted.batchId

/-- The event reports the transfer: same call, token, funder, recipient and amount. -/
structure Reports (t : Transfer (abi oz)) (p : Frame (abi oz) × PayoutExecuted) : Prop where
  frame : p.1 = t.frame
  token : p.2.token = t.token
  funder : p.2.funder = t.from
  recipient : p.2.to = t.to
  amount : p.2.amount = t.amount

/-- A call that may pay with a token: a payout that an operator entered, with the token supported and
    the vault unpaused. -/
structure Admitted (f : Frame (abi oz)) (token : Address) : Prop where
  call : (∃ payoutRef recipient amount metadata,
      f.call = .payout payoutRef token recipient amount metadata) ∨
    ∃ batchRef recipients amounts metadata,
      f.call = .payoutBatch batchRef token recipients amounts metadata
  operator : f.entry.operators f.sender = true
  supported : f.entry.supportedTokens token = true
  unpaused : oz.paused f.entry.base = false

/-- A transfer in order: made in a call that may pay, from the funder of that moment, and carried out
    by the token. -/
structure InOrder (t : Transfer (abi oz)) : Prop where
  admitted : Admitted t.frame t.token
  funder : t.from = t.storage.funder
  successful : Successful t.answer

/-- The books of the vault, where `pending` is a batch that has begun. -/
structure Books (pending : Option Word) (s : Account (abi oz)) : Prop where
  reported : List.Forall₂ Reports (transfers s.journal) (payouts s.journal)
  inOrder : ∀ t ∈ transfers s.journal, InOrder t
  payoutFlags : ∀ id, s.storage.payoutExecuted id = true ↔ id ∈ payoutIds s.journal
  payoutOnce : (payoutIds s.journal).Nodup
  batchFlags : ∀ b, s.storage.batchExecuted b = true ↔ b ∈ batchIds s.journal ∨ pending = some b
  batchOnce : (batchIds s.journal).Nodup
  pendingNew : ∀ b, pending = some b → b ∉ batchIds s.journal

/-! ## What the books are not about -/

/-- Nothing that the books are about has changed. -/
structure Same (s s' : Account (abi oz)) : Prop where
  payoutFlags : s'.storage.payoutExecuted = s.storage.payoutExecuted
  batchFlags : s'.storage.batchExecuted = s.storage.batchExecuted
  asked : transfers s'.journal = transfers s.journal
  paid : payouts s'.journal = payouts s.journal
  batched : batchIds s'.journal = batchIds s.journal

section
variable {s s₁ s₂ s₃ s' : Account (abi oz)} {pending : Option Word}

/-- The books are the same when nothing happens. -/
lemma Same.refl : Same s s := ⟨rfl, rfl, rfl, rfl, rfl⟩

/-- Books that are the same twice are the same. -/
lemma Same.trans (h₁ : Same s₁ s₂) (h₂ : Same s₂ s₃) : Same s₁ s₃ where
  payoutFlags := h₂.payoutFlags.trans h₁.payoutFlags
  batchFlags := h₂.batchFlags.trans h₁.batchFlags
  asked := h₂.asked.trans h₁.asked
  paid := h₂.paid.trans h₁.paid
  batched := h₂.batched.trans h₁.batched

/-- Books stay kept where they are the same. -/
lemma Books.same (books : Books pending s) (same : Same s s') : Books pending s' where
  reported := by
    rw [same.asked, same.paid]
    exact books.reported
  inOrder := same.asked ▸ books.inOrder
  payoutFlags id := by
    rw [same.payoutFlags, payoutIds, same.paid]
    exact books.payoutFlags id
  payoutOnce := by
    rw [payoutIds, same.paid]
    exact books.payoutOnce
  batchFlags b := by
    rw [same.batchFlags, same.batched]
    exact books.batchFlags b
  batchOnce := same.batched ▸ books.batchOnce
  pendingNew b eq := same.batched ▸ books.pendingNew b eq

/-- The payouts after an item is noted. -/
lemma payouts_note {f : Frame (abi oz)} {item : Item (abi oz)} :
    payouts (s.note f item).journal = payouts s.journal ++ (payoutOf ⟨f, item⟩).toList :=
  Account.filterMap_note

/-- The batches after an item is noted. -/
lemma batchIds_note {f : Frame (abi oz)} {item : Item (abi oz)} :
    batchIds (s.note f item).journal =
      batchIds s.journal ++ ((batchOf ⟨f, item⟩).map BatchExecuted.batchId).toList := by
  rw [batchIds, Account.filterMap_note, List.map_append, Option.toList_map]
  rfl

/-- A write that leaves the flags alone. -/
lemma Same.write {v : Storage oz} (payoutFlags : v.payoutExecuted = s.storage.payoutExecuted)
    (batchFlags : v.batchExecuted = s.storage.batchExecuted) : Same s { s with storage := v } :=
  ⟨payoutFlags, batchFlags, rfl, rfl, rfl⟩

/-- Something done that the books are not about. -/
lemma Same.note {f : Frame (abi oz)} {item : Item (abi oz)} (noTransfer : transferOf ⟨f, item⟩ = none)
    (noPayout : payoutOf ⟨f, item⟩ = none) (noBatch : batchOf ⟨f, item⟩ = none) :
    Same s (s.note f item) where
  payoutFlags := rfl
  batchFlags := rfl
  asked := by
    rw [transfers_note, noTransfer]
    exact List.append_nil _
  paid := by
    rw [payouts_note, noPayout]
    exact List.append_nil _
  batched := by
    rw [batchIds_note, noBatch]
    exact List.append_nil _

/-- Writing and noting what is no payment leaves the books the same. -/
lemma Same.writeNote {v : Storage oz} {f : Frame (abi oz)} {item : Item (abi oz)}
    (payoutFlags : v.payoutExecuted = s.storage.payoutExecuted)
    (batchFlags : v.batchExecuted = s.storage.batchExecuted) (noTransfer : transferOf ⟨f, item⟩ = none)
    (noPayout : payoutOf ⟨f, item⟩ = none) (noBatch : batchOf ⟨f, item⟩ = none) :
    Same s (Account.note { s with storage := v } f item) :=
  (Same.write payoutFlags batchFlags).trans (.note noTransfer noPayout noBatch)

/-- The discipline of the vault. -/
def discipline (oz : OpenZeppelin) : Discipline (inherits : Inheritance oz (abi oz)) where
  books := Books none
  same := Same
  refl _ := .refl
  trans := .trans
  keep := Books.same
  rebase _ _ := .write rfl rfl
  inherited _ _ _ := .note rfl rfl rfl
  entered _ _ := .note rfl rfl rfl

/-- What any call of the vault guarantees. -/
abbrev Guards : Account (abi oz) → Account (abi oz) → Prop := (discipline oz).Guards

/-! ## Owner administration -/

variable {f : Frame (abi oz)} {sender : Address}

/-- A setter: the owner writes what the books are not about. -/
lemma administers_of_write {v : Storage oz} {e : Event oz} (base : v.base = s.storage.base)
    (payoutFlags : v.payoutExecuted = s.storage.payoutExecuted)
    (batchFlags : v.batchExecuted = s.storage.batchExecuted)
    (noPayout : payoutOf ⟨f, .event e⟩ = none) (noBatch : batchOf ⟨f, .event e⟩ = none) :
    (discipline oz).Administers s (.ok ()) (Account.note { s with storage := v } f (.event e)) := by
  refine fun _ => ⟨?_, .writeNote payoutFlags batchFlags rfl noPayout noBatch⟩
  change oz.entered v.base = true ↔ oz.entered s.storage.base = true
  rw [base]

/-- `setFunder` administers. -/
lemma wp_setFunder {newFunder : Address} : (setFunder sender newFunder).wp Guards f
    ((discipline oz).Administers s) s := by
  refine Discipline.wp_onlyOwner (fun _ _ => nofun) ?_
  refine Code.wp_require_bind.2 ⟨fun _ => ?_, fun _ => nofun⟩
  exact administers_of_write rfl rfl rfl rfl rfl

/-- `setOperator` administers. -/
lemma wp_setOperator {operator : Address} {allowed : Bool} :
    (setOperator sender operator allowed).wp Guards f ((discipline oz).Administers s) s := by
  refine Discipline.wp_onlyOwner (fun _ _ => nofun) ?_
  refine Code.wp_require_bind.2 ⟨fun _ => ?_, fun _ => nofun⟩
  exact administers_of_write rfl rfl rfl rfl rfl

/-- `setTokenSupported` administers. -/
lemma wp_setTokenSupported {token : Address} {supported : Bool} :
    (setTokenSupported sender token supported).wp Guards f ((discipline oz).Administers s) s := by
  refine Discipline.wp_onlyOwner (fun _ _ => nofun) ?_
  refine Code.wp_require_bind.2 ⟨fun _ => ?_, fun _ => nofun⟩
  exact administers_of_write rfl rfl rfl rfl rfl

/-! ## Payouts -/

/-- The storage once a payout is marked executed. -/
def markPayout (v : Storage oz) (id : Word) : Storage oz :=
  { v with payoutExecuted := Function.update v.payoutExecuted id true }

/-- A leg: its id is marked, the token carries out the transfer, and the event is emitted. -/
lemma Books.leg {t : Transfer (abi oz)} {e : PayoutExecuted} (books : Books pending s)
    (unpaid : s.storage.payoutExecuted e.payoutId = false)
    (same : Same { s with storage := markPayout s.storage e.payoutId } s') (inOrder : InOrder t)
    (reports : Reports t (t.frame, e)) :
    Books pending ((s'.note t.frame (.asked (.transferFrom t.token t.from t.to t.amount) t.answer
      t.storage)).note t.frame (.event (.payoutExecuted e))) := by
  have new : e.payoutId ∉ payoutIds s.journal := fun mem => by
    simp [(books.payoutFlags _).2 mem] at unpaid
  have asked : transfers ((s'.note t.frame (.asked (.transferFrom t.token t.from t.to t.amount)
      t.answer t.storage)).note t.frame (.event (.payoutExecuted e))).journal =
        transfers s.journal ++ [t] := by
    rw [transfers_note, transfers_note, same.asked]
    exact List.append_nil _
  have paid : payouts ((s'.note t.frame (.asked (.transferFrom t.token t.from t.to t.amount)
      t.answer t.storage)).note t.frame (.event (.payoutExecuted e))).journal =
        payouts s.journal ++ [(t.frame, e)] := by
    rw [payouts_note, payouts_note, same.paid]
    exact congrArg (· ++ _) (List.append_nil _)
  have batched : batchIds ((s'.note t.frame (.asked (.transferFrom t.token t.from t.to t.amount)
      t.answer t.storage)).note t.frame (.event (.payoutExecuted e))).journal =
        batchIds s.journal := by
    rw [batchIds_note, batchIds_note, same.batched]
    exact (List.append_nil _).trans (List.append_nil _)
  refine ⟨?_, ?_, fun id => ?_, ?_, fun b => ?_, ?_, fun b eq => ?_⟩
  · rw [asked, paid]
    exact List.rel_append books.reported (.cons reports .nil)
  · rw [asked]
    exact List.forall_mem_append.2 ⟨books.inOrder, List.forall_mem_singleton.2 inOrder⟩
  · rw [payoutIds, paid, List.map_append, List.mem_append]
    change s'.storage.payoutExecuted id = true ↔ id ∈ payoutIds s.journal ∨ id ∈ [e.payoutId]
    rw [same.payoutFlags, ← books.payoutFlags id]
    by_cases h : id = e.payoutId <;> simp [markPayout, h]
  · rw [payoutIds, paid, List.map_append]
    exact List.nodup_append_comm.1 (List.nodup_cons.2 ⟨new, books.payoutOnce⟩)
  · rw [batched]
    change s'.storage.batchExecuted b = true ↔ _
    rw [same.batchFlags]
    exact books.batchFlags b
  · rw [batched]
    exact books.batchOnce
  · rw [batched]
    exact books.pendingNew b eq

variable {keccak256 : List Word → Word}

/-- What a payout leaves within its guard. -/
def Pays (pending : Option Word) {α : Type} (r : Except (Error oz) α) (s' : Account (abi oz)) : Prop :=
  ∀ a, r = .ok a → inherits.Entered s' ∧ Books pending s'

/-- `execute` pays one payout. -/
lemma wp_execute {batchId payoutRef : Word} {token recipient : Address} {amount : Word}
    {metadata : Bytes} (admitted : Admitted f token) (entered : inherits.Entered s)
    (books : Books pending s) :
    (execute keccak256 batchId payoutRef token recipient amount metadata).wp Guards f (Pays pending)
      s := by
  unfold execute
  refine Code.wp_require_bind.2 ⟨fun _ => ?_, fun _ => nofun⟩
  refine Code.wp_require_bind.2 ⟨fun _ => ?_, fun _ => nofun⟩
  refine Code.wp_require_bind.2 ⟨fun _ => ?_, fun _ => nofun⟩
  refine Code.wp_read_bind.2 (Code.wp_require_bind.2 ⟨fun unpaid => ?_, fun _ => nofun⟩)
  refine Code.wp_modify_bind.2 (Code.wp_read_bind.2 (Code.wp_bind ?_))
  -- the token is called with the payout marked; what it calls back changes nothing
  refine Code.wp_request_bind.2 fun answer s' guards => ?_
  refine Code.wp_inherit.2 ⟨fun _ ok => ?_, fun _ _ => nofun⟩
  obtain ⟨entered', same⟩ := guards.within entered
  rintro id -
  refine ⟨entered', books.leg (t := ⟨f, token, s.storage.funder, recipient, amount, answer,
    markPayout s.storage _⟩) unpaid same ⟨admitted, rfl, oz.successful_of_checkAnswer ok⟩
    ⟨rfl, rfl, rfl, rfl, rfl⟩⟩

/-- Paying the legs pays one payout each. -/
lemma wp_payLegs {batchId batchRef : Word} {token : Address} {metadata : Bytes} {i : Nat}
    {legs : List (Address × Word)} {total : Word} (admitted : Admitted f token)
    (entered : inherits.Entered s) (books : Books pending s) :
    (payLegs keccak256 batchId batchRef token metadata i legs total).wp Guards f (Pays pending) s := by
  induction legs generalizing i total s with
  | nil => exact fun _ _ => ⟨entered, books⟩
  | cons leg legs ih =>
    refine Code.wp_bind (Code.wp_mono (fun r s' pays => ?_) (wp_execute admitted entered books))
    cases r with
    | error e => exact nofun
    | ok id =>
      obtain ⟨entered, books⟩ := pays id rfl
      refine Code.wp_bind (Code.wp_require_bind.2 ⟨fun _ => ?_, fun _ => nofun⟩)
      exact ih entered books

/-- What follows the check starts where the caller is an operator. -/
lemma wp_onlyOperator {α : Type} {k : Unit → Fn oz α}
    {Q : Except (Error oz) α → Account (abi oz) → Prop} (error : ∀ e s, Q (.error e) s)
    (ok : s.storage.operators sender = true → (k ()).wp Guards f Q s) :
    (onlyOperator sender >>= k).wp Guards f Q s := by
  refine Code.wp_bind (Code.wp_read_bind.2 (Code.wp_require.2 ⟨ok, fun _ => error _ _⟩))

/-- A guarded function that has paid. -/
lemma books_returned {b : oz.Base} (books : Books none s) :
    Books none ((inherits.rebase s b).note f .returned) := by
  have released : Same s (inherits.rebase s b) := .write rfl rfl
  exact books.same (released.trans (.note rfl rfl rfl))

/-- `payout` keeps the books. -/
lemma wp_payout {payoutRef : Word} {token recipient : Address} {amount : Word} {metadata : Bytes}
    (call : f.call = .payout payoutRef token recipient amount metadata) (entry : f.entry = s.storage)
    (books : Books none s) :
    (payout keccak256 f.sender payoutRef token recipient amount metadata).wp Guards f
      ((discipline oz).Settles f) s := by
  refine wp_onlyOperator (fun _ _ => nofun) fun operator => ?_
  refine Discipline.wp_nonReentrant books fun b _ entered paused books => ?_
  refine Discipline.wp_whenNotPaused (fun _ _ => nofun) fun unpaused => ?_
  refine Code.wp_read_bind.2 (Code.wp_require_bind.2 ⟨fun supported => ?_, fun _ => nofun⟩)
  have admitted : Admitted f token := by
    refine ⟨.inl ⟨payoutRef, recipient, amount, metadata, call⟩, ?_, ?_, ?_⟩
    · rw [entry]
      exact operator
    · rw [entry]
      exact supported
    · rw [entry]
      exact paused.symm.trans unpaused
  refine Code.wp_mono (fun r s' pays a ok b' => ?_) (wp_execute admitted entered books)
  exact books_returned (pays a ok).2

/-- A batch begins. -/
lemma Books.begin {b : Word} (books : Books none s) (new : s.storage.batchExecuted b = false) :
    Books (some b) { s with storage := { s.storage with
      batchExecuted := Function.update s.storage.batchExecuted b true } } where
  reported := books.reported
  inOrder := books.inOrder
  payoutFlags := books.payoutFlags
  payoutOnce := books.payoutOnce
  batchFlags b' := by
    have flags := books.batchFlags b'
    by_cases h : b' = b
    · simp [h]
    · simpa [h, Ne.symm h] using flags
  batchOnce := books.batchOnce
  pendingNew b' eq := by
    obtain rfl := Option.some.inj eq
    intro mem
    simp [(books.batchFlags b).2 (.inl mem)] at new

/-- A batch ends. -/
lemma Books.finish {e : BatchExecuted} (books : Books (some e.batchId) s) :
    Books none (s.note f (.event (.batchExecuted e))) := by
  have asked : transfers (s.note f (.event (.batchExecuted e))).journal = transfers s.journal :=
    transfers_note.trans (List.append_nil _)
  have paid : payouts (s.note f (.event (.batchExecuted e))).journal = payouts s.journal :=
    payouts_note.trans (List.append_nil _)
  have batched : batchIds (s.note f (.event (.batchExecuted e))).journal =
      batchIds s.journal ++ [e.batchId] := batchIds_note
  refine ⟨?_, ?_, fun id => ?_, ?_, fun b => ?_, ?_, nofun⟩
  · rw [asked, paid]
    exact books.reported
  · rw [asked]
    exact books.inOrder
  · rw [payoutIds, paid]
    exact books.payoutFlags id
  · rw [payoutIds, paid]
    exact books.payoutOnce
  · rw [batched]
    refine (books.batchFlags b).trans ?_
    simp [eq_comm]
  · rw [batched]
    exact List.nodup_append_comm.1
      (List.nodup_cons.2 ⟨books.pendingNew _ rfl, books.batchOnce⟩)

/-- `payoutBatch` keeps the books. -/
lemma wp_payoutBatch {batchRef : Word} {token : Address} {recipients : List Address}
    {amounts : List Word} {metadata : Bytes}
    (call : f.call = .payoutBatch batchRef token recipients amounts metadata)
    (entry : f.entry = s.storage) (books : Books none s) :
    (payoutBatch keccak256 f.sender batchRef token recipients amounts metadata).wp Guards f
      ((discipline oz).Settles f) s := by
  refine wp_onlyOperator (fun _ _ => nofun) fun operator => ?_
  refine Discipline.wp_nonReentrant books fun b _ entered paused books => ?_
  refine Discipline.wp_whenNotPaused (fun _ _ => nofun) fun unpaused => ?_
  refine Code.wp_require_bind.2 ⟨fun _ => ?_, fun _ => nofun⟩
  refine Code.wp_read_bind.2 (Code.wp_require_bind.2 ⟨fun supported => ?_, fun _ => nofun⟩)
  refine Code.wp_require_bind.2 ⟨fun _ => ?_, fun _ => nofun⟩
  refine Code.wp_require_bind.2 ⟨fun _ => ?_, fun _ => nofun⟩
  refine Code.wp_require_bind.2 ⟨fun _ => ?_, fun _ => nofun⟩
  refine Code.wp_read_bind.2 (Code.wp_require_bind.2 ⟨fun new => ?_, fun _ => nofun⟩)
  have admitted : Admitted f token := by
    refine ⟨.inr ⟨batchRef, recipients, amounts, metadata, call⟩, ?_, ?_, ?_⟩
    · rw [entry]
      exact operator
    · rw [entry]
      exact supported
    · rw [entry]
      exact paused.symm.trans unpaused
  refine Code.wp_modify_bind.2 (Code.wp_bind (Code.wp_mono (fun r s' pays => ?_)
    (wp_payLegs admitted entered (books.begin new))))
  cases r with
  | error e => exact nofun
  | ok total => exact fun _ _ _ => books_returned (pays total rfl).2.finish

end

/-! ## Every run -/

variable {keccak256 : List Word → Word}

/-- Every call keeps the books, whatever is called back. -/
theorem guarantee : Guarantee (contract keccak256 : Contract (abi oz)) Guards where
  refl _ := .refl
  trans := .trans
  call m s := by
    have returned : ∀ s', Same s' (s'.note (m.frame s) .returned) := fun _ => .note rfl rfl rfl
    unfold contract
    split
    case h_1 => exact Discipline.guards_of_administers returned wp_setFunder
    case h_2 => exact Discipline.guards_of_administers returned wp_setOperator
    case h_3 => exact Discipline.guards_of_administers returned wp_setTokenSupported
    case h_4 =>
      exact Discipline.guards_of_administers returned
        (Discipline.wp_onlyOwner (fun _ _ => nofun) (Discipline.wp_inheritedFn oz.entered_pause))
    case h_5 =>
      exact Discipline.guards_of_administers returned
        (Discipline.wp_onlyOwner (fun _ _ => nofun) (Discipline.wp_inheritedFn oz.entered_unpause))
    case h_6 =>
      exact Discipline.guards_of_administers returned (Discipline.wp_inheritedFn oz.entered_inherited)
    case h_7 payoutRef token recipient amount metadata call =>
      exact Discipline.guards_of_settles (wp_payout call rfl) fun entered =>
        wp_onlyOperator (fun _ _ => nofun) fun _ => Discipline.wp_nonReentrant_of_entered entered
    case h_8 batchRef token recipients amounts metadata call =>
      exact Discipline.guards_of_settles (wp_payoutBatch call rfl) fun entered =>
        wp_onlyOperator (fun _ _ => nofun) fun _ => Discipline.wp_nonReentrant_of_entered entered

/-- A new vault has empty books. -/
lemma books_construct {initialOwner initialFunder : Address} {s : Account (abi oz)}
    (init : construct oz initialOwner initialFunder = .ok s) :
    ¬inherits.Entered s ∧ Books none s := by
  unfold construct at init
  split at init
  case h_1 => cases init
  case h_2 base new =>
    split at init
    case isTrue => cases init
    case isFalse =>
      cases init
      refine ⟨fun entered => ?_, .nil, nofun, fun id => ?_, .nil, fun b => ?_, .nil, nofun⟩
      · exact absurd (entered.symm.trans (oz.entered_construct new)) nofun
      · exact ⟨nofun, nofun⟩
      · exact ⟨nofun, fun h => h.elim nofun nofun⟩

/-- The vault pays each payout and each batch at most once, and only what it reports: its
    `PayoutExecuted` events correspond, one to one and in order, to its `transferFrom` calls, all of
    which a token carried out, from the funder of that moment, in a payout that an operator entered
    with the token supported and the vault unpaused. -/
theorem executed_once {initialOwner initialFunder : Address} {s₀ s : Account (abi oz)}
    {ts : List (Transaction (abi oz))} (init : construct oz initialOwner initialFunder = .ok s₀)
    (ran : run (contract keccak256) s₀ ts = s) :
    List.Forall₂ Reports (transfers s.journal) (payouts s.journal) ∧
      (∀ t ∈ transfers s.journal, InOrder t) ∧
        (∀ id, s.storage.payoutExecuted id = true ↔ (payoutIds s.journal).count id = 1) ∧
          (payoutIds s.journal).Nodup ∧
            (∀ b, s.storage.batchExecuted b = true ↔ (batchIds s.journal).count b = 1) ∧
              (batchIds s.journal).Nodup := by
  subst ran
  obtain ⟨free, books⟩ := books_construct init
  obtain ⟨-, books⟩ := (guarantee.run s₀ ts).outside free books
  refine ⟨books.reported, books.inOrder, fun id => ?_, books.payoutOnce, fun b => ?_, books.batchOnce⟩
  · rw [books.payoutFlags id, books.payoutOnce.count]
    split <;> simp [*]
  · rw [books.batchFlags b, books.batchOnce.count]
    split <;> simp [*]

/-- The hash of the payout of the concrete run. -/
def sampleHash (_ : List Word) : Word :=
  0x515c89e150dc5989b2ce2d046bbfde944d6d9c1ebfd47cb722ebe9985e374de0

/-- The owner admits operator 3 and token 4; the operator pays account 5; the token first calls the
    vault back as the operator, in vain, and then carries the transfer out. A replay reverts. -/
def sampleTransactions : List (Transaction (abi .standard)) :=
  [⟨⟨1, 0, .setOperator 3 true⟩, 1, []⟩, ⟨⟨1, 0, .setTokenSupported 4 true⟩, 1, []⟩,
    ⟨⟨3, 1, .payout 1 4 5 1000000 []⟩, 2,
      [.handles [(3, .payout 1 4 5 1000000 [], [.handles [] (some (.word 1))])] (some (.word 1))]⟩,
    ⟨⟨3, 2, .payout 1 4 5 1000000 []⟩, 2, [.handles [] (some (.word 1))]⟩]

/-- The state after these transactions. -/
def sampleState : Account (abi .standard) :=
  run (contract sampleHash) sampleVault sampleTransactions

/-- One payout, once. -/
theorem executed_once_of_payout : payoutIds sampleState.journal = [sampleHash []] ∧
    List.Forall₂ Reports (transfers sampleState.journal) (payouts sampleState.journal) ∧
      (∀ t ∈ transfers sampleState.journal, InOrder t) ∧
        (∀ id, sampleState.storage.payoutExecuted id = true ↔
          (payoutIds sampleState.journal).count id = 1) ∧
          (payoutIds sampleState.journal).Nodup ∧
            (∀ b, sampleState.storage.batchExecuted b = true ↔
              (batchIds sampleState.journal).count b = 1) ∧
              (batchIds sampleState.journal).Nodup := by
  have init : construct .standard 1 2 = .ok sampleVault := rfl
  exact ⟨by decide, executed_once init rfl⟩

end AvaSettle.Contracts.SettlementVault
