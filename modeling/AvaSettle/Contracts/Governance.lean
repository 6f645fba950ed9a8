import AvaSettle.Contracts.Authority
import AvaSettle.Contracts.PaymentRouter
import AvaSettle.Contracts.PrivateSettlementRegistry
import AvaSettle.Contracts.SettlementVault

/-!
# How the contracts are governed

Each of the three contracts keeps to a government: whatever the callers and the tokens do, its events
say how it is configured, only the owner of the moment has configured or paused it, and ownership does
not leave a circle of accounts that nominate only each other. Of the router the same holds for what it
holds itself: tokens leave it only on the owner's command.
-/

namespace AvaSettle.Contracts
open Evm

variable {oz : OpenZeppelin}

/-! ## SettlementVault -/

namespace SettlementVault

/-- The configuration of the vault. -/
structure Config where
  funder : Address
  operators : Address → Bool
  supportedTokens : Address → Bool

/-- How the vault is governed. -/
def government (O : Ownership oz) : Government oz (abi oz) Config where
  inherits := inherits
  ownership := O
  command
    | .setFunder _ => .owned
    | .setOperator _ _ => .owned
    | .setTokenSupported _ _ => .owned
    | .pause => .pause
    | .unpause => .unpause
    | .inherited i => .inherited i
    | .payout .. => .other
    | .payoutBatch .. => .other
  config s := ⟨s.funder, s.operators, s.supportedTokens⟩
  change
    | .funderUpdated _ newFunder => some fun c => { c with funder := newFunder }
    | .operatorUpdated operator allowed => some fun c =>
      { c with operators := Function.update c.operators operator allowed }
    | .tokenSupportUpdated token supported => some fun c =>
      { c with supportedTokens := Function.update c.supportedTokens token supported }
    | .payoutExecuted _ => none
    | .batchExecuted _ => none
    | .inherited _ => none
  reserved _ := none
  config_setBase _ _ := rfl
  inherited_event _ := rfl

section
variable {O : Ownership oz} {keccak256 : List Word → Word} {s s₁ : Account (abi oz)}
  {f : Frame (abi oz)}

/-- A payout changes flags only. -/
lemma keeps_execute {batchId payoutRef : Word} {token recipient : Address} {amount : Word}
    {metadata : Bytes} (keeps : (government O).Keeps s s₁) (began : Rule.Began f s) :
    (execute keccak256 batchId payoutRef token recipient amount metadata).wp (government O).Keeps f
      (fun r s' => ∀ a, r = .ok a → (government O).Keeps s s') s₁ := by
  unfold execute
  refine Code.wp_require_bind.2 ⟨fun _ => ?_, fun _ _ eq => by cases eq⟩
  refine Code.wp_require_bind.2 ⟨fun _ => ?_, fun _ _ eq => by cases eq⟩
  refine Code.wp_require_bind.2 ⟨fun _ => ?_, fun _ _ eq => by cases eq⟩
  refine Code.wp_read_bind.2 (Code.wp_require_bind.2 ⟨fun _ => ?_, fun _ _ eq => by cases eq⟩)
  refine Code.wp_modify_bind.2 (Code.wp_read_bind.2 (Code.wp_bind ?_))
  refine Code.wp_request_bind.2 fun answer s₂ called => ?_
  refine Code.wp_inherit.2 ⟨fun _ _ _ _ => ?_, fun _ _ _ eq => by cases eq⟩
  have back : (government O).Keeps s s₂ := (keeps.write (by exact rfl)).trans called
  exact Government.keeps_event (Government.keeps_asked back began fun _ h => by cases h) began rfl

/-- Paying the legs keeps the replay. -/
lemma keeps_payLegs {batchId batchRef : Word} {token : Address} {metadata : Bytes} {i : Nat}
    {legs : List (Address × Word)} {total : Word} (keeps : (government O).Keeps s s₁)
    (began : Rule.Began f s) :
    (payLegs keccak256 batchId batchRef token metadata i legs total).wp (government O).Keeps f
      (fun r s' => ∀ a, r = .ok a → (government O).Keeps s s') s₁ := by
  induction legs generalizing i total s₁ with
  | nil => exact fun _ _ => keeps
  | cons leg legs ih =>
    refine Code.wp_bind (Code.wp_mono (fun r s' paid => ?_) (keeps_execute keeps began))
    cases r with
    | error e =>
      intro _ eq
      cases eq
    | ok id =>
      refine Code.wp_bind (Code.wp_require_bind.2 ⟨fun _ => ?_, fun _ _ eq => by cases eq⟩)
      exact ih (paid id rfl)

/-- What follows the check of the operator keeps the replay. -/
lemma keeps_onlyOperator {α : Type} {k : Unit → Fn oz α}
    (ok : (k ()).wp (government O).Keeps f (fun r s' => ∀ a, r = .ok a → (government O).Keeps s s') s₁) :
    (onlyOperator f.sender >>= k).wp (government O).Keeps f
      (fun r s' => ∀ a, r = .ok a → (government O).Keeps s s') s₁ :=
  Code.wp_bind (Code.wp_read_bind.2 (Code.wp_require.2 ⟨fun _ => ok, fun _ _ eq => by cases eq⟩))

/-- `payout` keeps the replay. -/
lemma keeps_payout {payoutRef : Word} {token recipient : Address} {amount : Word} {metadata : Bytes}
    (keeps : (government O).Keeps s s₁) (began : Rule.Began f s) :
    (payout keccak256 f.sender payoutRef token recipient amount metadata).wp (government O).Keeps f
      (fun r s' => ∀ a, r = .ok a → (government O).Keeps s s') s₁ := by
  refine keeps_onlyOperator (Government.wp_nonReentrant keeps fun s₂ keeps => ?_)
  refine Government.wp_whenNotPaused (fun _ _ _ eq => by cases eq) ?_
  refine Code.wp_read_bind.2 (Code.wp_require_bind.2 ⟨fun _ => ?_, fun _ _ eq => by cases eq⟩)
  exact keeps_execute keeps began

/-- `payoutBatch` keeps the replay. -/
lemma keeps_payoutBatch {batchRef : Word} {token : Address} {recipients : List Address}
    {amounts : List Word} {metadata : Bytes} (keeps : (government O).Keeps s s₁)
    (began : Rule.Began f s) :
    (payoutBatch keccak256 f.sender batchRef token recipients amounts metadata).wp (government O).Keeps
      f (fun r s' => ∀ a, r = .ok a → (government O).Keeps s s') s₁ := by
  refine keeps_onlyOperator (Government.wp_nonReentrant keeps fun s₂ keeps => ?_)
  refine Government.wp_whenNotPaused (fun _ _ _ eq => by cases eq) ?_
  refine Code.wp_require_bind.2 ⟨fun _ => ?_, fun _ _ eq => by cases eq⟩
  refine Code.wp_read_bind.2 (Code.wp_require_bind.2 ⟨fun _ => ?_, fun _ _ eq => by cases eq⟩)
  refine Code.wp_require_bind.2 ⟨fun _ => ?_, fun _ _ eq => by cases eq⟩
  refine Code.wp_require_bind.2 ⟨fun _ => ?_, fun _ _ eq => by cases eq⟩
  refine Code.wp_require_bind.2 ⟨fun _ => ?_, fun _ _ eq => by cases eq⟩
  refine Code.wp_read_bind.2 (Code.wp_require_bind.2 ⟨fun _ => ?_, fun _ _ eq => by cases eq⟩)
  have begun : (government O).Keeps s { s₂ with storage := { s₂.storage with
      batchExecuted := Function.update s₂.storage.batchExecuted (keccak256 [batchRef, token.word]) true } } :=
    keeps.write rfl
  refine Code.wp_modify_bind.2 (Code.wp_bind (Code.wp_mono (fun r s' paid => ?_)
    (keeps_payLegs begun began)))
  cases r with
  | error e =>
    intro _ eq
    cases eq
  | ok total => exact fun _ _ => Government.keeps_event (paid total rfl) began rfl

end

/-- Every call of the vault keeps to the government, whatever is called back. -/
theorem keeps_guarantee {O : Ownership oz} {keccak256 : List Word → Word} :
    Guarantee (contract keccak256 : Contract (abi oz)) (government O).Keeps where
  refl _ := .refl
  trans := .trans
  call m s := by
    have began : Rule.Began (m.frame s) s := Rule.began_frame
    have entered : (government O).Keeps s (s.note (m.frame s) .entered) :=
      Government.keeps_entered began
    unfold contract
    split
    case h_1 call =>
      refine Government.wp_onlyOwner rfl (fun _ _ eq => by cases eq) fun owner => ?_
      refine Code.wp_require_bind.2 ⟨fun _ _ => ?_, fun _ eq => by cases eq⟩
      exact Government.keeps_command entered began ⟨congrArg _ call, owner⟩ rfl rfl
    case h_2 call =>
      refine Government.wp_onlyOwner rfl (fun _ _ eq => by cases eq) fun owner => ?_
      refine Code.wp_require_bind.2 ⟨fun _ _ => ?_, fun _ eq => by cases eq⟩
      exact Government.keeps_command entered began ⟨congrArg _ call, owner⟩ rfl rfl
    case h_3 call =>
      refine Government.wp_onlyOwner rfl (fun _ _ eq => by cases eq) fun owner => ?_
      refine Code.wp_require_bind.2 ⟨fun _ _ => ?_, fun _ eq => by cases eq⟩
      exact Government.keeps_command entered began ⟨congrArg _ call, owner⟩ rfl rfl
    case h_4 call => exact Government.wp_pause entered rfl began (congrArg _ call)
    case h_5 call => exact Government.wp_unpause entered rfl began (congrArg _ call)
    case h_6 call => exact Government.wp_ownership entered rfl began (congrArg _ call)
    case h_7 call => exact Government.wp_other began (congrArg _ call) (keeps_payout entered began)
    case h_8 call =>
      exact Government.wp_other began (congrArg _ call) (keeps_payoutBatch entered began)

/-- The vault is governed by its owner: owner, pause, funder, operators and supported tokens are what
    the journal says, from the first owner on; and whatever circle of accounts the first owner belongs
    to, as long as its members nominate only each other, every owner is one of them, and so is whoever
    has paused, configured or handed over the vault. -/
theorem vault_governed (O : Ownership oz) {keccak256 : List Word → Word}
    {initialOwner initialFunder : Address} {s₀ s : Account (abi oz)} {ts : List (Transaction (abi oz))}
    (init : construct oz initialOwner initialFunder = .ok s₀)
    (ran : run (contract keccak256) s₀ ts = s) :
    (government O).rule.view s.storage = (government O).rule.replay s.journal
        (⟨initialOwner, 0, false⟩, ⟨initialFunder, fun _ => false, fun _ => false⟩) ∧
      ∀ S : Set Address, initialOwner ∈ S → 0 ∈ S → (government O).NominateWithin S s.journal →
        ((government O).offices s.storage).owner ∈ S ∧
          ∀ r ∈ s.journal, (government O).Governs r → r.frame.sender ∈ S := by
  subst ran
  have first : s₀.journal = [] ∧ (government O).rule.view s₀.storage =
      (⟨initialOwner, 0, false⟩, ⟨initialFunder, fun _ => false, fun _ => false⟩) := by
    unfold construct at init
    split at init
    case h_1 => cases init
    case h_2 base new =>
      split at init
      case isTrue => cases init
      case isFalse =>
        cases init
        exact ⟨rfl, Prod.ext (O.construct new) rfl⟩
  obtain ⟨view, lawful⟩ := Rule.replay_run
    (keeps_guarantee : Guarantee (contract keccak256) (government O).Keeps) first.1 ts
  rw [first.2] at view lawful
  refine ⟨view, fun S member zero nominate => ?_⟩
  obtain ⟨within, senders⟩ := Government.within_of_lawful lawful ⟨member, zero⟩ zero nominate
  rw [← view] at within
  exact ⟨within.owner, senders⟩

/-- The owner 1 nominates account 6, which accepts; the former owner fails to set the funder, and the
    new one sets it. -/
def handover : List (Transaction (abi .standard)) :=
  [⟨⟨1, 0, .inherited (.transferOwnership 6)⟩, 1, []⟩, ⟨⟨6, 0, .inherited .acceptOwnership⟩, 1, []⟩,
    ⟨⟨1, 0, .setFunder 9⟩, 1, []⟩, ⟨⟨6, 0, .setFunder 7⟩, 1, []⟩]

/-- The vault after the handover. -/
def handedOver : Account (abi .standard) := run (contract fun _ => 0) sampleVault handover

/-- The owner of the vault hands it over, and the replay of the journal shows it. -/
theorem vault_governed_handover : ((government .standard).offices handedOver.storage).owner = 6 ∧
    (government .standard).rule.view handedOver.storage = (government .standard).rule.replay
      handedOver.journal (⟨1, 0, false⟩, ⟨2, fun _ => false, fun _ => false⟩) ∧
      ((government .standard).offices handedOver.storage).owner ∈ ({0, 1, 6} : Set Address) ∧
        ∀ r ∈ handedOver.journal, (government .standard).Governs r →
          r.frame.sender ∈ ({0, 1, 6} : Set Address) := by
  have init : construct .standard 1 2 = .ok sampleVault := rfl
  have ran : run (contract fun _ => 0) sampleVault handover = handedOver := rfl
  have governed := vault_governed .standard init ran
  refine ⟨by decide, governed.1, governed.2 {0, 1, 6} (by simp) (by simp) ?_⟩
  intro f mem _ i newOwner command kind
  have called : f.call ∈ handedOver.journal.map fun r => r.frame.call :=
    List.mem_map_of_mem (f := fun r : Record (abi .standard) => r.frame.call) mem
  have calls : (handedOver.journal.map fun r => r.frame.call) =
      [.inherited (.transferOwnership 6), .inherited (.transferOwnership 6),
        .inherited (.transferOwnership 6), .inherited .acceptOwnership, .inherited .acceptOwnership,
        .inherited .acceptOwnership, .setFunder 7, .setFunder 7, .setFunder 7] := rfl
  rw [calls] at called
  simp only [List.mem_cons, List.not_mem_nil, or_false] at called
  rcases called with eq | eq | eq | eq | eq | eq | eq | eq | eq
  all_goals
    rw [eq] at command
    cases command
  all_goals
    cases kind
  all_goals simp

end SettlementVault

/-! ## PaymentRouter -/

namespace PaymentRouter

/-- The configuration of the router. -/
structure Config where
  treasury : Address
  supportedTokens : Address → Bool
  minAmount : Address → Word

/-- How the router is governed: what it holds itself is only sent by its owner. -/
def government (O : Ownership oz) : Government oz (abi oz) Config where
  inherits := inherits
  ownership := O
  command
    | .setTreasury _ => .owned
    | .setTokenSupported .. => .owned
    | .pause => .pause
    | .unpause => .unpause
    | .emergencyWithdraw .. => .owned
    | .inherited i => .inherited i
    | .payInvoice .. => .other
    | .payInvoiceWithPermit .. => .other
    | .payInvoiceWithExpiry .. => .other
  config s := ⟨s.treasury, s.supportedTokens, s.minAmount⟩
  change
    | .treasuryUpdated _ newTreasury => some fun c => { c with treasury := newTreasury }
    | .tokenSupportUpdated token supported => some fun c =>
      { c with supportedTokens := Function.update c.supportedTokens token supported }
    | .minAmountUpdated token minimum => some fun c =>
      { c with minAmount := Function.update c.minAmount token minimum }
    | .invoicePaid _ => none
    | .emergencyWithdraw .. => none
    | .inherited _ => none
  reserved
    | .transfer token recipient amount => some (.emergencyWithdraw token recipient amount)
    | .transferFrom .. => none
    | .permit .. => none
  config_setBase _ _ := rfl
  inherited_event _ := rfl

section
variable {O : Ownership oz} {keccak256 : List Word → Word} {self : Address} {s s₁ : Account (abi oz)}
  {f : Frame (abi oz)}

/-- A payment changes a flag only. -/
lemma keeps_settle {sender : Address} {invoiceId invoiceRef : Word} {token : Address} {amount : Word}
    {metadata : Bytes} (keeps : (government O).Keeps s s₁) (began : Rule.Began f s) :
    (settle sender invoiceId invoiceRef token amount metadata).wp (government O).Keeps f
      (fun r s' => ∀ a, r = .ok a → (government O).Keeps s s') s₁ := by
  unfold settle
  refine Code.wp_require_bind.2 ⟨fun _ => ?_, fun _ _ eq => by cases eq⟩
  refine Code.wp_require_bind.2 ⟨fun _ => ?_, fun _ _ eq => by cases eq⟩
  refine Code.wp_read_bind.2 (Code.wp_require_bind.2 ⟨fun _ => ?_, fun _ _ eq => by cases eq⟩)
  refine Code.wp_require_bind.2 ⟨fun _ => ?_, fun _ _ eq => by cases eq⟩
  refine Code.wp_read_bind.2 (Code.wp_require_bind.2 ⟨fun _ => ?_, fun _ _ eq => by cases eq⟩)
  refine Code.wp_read_bind.2 (Code.wp_require_bind.2 ⟨fun _ => ?_, fun _ _ eq => by cases eq⟩)
  refine Code.wp_modify_bind.2 (Code.wp_read_bind.2 (Code.wp_bind ?_))
  refine Code.wp_request_bind.2 fun answer s₂ called => ?_
  refine Code.wp_inherit.2 ⟨fun _ _ _ _ => ?_, fun _ _ _ eq => by cases eq⟩
  have back : (government O).Keeps s s₂ := (keeps.write (by exact rfl)).trans called
  exact Government.keeps_event (Government.keeps_asked back began fun _ h => by cases h) began rfl

/-- `payInvoice` keeps the replay. -/
lemma keeps_payInvoice {invoiceRef : Word} {token : Address} {amount : Word} {metadata : Bytes}
    (keeps : (government O).Keeps s s₁) (began : Rule.Began f s) :
    (payInvoice keccak256 f.sender invoiceRef token amount metadata).wp (government O).Keeps f
      (fun r s' => ∀ a, r = .ok a → (government O).Keeps s s') s₁ := by
  refine Government.wp_nonReentrant keeps fun s₂ keeps => ?_
  exact Government.wp_whenNotPaused (fun _ _ _ eq => by cases eq) (keeps_settle keeps began)

/-- `payInvoiceWithPermit` keeps the replay. -/
lemma keeps_payInvoiceWithPermit {invoiceRef : Word} {token : Address} {amount : Word}
    {metadata : Bytes} {deadline : Word} {v : UInt8} {r s' : Word}
    (keeps : (government O).Keeps s s₁) (began : Rule.Began f s) :
    (payInvoiceWithPermit keccak256 self f.sender invoiceRef token amount metadata deadline v r s').wp
      (government O).Keeps f (fun r s' => ∀ a, r = .ok a → (government O).Keeps s s') s₁ := by
  refine Government.wp_nonReentrant keeps fun s₂ keeps => ?_
  refine Government.wp_whenNotPaused (fun _ _ _ eq => by cases eq) ?_
  refine Code.wp_request_bind.2 fun answer s₃ called => ?_
  refine Code.wp_require_bind.2 ⟨fun _ => ?_, fun _ _ eq => by cases eq⟩
  exact keeps_settle (Government.keeps_asked (keeps.trans called) began fun _ h => by cases h) began

/-- `payInvoiceWithExpiry` keeps the replay. -/
lemma keeps_payInvoiceWithExpiry {now : Nat} {invoiceRef : Word} {token : Address}
    {amount deadline : Word} {metadata : Bytes} (keeps : (government O).Keeps s s₁)
    (began : Rule.Began f s) :
    (payInvoiceWithExpiry keccak256 f.sender now invoiceRef token amount deadline metadata).wp
      (government O).Keeps f (fun r s' => ∀ a, r = .ok a → (government O).Keeps s s') s₁ := by
  refine Government.wp_nonReentrant keeps fun s₂ keeps => ?_
  refine Government.wp_whenNotPaused (fun _ _ _ eq => by cases eq) ?_
  refine Code.wp_require_bind.2 ⟨fun _ => ?_, fun _ _ eq => by cases eq⟩
  exact keeps_settle keeps began

/-- What is withdrawn is withdrawn by the owner. -/
lemma keeps_emergencyWithdraw {token recipient : Address} {amount : Word}
    (keeps : (government O).Keeps s s₁) (entry : s₁.storage = f.entry) (began : Rule.Began f s)
    (call : f.call = .emergencyWithdraw token recipient amount) :
    (emergencyWithdraw f.sender token recipient amount).wp (government O).Keeps f
      (fun r s' => r = .ok () → (government O).Keeps s (s'.note f .returned)) s₁ := by
  refine Government.wp_onlyOwner (G := government O) entry (fun _ _ eq => by cases eq) fun owner => ?_
  have owned : (government O).Owned f := ⟨congrArg _ call, owner⟩
  refine Code.wp_require_bind.2 ⟨fun _ => ?_, fun _ eq => by cases eq⟩
  refine Code.wp_require_bind.2 ⟨fun _ => ?_, fun _ eq => by cases eq⟩
  refine Code.wp_bind (Code.wp_request_bind.2 fun answer s₂ called => ?_)
  refine Code.wp_inherit.2 ⟨fun _ _ _ => ?_, fun _ _ eq => by cases eq⟩
  have asked : (government O).Keeps s
      (s₂.note f (.asked (.transfer token recipient amount) answer s₁.storage)) :=
    Government.keeps_asked (keeps.trans called) began fun _ reserved =>
      ⟨call.trans (Option.some.inj reserved), owned⟩
  exact Government.keeps_returned_owned (Government.keeps_event asked began rfl) began owned

end

/-- Every call of the router keeps to the government, whatever is called back. -/
theorem keeps_guarantee {O : Ownership oz} {keccak256 : List Word → Word} {self : Address} :
    Guarantee (contract keccak256 self : Contract (abi oz)) (government O).Keeps where
  refl _ := .refl
  trans := .trans
  call m s := by
    have began : Rule.Began (m.frame s) s := Rule.began_frame
    have entered : (government O).Keeps s (s.note (m.frame s) .entered) :=
      Government.keeps_entered began
    unfold contract
    split
    case h_1 call =>
      refine Government.wp_onlyOwner rfl (fun _ _ eq => by cases eq) fun owner => ?_
      refine Code.wp_require_bind.2 ⟨fun _ _ => ?_, fun _ eq => by cases eq⟩
      exact Government.keeps_command entered began ⟨congrArg _ call, owner⟩ rfl rfl
    case h_2 token supported minimum call =>
      refine Government.wp_onlyOwner rfl (fun _ _ eq => by cases eq) fun owner => ?_
      refine Code.wp_require_bind.2 ⟨fun _ _ => ?_, fun _ eq => by cases eq⟩
      have owned : (government O).Owned (m.frame s) := ⟨congrArg _ call, owner⟩
      -- both maps are written before the first event
      have lawful : ∀ item ∈ [Item.event (Event.tokenSupportUpdated token supported),
          Item.event (Event.minAmountUpdated token minimum)],
            (government O).rule.lawful ⟨m.frame s, item⟩ := by
        intro item mem
        simp only [List.mem_cons, List.not_mem_nil, or_false] at mem
        rcases mem with rfl | rfl
        · exact fun _ => owned
        · exact fun _ => owned
      have both : (government O).Keeps s ⟨{ s.storage with
          supportedTokens := Function.update s.storage.supportedTokens token supported
          minAmount := Function.update s.storage.minAmount token minimum }, _⟩ :=
        entered.add _ began lawful rfl
      have returned := Government.keeps_returned_owned both began owned
      simpa [Account.note] using returned
    case h_3 call => exact Government.wp_pause entered rfl began (congrArg _ call)
    case h_4 call => exact Government.wp_unpause entered rfl began (congrArg _ call)
    case h_5 call => exact keeps_emergencyWithdraw entered rfl began call
    case h_6 call => exact Government.wp_ownership entered rfl began (congrArg _ call)
    case h_7 call => exact Government.wp_other began (congrArg _ call) (keeps_payInvoice entered began)
    case h_8 call =>
      exact Government.wp_other began (congrArg _ call) (keeps_payInvoiceWithPermit entered began)
    case h_9 call =>
      exact Government.wp_other began (congrArg _ call) (keeps_payInvoiceWithExpiry entered began)

/-- The router is governed by its owner, as the vault is; and the tokens it holds leave it only in an
    `emergencyWithdraw` of just these tokens that an owner from the circle has called. -/
theorem router_governed (O : Ownership oz) {keccak256 : List Word → Word}
    {self initialOwner initialTreasury : Address} {s₀ s : Account (abi oz)}
    {ts : List (Transaction (abi oz))} (init : construct oz initialOwner initialTreasury = .ok s₀)
    (ran : run (contract keccak256 self) s₀ ts = s) :
    (government O).rule.view s.storage = (government O).rule.replay s.journal
        (⟨initialOwner, 0, false⟩, ⟨initialTreasury, fun _ => false, fun _ => 0⟩) ∧
      ∀ S : Set Address, initialOwner ∈ S → 0 ∈ S → (government O).NominateWithin S s.journal →
        ((government O).offices s.storage).owner ∈ S ∧
          (∀ r ∈ s.journal, (government O).Governs r → r.frame.sender ∈ S) ∧
            ∀ f token recipient amount answer v,
              ⟨f, .asked (.transfer token recipient amount) answer v⟩ ∈ s.journal →
                f.call = .emergencyWithdraw token recipient amount ∧ f.sender ∈ S ∧
                  (government O).Owned f := by
  subst ran
  have first : s₀.journal = [] ∧ (government O).rule.view s₀.storage =
      (⟨initialOwner, 0, false⟩, ⟨initialTreasury, fun _ => false, fun _ => 0⟩) := by
    unfold construct at init
    split at init
    case h_1 => cases init
    case h_2 base new =>
      split at init
      case isTrue => cases init
      case isFalse =>
        cases init
        exact ⟨rfl, Prod.ext (O.construct new) rfl⟩
  obtain ⟨view, lawful⟩ := Rule.replay_run
    (keeps_guarantee : Guarantee (contract keccak256 self) (government O).Keeps) first.1 ts
  rw [first.2] at view lawful
  refine ⟨view, fun S member zero nominate => ?_⟩
  obtain ⟨within, senders⟩ := Government.within_of_lawful lawful ⟨member, zero⟩ zero nominate
  rw [← view] at within
  refine ⟨within.owner, senders, fun f token recipient amount answer v mem => ?_⟩
  obtain ⟨n, lt, eq⟩ := List.getElem_of_mem mem
  obtain ⟨call, owned⟩ := (lawful n _ (List.getElem?_eq_some_iff.2 ⟨lt, eq⟩)).1 _ rfl
  exact ⟨call, senders _ mem rfl, owned⟩

/-- The owner withdraws a token, which lets a stranger try the same, in vain; then it renounces. -/
def withdrawal : List (Transaction (abi .standard)) :=
  [⟨⟨1, 0, .emergencyWithdraw 4 5 10⟩, 2,
      [.handles [(9, .emergencyWithdraw 4 9 10, [.handles [] (some (.word 1))])] (some (.word 1))]⟩,
    ⟨⟨1, 0, .inherited .renounceOwnership⟩, 1, []⟩]

/-- The router after that. -/
def withdrawn : Account (abi .standard) := run (contract (fun _ => 0) 8) sampleRouter withdrawal

/-- The owner of the router withdraws a token and renounces, and the replay shows it. -/
theorem router_governed_withdrawal : ((government .standard).offices withdrawn.storage).owner = 0 ∧
    (government .standard).rule.view withdrawn.storage = (government .standard).rule.replay
      withdrawn.journal (⟨1, 0, false⟩, ⟨2, fun _ => false, fun _ => 0⟩) ∧
      ((government .standard).offices withdrawn.storage).owner ∈ ({0, 1} : Set Address) ∧
        (∀ r ∈ withdrawn.journal, (government .standard).Governs r →
          r.frame.sender ∈ ({0, 1} : Set Address)) ∧
          ∀ f token recipient amount answer v,
            ⟨f, .asked (.transfer token recipient amount) answer v⟩ ∈ withdrawn.journal →
              f.call = .emergencyWithdraw token recipient amount ∧
                f.sender ∈ ({0, 1} : Set Address) ∧ (government .standard).Owned f := by
  have init : construct .standard 1 2 = .ok sampleRouter := rfl
  have ran : run (contract (fun _ => 0) 8) sampleRouter withdrawal = withdrawn := rfl
  have governed := router_governed .standard init ran
  refine ⟨by decide, governed.1, governed.2 {0, 1} (by simp) (by simp) ?_⟩
  intro f mem _ i newOwner command kind
  have called : f.call ∈ withdrawn.journal.map fun r => r.frame.call :=
    List.mem_map_of_mem (f := fun r : Record (abi .standard) => r.frame.call) mem
  have calls : (withdrawn.journal.map fun r => r.frame.call) =
      [.emergencyWithdraw 4 5 10, .emergencyWithdraw 4 5 10, .emergencyWithdraw 4 5 10,
        .emergencyWithdraw 4 5 10, .inherited .renounceOwnership, .inherited .renounceOwnership,
        .inherited .renounceOwnership] := rfl
  rw [calls] at called
  simp only [List.mem_cons, List.not_mem_nil, or_false] at called
  rcases called with eq | eq | eq | eq | eq | eq | eq
  all_goals
    rw [eq] at command
    cases command
  all_goals cases kind

end PaymentRouter

/-! ## PrivateSettlementRegistry -/

namespace PrivateSettlementRegistry

/-- The roles of the registry. -/
structure Roles where
  registrars : Address → Bool
  auditors : Address → Bool

/-- How the registry is governed. It cannot be paused. -/
def government (O : Ownership oz) : Government oz (abi oz) Roles where
  inherits := inherits
  ownership := O
  command
    | .setRegistrar .. => .owned
    | .setAuditor .. => .owned
    | .inherited i => .inherited i
    | .recordSettlement .. => .other
    | .revealForAudit .. => .other
  config s := ⟨s.registrars, s.auditors⟩
  change
    | .registrarUpdated registrar allowed => some fun c =>
      { c with registrars := Function.update c.registrars registrar allowed }
    | .auditorUpdated auditor allowed => some fun c =>
      { c with auditors := Function.update c.auditors auditor allowed }
    | .privateSettlementRecorded _ => none
    | .privateSettlementRevealed _ => none
    | .inherited _ => none
  reserved _ := none
  config_setBase _ _ := rfl
  inherited_event _ := rfl

section
variable {O : Ownership oz} {keccak256 : List Word → Word} {s s₁ : Account (abi oz)}
  {f : Frame (abi oz)}

/-- `recordSettlement` keeps the replay. -/
lemma keeps_recordSettlement {now : Nat} {settlementRef commitment : Word} {publicMetadata : Bytes}
    (keeps : (government O).Keeps s s₁) (began : Rule.Began f s) :
    (recordSettlement keccak256 f.sender now settlementRef commitment publicMetadata).wp
      (government O).Keeps f (fun r s' => ∀ a, r = .ok a → (government O).Keeps s s') s₁ := by
  refine Code.wp_bind (Code.wp_read_bind.2 (Code.wp_require.2 ⟨fun _ => ?_, fun _ _ eq => by cases eq⟩))
  refine Code.wp_require_bind.2 ⟨fun _ => ?_, fun _ _ eq => by cases eq⟩
  refine Code.wp_require_bind.2 ⟨fun _ => ?_, fun _ _ eq => by cases eq⟩
  refine Code.wp_read_bind.2 (Code.wp_require_bind.2 ⟨fun _ => ?_, fun _ _ eq => by cases eq⟩)
  exact fun _ _ => Government.keeps_event (keeps.write (by exact rfl)) began rfl

/-- `revealForAudit` keeps the replay. -/
lemma keeps_revealForAudit {settlementId : Word} {p : Preimage} (keeps : (government O).Keeps s s₁)
    (began : Rule.Began f s) :
    (revealForAudit keccak256 f.sender settlementId p).wp (government O).Keeps f
      (fun r s' => ∀ a, r = .ok a → (government O).Keeps s s') s₁ := by
  refine Code.wp_bind (Code.wp_read_bind.2 (Code.wp_require.2 ⟨fun _ => ?_, fun _ _ eq => by cases eq⟩))
  refine Code.wp_bind (Code.wp_read_bind.2 (Code.wp_require_bind.2
    ⟨fun _ => ?_, fun _ _ eq => by cases eq⟩))
  refine Code.wp_require_bind.2 ⟨fun _ => ?_, fun _ _ eq => by cases eq⟩
  exact fun _ _ => Government.keeps_event (keeps.write (by exact rfl)) began rfl

end

/-- Every call of the registry keeps to the government. -/
theorem keeps_guarantee {O : Ownership oz} {keccak256 : List Word → Word} :
    Guarantee (contract keccak256 : Contract (abi oz)) (government O).Keeps where
  refl _ := .refl
  trans := .trans
  call m s := by
    have began : Rule.Began (m.frame s) s := Rule.began_frame
    have entered : (government O).Keeps s (s.note (m.frame s) .entered) :=
      Government.keeps_entered began
    unfold contract
    split
    case h_1 call =>
      refine Government.wp_onlyOwner rfl (fun _ _ eq => by cases eq) fun owner => ?_
      refine Code.wp_require_bind.2 ⟨fun _ _ => ?_, fun _ eq => by cases eq⟩
      exact Government.keeps_command entered began ⟨congrArg _ call, owner⟩ rfl rfl
    case h_2 call =>
      refine Government.wp_onlyOwner rfl (fun _ _ eq => by cases eq) fun owner => ?_
      refine Code.wp_require_bind.2 ⟨fun _ _ => ?_, fun _ eq => by cases eq⟩
      exact Government.keeps_command entered began ⟨congrArg _ call, owner⟩ rfl rfl
    case h_3 call => exact Government.wp_ownership entered rfl began (congrArg _ call)
    case h_4 call =>
      exact Government.wp_other began (congrArg _ call) (keeps_recordSettlement entered began)
    case h_5 call =>
      refine Code.wp_mono (fun r s' keeps ok => ?_) (keeps_revealForAudit entered began)
      exact Government.keeps_returned_other (keeps () ok) began (congrArg _ call)

/-- The registry is governed by its owner: who may record and who may audit is what the journal says,
    and only owners from the circle of the first one have admitted or dismissed anybody. -/
theorem registry_governed (O : Ownership oz) {keccak256 : List Word → Word} {initialOwner : Address}
    {s₀ s : Account (abi oz)} {ts : List (Transaction (abi oz))}
    (init : construct oz initialOwner = .ok s₀) (ran : run (contract keccak256) s₀ ts = s) :
    (government O).rule.view s.storage = (government O).rule.replay s.journal
        (⟨initialOwner, 0, false⟩, ⟨fun _ => false, fun _ => false⟩) ∧
      ∀ S : Set Address, initialOwner ∈ S → 0 ∈ S → (government O).NominateWithin S s.journal →
        ((government O).offices s.storage).owner ∈ S ∧
          ∀ r ∈ s.journal, (government O).Governs r → r.frame.sender ∈ S := by
  subst ran
  have first : s₀.journal = [] ∧ (government O).rule.view s₀.storage =
      (⟨initialOwner, 0, false⟩, ⟨fun _ => false, fun _ => false⟩) := by
    unfold construct at init
    split at init
    case h_1 => cases init
    case h_2 base new =>
      cases init
      exact ⟨rfl, Prod.ext (O.construct new) rfl⟩
  obtain ⟨view, lawful⟩ := Rule.replay_run
    (keeps_guarantee : Guarantee (contract keccak256) (government O).Keeps) first.1 ts
  rw [first.2] at view lawful
  refine ⟨view, fun S member zero nominate => ?_⟩
  obtain ⟨within, senders⟩ := Government.within_of_lawful lawful ⟨member, zero⟩ zero nominate
  rw [← view] at within
  exact ⟨within.owner, senders⟩

/-- The owner admits a registrar; a stranger fails to admit an auditor. -/
def admission : List (Transaction (abi .standard)) :=
  [⟨⟨1, 0, .setRegistrar 3 true⟩, 1, []⟩, ⟨⟨9, 0, .setAuditor 9 true⟩, 1, []⟩]

/-- The registry after that. -/
def admitted : Account (abi .standard) := run (contract fun _ => 0) sampleRegistry admission

/-- The owner of the registry admits a registrar, and the replay shows it. -/
theorem registry_governed_admission : admitted.storage.registrars 3 = true ∧
    (government .standard).rule.view admitted.storage = (government .standard).rule.replay
      admitted.journal (⟨1, 0, false⟩, ⟨fun _ => false, fun _ => false⟩) ∧
      ((government .standard).offices admitted.storage).owner ∈ ({0, 1} : Set Address) ∧
        ∀ r ∈ admitted.journal, (government .standard).Governs r →
          r.frame.sender ∈ ({0, 1} : Set Address) := by
  have init : construct .standard 1 = .ok sampleRegistry := rfl
  have ran : run (contract fun _ => 0) sampleRegistry admission = admitted := rfl
  have governed := registry_governed .standard init ran
  refine ⟨by decide, governed.1, governed.2 {0, 1} (by simp) (by simp) ?_⟩
  intro f mem _ i newOwner command kind
  have called : f.call ∈ admitted.journal.map fun r => r.frame.call :=
    List.mem_map_of_mem (f := fun r : Evm.Record (abi .standard) => r.frame.call) mem
  have calls : (admitted.journal.map fun r => r.frame.call) =
      [.setRegistrar 3 true, .setRegistrar 3 true, .setRegistrar 3 true] := rfl
  rw [calls] at called
  simp only [List.mem_cons, List.not_mem_nil, or_false] at called
  rcases called with eq | eq | eq
  all_goals
    rw [eq] at command
    cases command

end PrivateSettlementRegistry

end AvaSettle.Contracts
