import AvaSettle.Contracts.Guard
import AvaSettle.Evm.Replay

/-!
# Who governs a contract

The offices of a contract are its owner, the owner to be and the pause; its owner also configures it.
`Government` says which calls are commands of the owner, and which events change the configuration.
Where a contract keeps to it, its journal says how it is governed: offices and configuration are what
the journal replays to, every command was given by the owner of the moment, and ownership stays in any
circle of accounts whose members nominate only each other.
-/

namespace AvaSettle.Contracts
open Evm

/-! ## Offices -/

/-- The offices of a contract. -/
structure Offices where
  owner : Address
  pendingOwner : Address
  paused : Bool
  deriving DecidableEq

/-- The external functions of `Ownable2Step`, for a sender. -/
def Offices.call (o : Offices) (sender : Address) : StandardCall → Option Offices
  | .transferOwnership newOwner =>
    if o.owner = sender then some { o with pendingOwner := newOwner } else none
  | .acceptOwnership =>
    if o.pendingOwner = sender then some { o with owner := sender, pendingOwner := 0 } else none
  | .renounceOwnership =>
    if o.owner = sender then some { o with owner := 0, pendingOwner := 0 } else none

/-- What is documented of the offices of the library contracts. -/
structure Ownership (oz : OpenZeppelin) where
  offices : oz.Base → Offices
  /-- Which function of `Ownable2Step` is called. -/
  kind : oz.Inherited → StandardCall
  construct : ∀ {a b}, oz.construct a = .ok b → offices b = ⟨a, 0, false⟩
  checkOwner : ∀ {a b}, oz.checkOwner a b = .ok () → (offices b).owner = a
  pause : ∀ {a b r}, oz.pause a b = .ok r → offices r.1 = { offices b with paused := true }
  unpause : ∀ {a b r}, oz.unpause a b = .ok r → offices r.1 = { offices b with paused := false }
  inherited : ∀ {a i b r}, oz.inherited a i b = .ok r →
    (offices b).call a (kind i) = some (offices r.1)
  before : ∀ {b b'}, oz.nonReentrantBefore b = .ok b' → offices b' = offices b
  after : ∀ {b}, offices (oz.nonReentrantAfter b) = offices b

/-- The offices in the storage of the library as it is published. -/
def StandardBase.offices (b : StandardBase) : Offices := ⟨b.owner, b.pendingOwner, b.paused⟩

/-- An inherited call of the standard base is a call on its offices. -/
lemma StandardBase.call_of_inherited {sender : Address} {call : StandardCall} {b : StandardBase}
    {r : StandardBase × List StandardEvent} (h : b.inherited sender call = .ok r) :
    b.offices.call sender call = some r.1.offices := by
  unfold StandardBase.inherited at h
  cases call with
  | transferOwnership newOwner =>
    dsimp only at h
    split at h
    case isTrue eq =>
      cases h
      exact if_pos eq
    case isFalse => cases h
  | acceptOwnership =>
    dsimp only at h
    split at h
    case isTrue eq =>
      cases h
      exact if_pos eq
    case isFalse => cases h
  | renounceOwnership =>
    dsimp only at h
    split at h
    case isTrue eq =>
      cases h
      exact if_pos eq
    case isFalse => cases h

/-- The offices of the library as it is published. -/
def Ownership.standard : Ownership .standard where
  offices := StandardBase.offices
  kind call := call
  construct h := (of_guarded h).2 ▸ rfl
  checkOwner h := of_decide_eq_true (of_guarded h).1
  pause h := (of_guarded h).2 ▸ rfl
  unpause h := (of_guarded h).2 ▸ rfl
  inherited h := StandardBase.call_of_inherited h
  before h := (of_guarded h).2 ▸ rfl
  after := rfl

/-! ## Commands -/

/-- What a call of a contract asks for. -/
inductive Command (oz : OpenZeppelin) : Type where
  /-- Something that only the owner may ask for. -/
  | owned
  | pause
  | unpause
  | inherited (i : oz.Inherited)
  /-- Something that is no matter of government. -/
  | other

/-- How a contract is governed. -/
structure Government (oz : OpenZeppelin) (A : Abi) (V : Type) where
  inherits : Inheritance oz A
  ownership : Ownership oz
  /-- What a call asks for. -/
  command : A.Call → Command oz
  /-- The configuration. -/
  config : A.Storage → V
  /-- How an event changes the configuration. -/
  change : A.Event → Option (V → V)
  /-- The command of the owner that a request to others is reserved to. -/
  reserved : A.Request → Option A.Call
  config_setBase : ∀ v b, config (inherits.setBase v b) = config v
  inherited_event : ∀ e, change (inherits.event e) = none

namespace Government
variable {oz : OpenZeppelin} {A : Abi} {V : Type} (G : Government oz A V)

/-- The offices in a storage. -/
def offices (v : A.Storage) : Offices := G.ownership.offices (G.inherits.base v)

/-- How a committed call changes the offices. -/
def govern (f : Frame A) (o : Offices) : Offices :=
  match G.command f.call with
  | .pause => { o with paused := true }
  | .unpause => { o with paused := false }
  | .inherited i => (o.call f.sender (G.ownership.kind i)).getD o
  | _ => o

/-- The sender of the call was entitled to what it asked for. -/
def Entitled (f : Frame A) : Prop :=
  match G.command f.call with
  | .other => True
  | .inherited i => ((G.offices f.entry).call f.sender (G.ownership.kind i)).isSome
  | _ => (G.offices f.entry).owner = f.sender

/-- The call is a command of the owner. -/
structure Owned (f : Frame A) : Prop where
  command : G.command f.call = .owned
  owner : (G.offices f.entry).owner = f.sender

/-- The offices and the configuration are ruled by the journal. -/
def rule : Rule A (Offices × V) where
  view v := (G.offices v, G.config v)
  play r v :=
    match r.item with
    | .event e => (v.1, ((G.change e).getD id) v.2)
    | .returned => (G.govern r.frame v.1, v.2)
    | _ => v
  lawful r :=
    match r.item with
    | .event e => (G.change e).isSome → G.Owned r.frame
    | .asked q _ _ => ∀ c, G.reserved q = some c → r.frame.call = c ∧ G.Owned r.frame
    | .returned => G.Entitled r.frame
    | .entered => True

/-- Where a call cannot have come from somebody who is not entitled. -/
abbrev Keeps : Account A → Account A → Prop := G.rule.Keeps

section
variable {G} {s s₁ : Account A} {f : Frame A} {α : Type}

/-! ## What a call adds -/

/-- Entering a call keeps the replay. -/
lemma keeps_entered (began : Rule.Began f s) : G.Keeps s (s.note f .entered) :=
  Rule.Keeps.refl.note began trivial rfl

/-- An event that is no change of the configuration. -/
lemma keeps_event {e : A.Event} (keeps : G.Keeps s s₁) (began : Rule.Began f s)
    (quiet : G.change e = none) : G.Keeps s (s₁.note f (.event e)) := by
  refine keeps.note began (fun change => ?_) ?_
  · rw [quiet] at change
    cases change
  · simp [rule, quiet]

/-- A change of the configuration, with its event. -/
lemma keeps_change {e : A.Event} {v : A.Storage} (keeps : G.Keeps s s₁) (began : Rule.Began f s)
    (owned : G.Owned f) (offices : G.offices v = G.offices s₁.storage)
    (config : G.config v = ((G.change e).getD id) (G.config s₁.storage)) :
    G.Keeps s (Account.note { s₁ with storage := v } f (.event e)) := by
  refine keeps.add [.event e] began (List.forall_mem_singleton.2 fun _ => owned) ?_
  exact Prod.ext offices config

/-- A request that has been answered. -/
lemma keeps_asked {q : A.Request} {a : Option A.Answer} {v : A.Storage} (keeps : G.Keeps s s₁)
    (began : Rule.Began f s) (law : ∀ c, G.reserved q = some c → f.call = c ∧ G.Owned f) :
    G.Keeps s (s₁.note f (.asked q a v)) :=
  keeps.note began law rfl

/-- The end of a call that changes no office. -/
lemma keeps_returned (keeps : G.Keeps s s₁) (began : Rule.Began f s) (entitled : G.Entitled f)
    (stay : ∀ o, G.govern f o = o) : G.Keeps s (s₁.note f .returned) :=
  keeps.note began entitled (Prod.ext (stay _).symm rfl)

/-- The end of a call that is no matter of government. -/
lemma keeps_returned_other (keeps : G.Keeps s s₁) (began : Rule.Began f s)
    (other : G.command f.call = .other) : G.Keeps s (s₁.note f .returned) := by
  refine keeps_returned keeps began ?_ fun o => ?_
  · simp [Entitled, other]
  · simp [Government.govern, other]

/-- The end of a command of the owner. -/
lemma keeps_returned_owned (keeps : G.Keeps s s₁) (began : Rule.Began f s) (owned : G.Owned f) :
    G.Keeps s (s₁.note f .returned) := by
  refine keeps_returned keeps began ?_ fun o => ?_
  · simpa [Entitled, owned.command] using owned.owner
  · simp [Government.govern, owned.command]

/-! ## Inherited code -/

/-- The owner is checked before anything is called back. -/
lemma wp_onlyOwner {k : Unit → Code A α} {Q : Except A.Error α → Account A → Prop}
    (entry : s₁.storage = f.entry) (error : ∀ e s, Q (.error e) s)
    (ok : (G.offices f.entry).owner = f.sender → (k ()).wp G.Keeps f Q s₁) :
    (G.inherits.onlyOwner f.sender >>= k).wp G.Keeps f Q s₁ := by
  refine Code.wp_bind (Code.wp_read_bind.2 (Code.wp_inherit.2 ⟨fun _ eq => ?_, fun _ _ => error _ _⟩))
  rw [entry] at eq
  exact ok (G.ownership.checkOwner eq)

/-- What follows the check starts where the contract is not paused. -/
lemma wp_whenNotPaused {k : Unit → Code A α} {Q : Except A.Error α → Account A → Prop}
    (error : ∀ e s, Q (.error e) s) (ok : (k ()).wp G.Keeps f Q s₁) :
    (G.inherits.whenNotPaused >>= k).wp G.Keeps f Q s₁ :=
  Code.wp_bind (Code.wp_read_bind.2 (Code.wp_inherit.2 ⟨fun _ _ => ok, fun _ _ => error _ _⟩))

/-- The inherited storage is written where the offices stay. -/
lemma keeps_setBase {b : oz.Base} (keeps : G.Keeps s s₁)
    (stay : G.ownership.offices b = G.offices s₁.storage) :
    G.Keeps s { s₁ with storage := G.inherits.setBase s₁.storage b } := by
  refine keeps.write (Prod.ext ?_ (G.config_setBase _ _))
  change G.ownership.offices (G.inherits.base _) = _
  rw [G.inherits.base_setBase]
  exact stay

/-- The guard against re-entry is no matter of government. -/
lemma wp_nonReentrant {body : Code A α} (keeps : G.Keeps s s₁)
    (wp : ∀ s₂, G.Keeps s s₂ → body.wp G.Keeps f (fun r s' => ∀ a, r = .ok a → G.Keeps s s') s₂) :
    (G.inherits.nonReentrant body).wp G.Keeps f (fun r s' => ∀ a, r = .ok a → G.Keeps s s') s₁ := by
  refine Code.wp_read_bind.2 (Code.wp_inherit_bind.2 ⟨fun b before => ?_, fun _ _ _ eq => by cases eq⟩)
  have body := wp _ (keeps_setBase keeps (G.ownership.before before))
  refine Code.wp_modify_bind.2 (Code.wp_bind (Code.wp_mono (fun r s' post => ?_) body))
  cases r with
  | error e =>
    intro _ eq
    cases eq
  | ok a => exact fun _ _ => keeps_setBase (post a rfl) G.ownership.after

/-- An inherited function is committed with its events and its change of the offices. -/
lemma wp_inheritedFn {g : oz.Base → Except oz.Error (oz.Base × List oz.Event)}
    (keeps : G.Keeps s s₁) (began : Rule.Began f s)
    (governed : ∀ r, g (G.inherits.base s₁.storage) = .ok r →
      G.Entitled f ∧ G.ownership.offices r.1 = G.govern f (G.offices s₁.storage)) :
    (G.inherits.inheritedFn g).wp G.Keeps f
      (fun r s' => r = .ok () → G.Keeps s (s'.note f .returned)) s₁ := by
  refine Code.wp_read_bind.2 (Code.wp_inherit_bind.2 ⟨fun r eq => ?_, fun _ _ eq => by cases eq⟩)
  obtain ⟨entitled, offices⟩ := governed r eq
  refine Code.wp_modify_bind.2 (Code.wp_logAll.2 fun _ => ?_)
  have quiet : ∀ es : List oz.Event, ∀ v,
      G.rule.replay ((es.map G.inherits.event).map fun e => ⟨f, .event e⟩) v = v := by
    intro es
    induction es with
    | nil => exact fun _ => rfl
    | cons e es ih =>
      intro v
      rw [List.map_cons, List.map_cons, ← List.singleton_append, Rule.replay_append, ih]
      simp [Rule.replay_singleton, rule, G.inherited_event]
  -- the offices change with the last record, once the events have been noted
  suffices adds : G.Keeps s ⟨G.inherits.setBase s₁.storage r.1, s₁.journal ++
      (((r.2.map G.inherits.event).map Item.event) ++ [Item.returned]).map fun item => ⟨f, item⟩⟩ by
    simpa [Account.note, List.map_append, Function.comp_def] using adds
  refine keeps.add _ began ?_ ?_
  · rw [List.forall_mem_append]
    refine ⟨fun item mem => ?_, List.forall_mem_singleton.2 entitled⟩
    simp only [List.mem_map] at mem
    obtain ⟨_, ⟨e, -, rfl⟩, rfl⟩ := mem
    intro change
    rw [G.inherited_event] at change
    cases change
  · rw [List.map_append, Rule.replay_append, List.map_map, Function.comp_def, quiet]
    refine Prod.ext ?_ (G.config_setBase _ _)
    change G.ownership.offices (G.inherits.base _) = _
    rw [G.inherits.base_setBase]
    exact offices

/-- A command of the owner that is inherited code. -/
lemma wp_pause (keeps : G.Keeps s s₁) (entry : s₁.storage = f.entry) (began : Rule.Began f s)
    (command : G.command f.call = .pause) :
    (G.inherits.onlyOwner f.sender >>= fun _ => G.inherits.inheritedFn (oz.pause f.sender)).wp G.Keeps f
      (fun r s' => r = .ok () → G.Keeps s (s'.note f .returned)) s₁ := by
  refine wp_onlyOwner entry (fun _ _ eq => by cases eq) fun owner => ?_
  refine wp_inheritedFn keeps began fun r eq => ⟨?_, ?_⟩
  · simpa [Entitled, command] using owner
  · simpa [Government.govern, command, Government.offices] using G.ownership.pause eq

/-- `unpause` keeps the replay. -/
lemma wp_unpause (keeps : G.Keeps s s₁) (entry : s₁.storage = f.entry) (began : Rule.Began f s)
    (command : G.command f.call = .unpause) :
    (G.inherits.onlyOwner f.sender >>= fun _ => G.inherits.inheritedFn (oz.unpause f.sender)).wp
      G.Keeps f (fun r s' => r = .ok () → G.Keeps s (s'.note f .returned)) s₁ := by
  refine wp_onlyOwner entry (fun _ _ eq => by cases eq) fun owner => ?_
  refine wp_inheritedFn keeps began fun r eq => ⟨?_, ?_⟩
  · simpa [Entitled, command] using owner
  · simpa [Government.govern, command, Government.offices] using G.ownership.unpause eq

/-- A function of `Ownable2Step`. -/
lemma wp_ownership {i : oz.Inherited} (keeps : G.Keeps s s₁) (entry : s₁.storage = f.entry)
    (began : Rule.Began f s) (command : G.command f.call = .inherited i) :
    (G.inherits.inheritedFn (oz.inherited f.sender i)).wp G.Keeps f
      (fun r s' => r = .ok () → G.Keeps s (s'.note f .returned)) s₁ := by
  refine wp_inheritedFn keeps began fun r eq => ?_
  have called := G.ownership.inherited eq
  constructor
  · rw [entry] at called
    simp [Entitled, command, Government.offices, called]
  · simp [Government.govern, command, Government.offices, called]

/-- A command of the owner that writes the configuration. -/
lemma keeps_command {e : A.Event} {v : A.Storage} (keeps : G.Keeps s s₁) (began : Rule.Began f s)
    (owned : G.Owned f) (offices : G.offices v = G.offices s₁.storage)
    (config : G.config v = ((G.change e).getD id) (G.config s₁.storage)) :
    G.Keeps s ((Account.note { s₁ with storage := v } f (.event e)).note f .returned) :=
  keeps_returned_owned (keeps_change keeps began owned offices config) began owned

/-- A call that is no matter of government. -/
lemma wp_other {body : Code A α} (began : Rule.Began f s) (other : G.command f.call = .other)
    (wp : body.wp G.Keeps f (fun r s' => ∀ a, r = .ok a → G.Keeps s s') s₁) :
    (body >>= fun _ => pure ()).wp G.Keeps f (fun r s' => r = .ok () → G.Keeps s (s'.note f .returned))
      s₁ := by
  refine Code.wp_bind (Code.wp_mono (fun r s' keeps => ?_) wp)
  cases r with
  | error e =>
    intro eq
    cases eq
  | ok a => exact fun _ => keeps_returned_other (keeps a rfl) began other

end

/-! ## A circle of accounts -/

/-- The members of the circle nominate only each other. -/
def NominateWithin (S : Set Address) (j : List (Record A)) : Prop :=
  ∀ f, ⟨f, .returned⟩ ∈ j → f.sender ∈ S → ∀ i newOwner, G.command f.call = .inherited i →
    G.ownership.kind i = .transferOwnership newOwner → newOwner ∈ S

/-- The owner, and whoever has been nominated, are in the circle. -/
structure Within (S : Set Address) (v : Offices × V) : Prop where
  owner : v.1.owner ∈ S
  pendingOwner : v.1.pendingOwner ∈ S

/-- The record is a matter of government: a command that has returned, a change of the configuration,
    or a reserved request. -/
def Governs (r : Record A) : Prop :=
  match r.item with
  | .event e => (G.change e).isSome
  | .asked q _ _ => (G.reserved q).isSome
  | .returned => G.command r.frame.call ≠ .other
  | .entered => False

variable {G} {S : Set Address} {v v₀ : Offices × V} {j : List (Record A)} {r : Record A} {f : Frame A}

/-- An entitled sender is in the circle, where the circle held the offices when the call began. -/
lemma Entitled.sender_mem (entitled : G.Entitled f) (within : Within S (G.rule.view f.entry))
    (command : G.command f.call ≠ .other) : f.sender ∈ S := by
  unfold Entitled at entitled
  split at entitled
  case h_1 other => exact absurd other command
  case h_2 i _ =>
    unfold Offices.call at entitled
    split at entitled
    case h_1 =>
      split at entitled
      case isTrue eq => exact eq ▸ within.owner
      case isFalse => cases entitled
    case h_2 =>
      split at entitled
      case isTrue eq => exact eq ▸ within.pendingOwner
      case isFalse => cases entitled
    case h_3 =>
      split at entitled
      case isTrue eq => exact eq ▸ within.owner
      case isFalse => cases entitled
  case h_3 => exact entitled ▸ within.owner

/-- A lawful matter of government comes from the circle. -/
lemma sender_mem (lawful : G.rule.lawful r) (within : Within S (G.rule.view r.frame.entry))
    (governs : G.Governs r) : r.frame.sender ∈ S := by
  obtain ⟨f, item⟩ := r
  cases item with
  | entered => cases governs
  | event e => exact (lawful governs).owner ▸ within.owner
  | asked q a s =>
    obtain ⟨c, reserved⟩ := Option.isSome_iff_exists.1 governs
    exact (lawful c reserved).2.owner ▸ within.owner
  | returned => exact Entitled.sender_mem lawful within governs

/-- The offices stay in the circle. -/
lemma Within.govern (within : Within S v) (zero : 0 ∈ S) (sender : G.command f.call ≠ .other →
      f.sender ∈ S) (nominee : ∀ i newOwner, G.command f.call = .inherited i →
        G.ownership.kind i = .transferOwnership newOwner → newOwner ∈ S) :
    Within S (G.govern f v.1, v.2) := by
  unfold Government.govern
  split
  case h_1 => exact ⟨within.owner, within.pendingOwner⟩
  case h_2 => exact ⟨within.owner, within.pendingOwner⟩
  case h_3 i command =>
    have member := sender (by simp [command])
    cases kind : G.ownership.kind i with
    | transferOwnership newOwner =>
      unfold Offices.call
      dsimp only
      split
      case isTrue => exact ⟨within.owner, nominee i newOwner command kind⟩
      case isFalse => exact within
    | acceptOwnership =>
      unfold Offices.call
      dsimp only
      split
      case isTrue => exact ⟨member, zero⟩
      case isFalse => exact within
    | renounceOwnership =>
      unfold Offices.call
      dsimp only
      split
      case isTrue => exact ⟨zero, zero⟩
      case isFalse => exact within
  case h_4 => exact within

/-- Whoever governs is in the circle, and so is every later owner. -/
theorem within_of_lawful (lawful : G.rule.Lawful v₀ 0 j) (first : Within S v₀) (zero : 0 ∈ S)
    (nominate : G.NominateWithin S j) :
    Within S (G.rule.replay j v₀) ∧ ∀ r ∈ j, G.Governs r → r.frame.sender ∈ S := by
  obtain ⟨last, entries⟩ := lawful.invariant (P := Within S) first (by
    rintro ⟨f, item⟩ mem law entry v within
    cases item with
    | entered => exact within
    | event e => exact ⟨within.owner, within.pendingOwner⟩
    | asked q a s => exact within
    | returned =>
      by_cases command : G.command f.call = .other
      · simpa [rule, Government.govern, command] using within
      · have member : f.sender ∈ S := Entitled.sender_mem law entry command
        exact within.govern zero (fun _ => member) (nominate f mem member))
  refine ⟨last, fun r mem governs => ?_⟩
  obtain ⟨n, lt, rfl⟩ := List.getElem_of_mem mem
  exact sender_mem (lawful n _ (List.getElem?_eq_getElem lt)).1 (entries _ mem) governs

end Government

end AvaSettle.Contracts
