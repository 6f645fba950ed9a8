import AvaSettle.Contracts.OpenZeppelin

/-!
# Guarded contracts

The modifiers that a contract inherits, and how a contract with a re-entrancy guard is reasoned about.
Its books may be out of order within a guarded function. They are kept all the same, because whatever
is called back there leaves everything the books are about alone.
-/

namespace AvaSettle.Contracts
open Evm

variable {oz : OpenZeppelin} {A : Abi} {α : Type}

/-- How a contract inherits: where the inherited storage is, and how inherited errors and events are
    its own. -/
structure Inheritance (oz : OpenZeppelin) (A : Abi) where
  base : A.Storage → oz.Base
  setBase : A.Storage → oz.Base → A.Storage
  error : oz.Error → A.Error
  event : oz.Event → A.Event
  base_setBase : ∀ v b, base (setBase v b) = b

namespace Inheritance
variable (i : Inheritance oz A)

/-! ## Modifiers -/

/-- `onlyOwner`. -/
def onlyOwner (sender : Address) : Code A Unit := do
  let s ← Code.read
  Code.inherit i.error (oz.checkOwner sender (i.base s))

/-- `whenNotPaused`. -/
def whenNotPaused : Code A Unit := do
  let s ← Code.read
  Code.inherit i.error (oz.requireNotPaused (i.base s))

/-- `nonReentrant`. -/
def nonReentrant (body : Code A α) : Code A α := do
  let s ← Code.read
  let base ← Code.inherit i.error (oz.nonReentrantBefore (i.base s))
  Code.modify fun s => i.setBase s base
  let a ← body
  Code.modify fun s => i.setBase s (oz.nonReentrantAfter (i.base s))
  return a

/-- An inherited function: its storage and its events. -/
def inheritedFn (f : oz.Base → Except oz.Error (oz.Base × List oz.Event)) : Code A Unit := do
  let s ← Code.read
  let r ← Code.inherit i.error (f (i.base s))
  Code.modify fun s => i.setBase s r.1
  Code.logAll (r.2.map i.event)

end Inheritance

/-! ## Token calls -/

/-- The types of a contract that calls tokens. -/
abbrev tokenAbi (Storage Event Error Call : Type) : Abi where
  Storage := Storage
  Request := TokenCall
  Answer := TokenAnswer
  Event := Event
  Error := Error
  Call := Call

/-- A `transferFrom` of a contract: the call it was made in, what was asked, the answer, and the
    storage at that moment. -/
structure Transfer (A : Abi) where
  frame : Frame A
  token : Address
  «from» : Address
  «to» : Address
  amount : Word
  answer : Option TokenAnswer
  storage : A.Storage

section
variable {S V E C : Type}

/-- `token.safeTransferFrom(from, to, amount)`. -/
def Inheritance.safeTransferFrom (i : Inheritance oz (tokenAbi S V E C)) (token payer recipient : Address)
    (amount : Word) : Code (tokenAbi S V E C) Unit := do
  let answer ← Code.request (.transferFrom token payer recipient amount)
  Code.inherit i.error (oz.checkAnswer answer)

/-- `token.safeTransfer(to, amount)`. -/
def Inheritance.safeTransfer (i : Inheritance oz (tokenAbi S V E C)) (token recipient : Address)
    (amount : Word) : Code (tokenAbi S V E C) Unit := do
  let answer ← Code.request (.transfer token recipient amount)
  Code.inherit i.error (oz.checkAnswer answer)

/-- The `transferFrom` of a record. -/
def transferOf (r : Record (tokenAbi S V E C)) : Option (Transfer (tokenAbi S V E C)) :=
  match r.item with
  | .asked (.transferFrom token payer recipient amount) answer storage =>
    some ⟨r.frame, token, payer, recipient, amount, answer, storage⟩
  | _ => none

/-- The `transferFrom` calls of a contract. -/
def transfers (j : List (Record (tokenAbi S V E C))) : List (Transfer (tokenAbi S V E C)) :=
  j.filterMap transferOf

/-- The transfers after an item is noted. -/
lemma transfers_note {s : Account (tokenAbi S V E C)} {f : Frame (tokenAbi S V E C)}
    {item : Item (tokenAbi S V E C)} : transfers (s.note f item).journal =
      transfers s.journal ++ (transferOf ⟨f, item⟩).toList :=
  Account.filterMap_note

end

namespace Inheritance
variable (i : Inheritance oz A)

/-! ## Disciplines -/

/-- The contract is in a guarded function. -/
def Entered (s : Account A) : Prop := oz.entered (i.base s.storage) = true

/-- The storage with another inherited part. -/
def rebase (s : Account A) (b : oz.Base) : Account A :=
  { s with storage := i.setBase s.storage b }

/-- A contract is entered as its base says. -/
lemma entered_rebase {s : Account A} {b : oz.Base} :
    i.Entered (i.rebase s b) ↔ oz.entered b = true := by
  rw [Entered, rebase, i.base_setBase]

end Inheritance

/-- The books of a contract: when they are in order, and which changes they are not about. -/
structure Discipline (i : Inheritance oz A) where
  books : Account A → Prop
  same : Account A → Account A → Prop
  refl : ∀ s, same s s
  trans : ∀ {s₁ s₂ s₃}, same s₁ s₂ → same s₂ s₃ → same s₁ s₃
  keep : ∀ {s s'}, books s → same s s' → books s'
  /-- The inherited storage and events are not among what the books are about. -/
  rebase : ∀ s b, same s (i.rebase s b)
  inherited : ∀ s f e, same s (s.note f (.event (i.event e)))
  entered : ∀ s f, same s (s.note f .entered)

namespace Discipline
variable {i : Inheritance oz A} {D : Discipline i}

/-- What any call guarantees: within a guarded function nothing changes that the books are about, and
    the guard stays taken; elsewhere the books stay in order and the guard is released. -/
structure Guards (D : Discipline i) (s s' : Account A) : Prop where
  within : i.Entered s → i.Entered s' ∧ D.same s s'
  outside : ¬i.Entered s → D.books s → ¬i.Entered s' ∧ D.books s'

variable {s s₁ s₂ s₃ s' : Account A} {f : Frame A} {sender : Address}

/-- What leaves the books as they are keeps them. -/
lemma Guards.of_same (entered : i.Entered s' ↔ i.Entered s) (same : D.same s s') : D.Guards s s' where
  within h := ⟨entered.2 h, same⟩
  outside h books := ⟨fun h' => h (entered.1 h'), D.keep books same⟩

/-- The books are kept when nothing happens. -/
lemma Guards.refl : D.Guards s s := .of_same Iff.rfl (D.refl s)

/-- Books that are kept twice are kept. -/
lemma Guards.trans (h₁ : D.Guards s₁ s₂) (h₂ : D.Guards s₂ s₃) : D.Guards s₁ s₃ where
  within entered := by
    obtain ⟨entered₂, same₁⟩ := h₁.within entered
    obtain ⟨entered₃, same₂⟩ := h₂.within entered₂
    exact ⟨entered₃, D.trans same₁ same₂⟩
  outside free books := by
    obtain ⟨free₂, books₂⟩ := h₁.outside free books
    exact h₂.outside free₂ books₂

/-! ## Unguarded functions -/

/-- What an administrative function leaves, when it does not revert. -/
def Administers (D : Discipline i) (s : Account A) (r : Except A.Error Unit) (s' : Account A) :
    Prop :=
  r = .ok () → (i.Entered s' ↔ i.Entered s) ∧ D.same s s'

/-- What follows the check starts where the caller is the owner. -/
lemma wp_onlyOwner {k : Unit → Code A Unit} {Q : Except A.Error Unit → Account A → Prop}
    (error : ∀ e s, Q (.error e) s) (ok : (k ()).wp D.Guards f Q s) :
    (i.onlyOwner sender >>= k).wp D.Guards f Q s :=
  Code.wp_bind (Code.wp_read_bind.2 (Code.wp_inherit.2 ⟨fun _ _ => ok, fun _ _ => error _ _⟩))

/-- An inherited call leaves the books as they are. -/
lemma same_inherited {es : List oz.Event} : D.same s { s with
    journal := s.journal ++ (es.map i.event).map fun e => ⟨f, .event e⟩ } := by
  induction es generalizing s with
  | nil =>
    rw [List.map_nil, List.map_nil, List.append_nil]
    exact D.refl s
  | cons e es ih =>
    have rest := D.trans (D.inherited s f e) ih
    simpa [Account.note] using rest

/-- An inherited function administers. -/
lemma wp_inheritedFn {g : oz.Base → Except oz.Error (oz.Base × List oz.Event)}
    (keeps : ∀ {b r}, g b = .ok r → oz.entered r.1 = oz.entered b) :
    (i.inheritedFn g).wp D.Guards f (D.Administers s) s := by
  refine Code.wp_read_bind.2 (Code.wp_inherit_bind.2 ⟨fun r eq => ?_, fun _ _ => nofun⟩)
  refine Code.wp_modify_bind.2 (Code.wp_logAll.2 fun _ => ⟨?_, ?_⟩)
  · change oz.entered (i.base (i.setBase s.storage r.1)) = true ↔ _
    rw [i.base_setBase, keeps eq]
    rfl
  · exact D.trans (D.rebase s r.1) same_inherited

/-- A call of an unguarded function. -/
lemma guards_of_guards {m : Msg A} {c : Code A Unit}
    (returned : ∀ s', D.same s' (s'.note (m.frame s) .returned))
    (wp : c.wp D.Guards (m.frame s)
      (fun r s' => r = .ok () → D.Guards (s.note (m.frame s) .entered) s')
      (s.note (m.frame s) .entered)) :
    c.wp D.Guards (m.frame s) (fun r s' => r = .ok () → D.Guards s (s'.note (m.frame s) .returned))
      (s.note (m.frame s) .entered) := by
  refine Code.wp_mono (fun r s' guards ok => ?_) wp
  have begun : D.Guards s (s.note (m.frame s) .entered) := .of_same Iff.rfl (D.entered s _)
  exact begun.trans ((guards ok).trans (.of_same Iff.rfl (returned s')))

/-- A call of an administrative function. -/
lemma guards_of_administers {m : Msg A} {c : Code A Unit}
    (returned : ∀ s', D.same s' (s'.note (m.frame s) .returned))
    (wp : c.wp D.Guards (m.frame s) (D.Administers (s.note (m.frame s) .entered))
      (s.note (m.frame s) .entered)) :
    c.wp D.Guards (m.frame s) (fun r s' => r = .ok () → D.Guards s (s'.note (m.frame s) .returned))
      (s.note (m.frame s) .entered) := by
  refine guards_of_guards returned (Code.wp_mono (fun r s' administers ok => ?_) wp)
  exact .of_same (administers ok).1 (administers ok).2

/-! ## Guarded functions -/

/-- What follows the check starts where the contract is not paused. -/
lemma wp_whenNotPaused {k : Unit → Code A α} {Q : Except A.Error α → Account A → Prop}
    (error : ∀ e s, Q (.error e) s)
    (ok : oz.paused (i.base s.storage) = false → (k ()).wp D.Guards f Q s) :
    (i.whenNotPaused >>= k).wp D.Guards f Q s := by
  refine Code.wp_bind (Code.wp_read_bind.2 (Code.wp_inherit.2 ⟨fun _ eq => ?_, fun _ _ => error _ _⟩))
  exact ok (oz.paused_of_requireNotPaused eq)

/-- What a guarded function leaves, once it has returned. -/
def Settles (D : Discipline i) (f : Frame A) (r : Except A.Error α) (s' : Account A) : Prop :=
  ∀ a, r = .ok a → ¬i.Entered s' ∧ D.books (s'.note f .returned)

/-- The guard: the body runs with the guard taken, and leaves books that are in order once it is
    released and the function has returned. -/
lemma wp_nonReentrant {body : Code A α} (books : D.books s)
    (wp : ∀ b, oz.nonReentrantBefore (i.base s.storage) = .ok b → i.Entered (i.rebase s b) →
      oz.paused b = oz.paused (i.base s.storage) → D.books (i.rebase s b) →
        body.wp D.Guards f (fun r s' => ∀ a, r = .ok a →
          ∀ b', D.books ((i.rebase s' b').note f .returned)) (i.rebase s b)) :
    (i.nonReentrant body).wp D.Guards f (D.Settles f) s := by
  refine Code.wp_read_bind.2 (Code.wp_inherit_bind.2 ⟨fun b before => ?_, fun _ _ => nofun⟩)
  have body := wp b before (i.entered_rebase.2 (oz.entered_before before).2) (oz.paused_before before)
    (D.keep books (D.rebase s b))
  refine Code.wp_modify_bind.2 (Code.wp_bind (Code.wp_mono (fun r s' settled => ?_) body))
  cases r with
  | error e => exact nofun
  | ok a =>
    refine fun _ _ => ⟨fun entered => ?_, settled a rfl _⟩
    have free := i.entered_rebase.1 entered
    rw [oz.entered_after] at free
    exact Bool.false_ne_true free

/-- Within a guarded function no other can be entered. -/
lemma wp_nonReentrant_of_entered {body : Code A α} (entered : i.Entered s) :
    (i.nonReentrant body).wp D.Guards f (fun r _ => ∀ a, r ≠ .ok a) s := by
  refine Code.wp_read_bind.2 (Code.wp_inherit_bind.2 ⟨fun b before => ?_, fun _ _ => nofun⟩)
  have free := (oz.entered_before before).1
  exact absurd (entered.symm.trans free) nofun

/-- How a guarded function reverts, where `Q` holds of what the library reverts with. -/
lemma wp_nonReentrant_error {body : Code A α} {Q : A.Error → Prop} (inherited : ∀ e, Q (i.error e))
    (wp : ∀ b, i.Entered (i.rebase s b) →
      body.wp D.Guards f (fun r _ => ∀ e, r = .error e → Q e) (i.rebase s b)) :
    (i.nonReentrant body).wp D.Guards f (fun r _ => ∀ e, r = .error e → Q e) s := by
  refine Code.wp_read_bind.2 (Code.wp_inherit_bind.2 ⟨fun b before => ?_, ?_⟩)
  · have body := wp b (i.entered_rebase.2 (oz.entered_before before).2)
    refine Code.wp_modify_bind.2 (Code.wp_bind (Code.wp_mono (fun r s' post => ?_) body))
    cases r with
    | error e => exact fun _ eq => Except.error.inj eq ▸ post e rfl
    | ok a => exact nofun
  · exact fun e _ _ eq => Except.error.inj eq ▸ inherited e

/-- A call of a guarded function, from anywhere. -/
lemma guards_of_settles {m : Msg A} {body : Code A α}
    (settles : D.books (s.note (m.frame s) .entered) → body.wp D.Guards (m.frame s)
      (D.Settles (m.frame s)) (s.note (m.frame s) .entered))
    (within : i.Entered s → body.wp D.Guards (m.frame s) (fun r _ => ∀ a, r ≠ .ok a)
      (s.note (m.frame s) .entered)) :
    (body >>= fun _ => pure ()).wp D.Guards (m.frame s)
      (fun r s' => r = .ok () → D.Guards s (s'.note (m.frame s) .returned))
      (s.note (m.frame s) .entered) := by
  refine Code.wp_bind ?_
  by_cases entered : i.Entered s
  · refine Code.wp_mono (fun r s' never => ?_) (within entered)
    cases r with
    | error e => exact nofun
    | ok a => exact absurd rfl (never a)
  · by_cases books : D.books s
    · refine Code.wp_mono (fun r s' post => ?_) (settles (D.keep books (D.entered s _)))
      cases r with
      | error e => exact nofun
      | ok a => exact fun _ => ⟨fun h => absurd h entered, fun _ _ => post a rfl⟩
    · refine Code.wp_trivial fun r s' => ?_
      cases r with
      | error e => exact nofun
      | ok a => exact fun _ => ⟨fun h => absurd h entered, fun _ h => absurd h books⟩

end Discipline

end AvaSettle.Contracts
