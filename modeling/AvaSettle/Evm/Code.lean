import Mathlib.Data.BitVec
import Mathlib.Data.List.Basic

/-!
# Contract code

A contract reads and writes its own storage, emits events, calls other contracts and reverts. `Code`
is the tree of these effects, with everything in between a pure Lean function. It is executed against
a model of the other contracts: any function that answers a request, and that may meanwhile change the
state of the contract itself, as a re-entrant callee does.

Along with its storage a contract keeps a journal of what its calls have done. A call that reverts
leaves neither, so that what is in the journal is what has been committed.
-/

namespace AvaSettle.Evm

/-- A 32-byte word. -/
abbrev Word := BitVec 256

/-- An account address. -/
abbrev Address := BitVec 160

/-- `bytes`. -/
abbrev Bytes := List UInt8

/-- The word of an address, as `abi.encode` pads it. -/
def Address.word (a : Address) : Word := a.setWidth 256

/-- Addresses are determined by their words. -/
lemma Address.word_injective : Function.Injective Address.word := by
  intro a b eq
  have eq' : (a.setWidth 256).setWidth 160 = (b.setWidth 256).setWidth 160 := congrArg _ eq
  simpa using eq'

/-- The types of a contract. -/
structure Abi where
  /-- Its storage. -/
  Storage : Type
  /-- What it asks of other contracts. -/
  Request : Type
  /-- What other contracts return. -/
  Answer : Type
  /-- Its events. -/
  Event : Type
  /-- The reasons of its reverts. -/
  Error : Type
  /-- Its external functions, with their arguments. -/
  Call : Type

variable {A : Abi} {α β : Type}

/-- What a contract does. A request to another contract is answered by its return value, or by `none`
    where it reverted. -/
inductive Code (A : Abi) (α : Type) : Type where
  | done (a : α)
  | revert (e : A.Error)
  | get (k : A.Storage → Code A α)
  | set (v : A.Storage) (k : Code A α)
  | emit (e : A.Event) (k : Code A α)
  | ask (r : A.Request) (k : Option A.Answer → Code A α)

namespace Code

/-- Sequencing: a revert skips the rest. -/
def bind : Code A α → (α → Code A β) → Code A β
  | .done a, f => f a
  | .revert e, _ => .revert e
  | .get k, f => .get fun v => (k v).bind f
  | .set v k, f => .set v (k.bind f)
  | .emit e k, f => .emit e (k.bind f)
  | .ask r k, f => .ask r fun a => (k a).bind f

instance : Monad (Code A) where
  pure := Code.done
  bind := Code.bind

/-- The storage. -/
def read : Code A A.Storage := .get .done

/-- A change of the storage. -/
def modify (f : A.Storage → A.Storage) : Code A Unit := .get fun v => .set (f v) (.done ())

/-- `emit e`. -/
def log (e : A.Event) : Code A Unit := .emit e (.done ())

/-- A call to another contract. -/
def request (r : A.Request) : Code A (Option A.Answer) := .ask r .done

/-- `if (!c) revert e`. -/
def require (c : Prop) [Decidable c] (e : A.Error) : Code A Unit :=
  if c then .done () else .revert e

/-- The outcome of inherited code, whose reverts are `f` of its own. -/
def inherit {ε : Type} (f : ε → A.Error) : Except ε α → Code A α
  | .ok a => .done a
  | .error e => .revert (f e)

/-- Events, in their order. -/
def logAll : List A.Event → Code A Unit
  | [] => .done ()
  | e :: es => .emit e (logAll es)

end Code

/-! ## Execution -/

/-- A message to a contract. -/
structure Msg (A : Abi) where
  /-- `msg.sender`. -/
  sender : Address
  /-- `block.timestamp`. -/
  time : Nat
  /-- The function called. -/
  call : A.Call

/-- A call in progress: its message and the storage it began in. `id` tells it from every other call
    that has been committed. -/
structure Frame (A : Abi) extends Msg A where
  /-- The length of the journal when the call began. -/
  id : Nat
  /-- The storage when the call began. -/
  entry : A.Storage

/-- What a call has done. -/
inductive Item (A : Abi) : Type where
  | entered
  | event (e : A.Event)
  | asked (r : A.Request) (answer : Option A.Answer) (storage : A.Storage)
  | returned

/-- An entry of the journal: what was done, and by which call. -/
structure Record (A : Abi) where
  frame : Frame A
  item : Item A

/-- The state of a contract. -/
structure Account (A : Abi) where
  storage : A.Storage
  /-- What committed calls have done, the oldest first. -/
  journal : List (Record A)

/-- Note what a call has done. -/
def Account.note (s : Account A) (f : Frame A) (item : Item A) : Account A :=
  { s with journal := s.journal ++ [⟨f, item⟩] }

/-- Noting an item leaves the storage. -/
@[simp] lemma Account.note_storage (s : Account A) (f : Frame A) (item : Item A) :
    (s.note f item).storage = s.storage := rfl

/-- Noting an item adds it to the journal. -/
@[simp] lemma Account.note_journal (s : Account A) (f : Frame A) (item : Item A) :
    (s.note f item).journal = s.journal ++ [⟨f, item⟩] := rfl

/-- Whatever is read off the journal grows with what is noted. -/
lemma Account.filterMap_note {T : Type} {g : Record A → Option T} {s : Account A} {f : Frame A}
    {item : Item A} :
    (s.note f item).journal.filterMap g = s.journal.filterMap g ++ (g ⟨f, item⟩).toList := by
  rw [note_journal, List.filterMap_append]
  cases h : g ⟨f, item⟩ <;> simp [h]

/-- The code of a contract: what it does on a message. -/
abbrev Contract (A : Abi) := Msg A → Code A Unit

/-- The other contracts: how they answer a request, in some state `θ` of theirs. -/
abbrev Others (A : Abi) (θ : Type) :=
  A.Request → Account A × θ → Option A.Answer × Account A × θ

variable {θ : Type}

/-- Execute code within a call. -/
def Code.exec (others : Others A θ) (f : Frame A) :
    Code A α → Account A × θ → Except A.Error α × Account A × θ
  | .done a, s => (.ok a, s)
  | .revert e, s => (.error e, s)
  | .get k, s => (k s.1.storage).exec others f s
  | .set v k, s => k.exec others f ({ s.1 with storage := v }, s.2)
  | .emit e k, s => k.exec others f (s.1.note f (.event e), s.2)
  | .ask r k, s =>
    let q := others r s
    (k q.1).exec others f (q.2.1.note f (.asked r q.1 s.1.storage), q.2.2)

/-- The call that a message makes. -/
def Msg.frame (m : Msg A) (s : Account A) : Frame A :=
  { m with
    id := s.journal.length
    entry := s.storage }

/-- Make a call. One that reverts leaves the state as it was. -/
def invoke (C : Contract A) (others : Others A θ) (m : Msg A) (s : Account A × θ) :
    Except A.Error Unit × Account A × θ :=
  match (C m).exec others (m.frame s.1) (s.1.note (m.frame s.1) .entered, s.2) with
  | (.ok _, s') => (.ok (), s'.1.note (m.frame s.1) .returned, s'.2)
  | (.error e, _) => (.error e, s)

/-! ## Weakest preconditions -/

/-- What has to hold for `Q` to hold after the code, where a request to another contract may move the
    state of this one along `R`. -/
def Code.wp (R : Account A → Account A → Prop) (f : Frame A) :
    Code A α → (Except A.Error α → Account A → Prop) → Account A → Prop
  | .done a, Q, s => Q (.ok a) s
  | .revert e, Q, s => Q (.error e) s
  | .get k, Q, s => (k s.storage).wp R f Q s
  | .set v k, Q, s => k.wp R f Q { s with storage := v }
  | .emit e k, Q, s => k.wp R f Q (s.note f (.event e))
  | .ask r k, Q, s => ∀ a s', R s s' → (k a).wp R f Q (s'.note f (.asked r a s.storage))

namespace Code

variable {R : Account A → Account A → Prop} {f : Frame A}

/-- The rule of consequence. -/
lemma wp_mono {c : Code A α} {Q Q' : Except A.Error α → Account A → Prop} {s : Account A}
    (hQ : ∀ r s, Q r s → Q' r s) (hc : c.wp R f Q s) : c.wp R f Q' s := by
  induction c generalizing s with
  | done a => exact hQ _ _ hc
  | revert e => exact hQ _ _ hc
  | get k ih => exact ih _ hc
  | set v k ih => exact ih hc
  | emit e k ih => exact ih hc
  | ask r k ih => exact fun a s' step => ih a (hc a s' step)

/-- Nothing is owed for a postcondition that always holds. -/
lemma wp_trivial {c : Code A α} {Q : Except A.Error α → Account A → Prop} {s : Account A}
    (hQ : ∀ r s, Q r s) : c.wp R f Q s := by
  induction c generalizing s with
  | done a => exact hQ _ _
  | revert e => exact hQ _ _
  | get k ih => exact ih _
  | set v k ih => exact ih
  | emit e k ih => exact ih
  | ask r k ih => exact fun a s' _ => ih a

/-- Two postconditions at once. -/
lemma wp_and {c : Code A α} {Q Q' : Except A.Error α → Account A → Prop} {s : Account A}
    (hc : c.wp R f Q s) (hc' : c.wp R f Q' s) : c.wp R f (fun r s => Q r s ∧ Q' r s) s := by
  induction c generalizing s with
  | done a => exact ⟨hc, hc'⟩
  | revert e => exact ⟨hc, hc'⟩
  | get k ih => exact ih _ hc hc'
  | set v k ih => exact ih hc hc'
  | emit e k ih => exact ih hc hc'
  | ask r k ih => exact fun a s' step => ih a (hc a s' step) (hc' a s' step)

/-- The rule of sequencing. -/
lemma wp_bind {c : Code A α} {k : α → Code A β} {Q : Except A.Error β → Account A → Prop}
    {s : Account A} (hc : c.wp R f (fun r s => match r with
      | .ok a => (k a).wp R f Q s
      | .error e => Q (.error e) s) s) : (c >>= k).wp R f Q s := by
  change (c.bind k).wp R f Q s
  induction c generalizing s with
  | done a => exact hc
  | revert e => exact hc
  | get k ih => exact ih _ hc
  | set v k ih => exact ih hc
  | emit e k ih => exact ih hc
  | ask r k ih => exact fun a s' step => ih a (hc a s' step)

section
variable {Q : Except A.Error β → Account A → Prop} {s : Account A}

/-- A value meets what holds of it now. -/
@[simp] lemma wp_pure {b : β} : (pure b : Code A β).wp R f Q s ↔ Q (.ok b) s := Iff.rfl

/-- What follows a read starts with the storage. -/
@[simp] lemma wp_read_bind {k : A.Storage → Code A β} :
    (read >>= k).wp R f Q s ↔ (k s.storage).wp R f Q s := Iff.rfl

/-- What follows a write starts from the changed storage. -/
@[simp] lemma wp_modify_bind {g : A.Storage → A.Storage} {k : Unit → Code A β} :
    (modify g >>= k).wp R f Q s ↔ (k ()).wp R f Q { s with storage := g s.storage } := Iff.rfl

/-- What follows an event starts with the event in the journal. -/
@[simp] lemma wp_log_bind {e : A.Event} {k : Unit → Code A β} :
    (log e >>= k).wp R f Q s ↔ (k ()).wp R f Q (s.note f (.event e)) := Iff.rfl

/-- An event is noted in the journal. -/
@[simp] lemma wp_log {e : A.Event} {Q : Except A.Error Unit → Account A → Prop} :
    (log e).wp R f Q s ↔ Q (.ok ()) (s.note f (.event e)) := Iff.rfl

/-- What follows a request starts from any account that the request may leave. -/
@[simp] lemma wp_request_bind {r : A.Request} {k : Option A.Answer → Code A β} :
    (request r >>= k).wp R f Q s ↔
      ∀ a s', R s s' → (k a).wp R f Q (s'.note f (.asked r a s.storage)) := Iff.rfl

/-- What follows a check starts where the check passes. -/
@[simp] lemma wp_require_bind {c : Prop} [Decidable c] {e : A.Error} {k : Unit → Code A β} :
    (require c e >>= k).wp R f Q s ↔
      (c → (k ()).wp R f Q s) ∧ (¬c → Q (.error e) s) := by
  unfold require
  split
  case isTrue h => exact ⟨fun wp => ⟨fun _ => wp, fun n => absurd h n⟩, fun wp => wp.1 h⟩
  case isFalse h => exact ⟨fun wp => ⟨fun p => absurd p h, fun _ => wp⟩, fun wp => wp.2 h⟩

/-- What follows a computation starts from its result. -/
@[simp] lemma wp_inherit_bind {ε : Type} {g : ε → A.Error} {x : Except ε α} {k : α → Code A β} :
    (inherit g x >>= k).wp R f Q s ↔
      (∀ a, x = .ok a → (k a).wp R f Q s) ∧ ∀ e, x = .error e → Q (.error (g e)) s := by
  cases x with
  | ok a => exact ⟨fun wp => ⟨fun _ eq => Except.ok.inj eq ▸ wp, nofun⟩, fun wp => wp.1 a rfl⟩
  | error e => exact ⟨fun wp => ⟨nofun, fun _ eq => Except.error.inj eq ▸ wp⟩, fun wp => wp.2 e rfl⟩

/-- A computed result meets what holds of it, and its error is renamed. -/
@[simp] lemma wp_inherit {ε : Type} {g : ε → A.Error} {x : Except ε β} :
    (inherit g x : Code A β).wp R f Q s ↔
      (∀ b, x = .ok b → Q (.ok b) s) ∧ ∀ e, x = .error e → Q (.error (g e)) s := by
  cases x with
  | ok b => exact ⟨fun wp => ⟨fun _ eq => Except.ok.inj eq ▸ wp, nofun⟩, fun wp => wp.1 b rfl⟩
  | error e => exact ⟨fun wp => ⟨nofun, fun _ eq => Except.error.inj eq ▸ wp⟩, fun wp => wp.2 e rfl⟩

/-- A check passes, or its error is raised. -/
@[simp] lemma wp_require {c : Prop} [Decidable c] {e : A.Error}
    {Q : Except A.Error Unit → Account A → Prop} :
    (require c e : Code A Unit).wp R f Q s ↔ (c → Q (.ok ()) s) ∧ (¬c → Q (.error e) s) := by
  unfold require
  split
  case isTrue h => exact ⟨fun wp => ⟨fun _ => wp, fun n => absurd h n⟩, fun wp => wp.1 h⟩
  case isFalse h => exact ⟨fun wp => ⟨fun p => absurd p h, fun _ => wp⟩, fun wp => wp.2 h⟩

/-- Events are noted in the journal one after another. -/
@[simp] lemma wp_logAll {es : List A.Event} {Q : Except A.Error Unit → Account A → Prop} :
    (logAll es).wp R f Q s ↔
      Q (.ok ()) { s with journal := s.journal ++ es.map fun e => ⟨f, .event e⟩ } := by
  induction es generalizing s with
  | nil => simp [logAll, wp]
  | cons e es ih => simp [logAll, wp, ih, Account.note]

end

/-- Execution meets the weakest precondition, when the other contracts keep to `R`. -/
theorem wp_sound {others : Others A θ} (keep : ∀ r s, R s.1 (others r s).2.1) {c : Code A α}
    {Q : Except A.Error α → Account A → Prop} {s : Account A × θ} (hc : c.wp R f Q s.1) :
    Q (c.exec others f s).1 (c.exec others f s).2.1 := by
  induction c generalizing s with
  | done a => exact hc
  | revert e => exact hc
  | get k ih => exact ih _ hc
  | set v k ih => exact ih hc
  | emit e k ih => exact ih hc
  | ask r k ih => exact ih _ (hc _ _ (keep r s))

end Code

end AvaSettle.Evm
