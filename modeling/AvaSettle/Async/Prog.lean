import Mathlib.Data.List.Basic

/-!
# Asynchronous programs

The shape of an asynchronous service method, independent of what it talks to. A program is the tree
of everything it awaits: each awaited call is one operation of a signature, and the continuation
receives either its answer or the error it threw. `Promise.all` is a node of its own, because a
rejection leaves the other calls in flight, and so is a promise that is started and not awaited.
Everything between two awaits is a pure Lean function of the answers so far.
-/

namespace AvaSettle.Async

/-- The awaited operations of a service, the type of each answer, and the errors they throw. -/
structure Sig where
  /-- The operations a program can await. -/
  Op : Type
  /-- The type of the answer to an operation. -/
  Res : Op → Type
  /-- The values that can be thrown. -/
  Err : Type

variable {S : Sig} {α β γ : Type}

/-- One element of a `Promise.all`: a call still in flight, with the pure code that follows it, or
    a call that has been fulfilled. -/
inductive Slot (S : Sig) (β : Type) : Type where
  | todo (op : S.Op) (post : Except S.Err (S.Res op) → Except S.Err β)
  | done (b : β)

/-- A program: the tree of what it awaits. -/
inductive Prog (S : Sig) : Type → Type 1 where
  | pure {α : Type} (a : α) : Prog S α
  | throw {α : Type} (e : S.Err) : Prog S α
  | call {α : Type} (op : S.Op) (k : Except S.Err (S.Res op) → Prog S α) : Prog S α
  | all {α β : Type} (slots : List (Slot S β)) (k : Except S.Err (List β) → Prog S α) : Prog S α
  | fork {α : Type} (child : Prog S Unit) (next : Prog S α) : Prog S α

namespace Slot

/-- The operation of a call that is still in flight. -/
def op? : Slot S β → Option S.Op
  | .todo op _ => some op
  | .done _ => none

/-- The values of a list of slots, once every call has been fulfilled. -/
def results : List (Slot S β) → Option (List β)
  | [] => some []
  | .done b :: slots => (results slots).map (b :: ·)
  | .todo _ _ :: _ => none

/-- The operations still in flight. -/
def pending (slots : List (Slot S β)) : List S.Op :=
  slots.filterMap op?

/-- No slots, no operations. -/
@[simp] lemma pending_nil : pending ([] : List (Slot S β)) = [] := rfl

/-- A slot that waits has its operation in flight. -/
@[simp] lemma pending_todo {op : S.Op} {post : Except S.Err (S.Res op) → Except S.Err β}
    {slots : List (Slot S β)} : pending (.todo op post :: slots) = op :: pending slots := rfl

/-- A slot that is done has nothing in flight. -/
@[simp] lemma pending_done {b : β} {slots : List (Slot S β)} :
    pending (.done b :: slots) = pending slots := rfl

/-- The operations in flight of joined slots. -/
@[simp] lemma pending_append (xs ys : List (Slot S β)) :
    pending (xs ++ ys) = pending xs ++ pending ys :=
  List.filterMap_append

/-- When the values are there, no call is in flight. -/
lemma done_of_results {slots : List (Slot S β)} {bs : List β} (res : results slots = some bs) :
    ∀ s ∈ slots, ∃ b, s = .done b := by
  induction slots generalizing bs with
  | nil => simp
  | cons s slots ih =>
    cases s with
    | todo op post => cases res
    | done b =>
      obtain ⟨bs', rest, -⟩ := Option.map_eq_some_iff.1 res
      exact List.forall_mem_cons.2 ⟨⟨b, rfl⟩, ih rest⟩

/-- What is in flight of slots that are made from items. -/
lemma pending_map {T : Type} {items : List T} {slot : T → Slot S β} {op : T → S.Op}
    (each : ∀ x, (slot x).op? = some (op x)) : pending (items.map slot) = items.map op := by
  rw [pending, List.filterMap_map, ← List.filterMap_eq_map]
  exact List.filterMap_congr fun x _ => each x

/-- A value of the results is one of the slots. -/
lemma mem_of_results {slots : List (Slot S β)} {bs : List β} {b : β} (res : results slots = some bs)
    (mem : b ∈ bs) : .done b ∈ slots := by
  induction slots generalizing bs with
  | nil =>
    cases res
    cases mem
  | cons s slots ih =>
    cases s with
    | todo op post => cases res
    | done b' =>
      obtain ⟨bs', rest, rfl⟩ := Option.map_eq_some_iff.1 res
      rcases List.mem_cons.1 mem with rfl | mem
      · exact List.mem_cons_self
      · exact List.mem_cons_of_mem _ (ih rest mem)

/-- When the values are there, nothing is in flight. -/
lemma pending_of_results {slots : List (Slot S β)} {bs : List β} (res : results slots = some bs) :
    pending slots = [] := by
  refine List.filterMap_eq_nil_iff.2 fun s mem => ?_
  obtain ⟨b, rfl⟩ := done_of_results res s mem
  rfl

/-- When the values are there, the slots are those values, in their order. -/
lemma eq_of_results {slots : List (Slot S β)} {bs : List β} (res : results slots = some bs) :
    slots = bs.map .done := by
  induction slots generalizing bs with
  | nil =>
    cases res
    rfl
  | cons s slots ih =>
    cases s with
    | todo op post => cases res
    | done b =>
      obtain ⟨bs', rest, rfl⟩ := Option.map_eq_some_iff.1 res
      rw [List.map_cons, ← ih rest]

/-- What holds of slots holds of them once one is done. -/
lemma forall_fulfil {P : Slot S β → Prop} {xs ys : List (Slot S β)} {s : Slot S β} {b : β}
    (each : ∀ s' ∈ xs ++ s :: ys, P s') (done : P (.done b)) : ∀ s' ∈ xs ++ .done b :: ys, P s' := by
  simp only [List.forall_mem_append, List.forall_mem_cons] at each ⊢
  exact ⟨each.1, done, each.2.2⟩

end Slot

namespace Prog

/-- Sequencing: the continuation runs on the value, an error skips it. -/
def bind : Prog S α → (α → Prog S β) → Prog S β
  | .pure a, f => f a
  | .throw e, _ => .throw e
  | .call op k, f => .call op fun r => (k r).bind f
  | .all slots k, f => .all slots fun r => (k r).bind f
  | .fork child next, f => .fork child (next.bind f)

/-- `try`/`catch`: the handler runs on the error, wherever in the body it was thrown. -/
def tryCatch : Prog S α → (S.Err → Prog S α) → Prog S α
  | .pure a, _ => .pure a
  | .throw e, f => f e
  | .call op k, f => .call op fun r => (k r).tryCatch f
  | .all slots k, f => .all slots fun r => (k r).tryCatch f
  | .fork child next, f => .fork child (next.tryCatch f)

instance : Monad (Prog S) where
  pure := Prog.pure
  bind := Prog.bind

instance : MonadExceptOf S.Err (Prog S) where
  throw := Prog.throw
  tryCatch := Prog.tryCatch

/-- A value is passed on. -/
@[simp] lemma pure_bind (a : α) (f : α → Prog S β) :
    (Pure.pure a : Prog S α) >>= f = f a := rfl

/-- An exception is passed on. -/
@[simp] lemma throw_bind (e : S.Err) (f : α → Prog S β) :
    (throw e : Prog S α) >>= f = throw e := rfl

/-- What follows is followed by what follows it. -/
lemma bind_assoc (p : Prog S α) (f : α → Prog S β) (g : β → Prog S γ) :
    p >>= f >>= g = p >>= fun a => f a >>= g := by
  change (p.bind f).bind g = p.bind fun a => (f a).bind g
  induction p with
  | pure a => rfl
  | throw e => rfl
  | call op k ih => exact congrArg (Prog.call op) (funext fun r => ih r f)
  | all slots k ih => exact congrArg (Prog.all slots) (funext fun r => ih r f)
  | fork child next _ ih => exact congrArg (Prog.fork child) (ih f)

/-- Return a value or throw an error that pure code produced. -/
def ofExcept : Except S.Err α → Prog S α
  | .ok a => .pure a
  | .error e => .throw e

/-- `await op`: the answer is the value, an error is thrown. -/
def await (op : S.Op) : Prog S (S.Res op) :=
  .call op ofExcept

/-- `await op.catch(() => b)`: an error is replaced by the value. -/
def awaitOr (op : S.Op) (f : S.Res op → β) (b : β) : Prog S β :=
  .call op fun
    | .ok r => .pure (f r)
    | .error _ => .pure b

/-- `if (!c) throw e`. -/
def require (c : Prop) [Decidable c] (e : S.Err) : Prog S Unit :=
  if c then .pure () else .throw e

/-- The value of an optional result, or the error thrown where it is missing. -/
def orThrow (e : S.Err) : Option α → Prog S α
  | some a => .pure a
  | none => .throw e

/-- `Promise.all`: every call is started, the first rejection is thrown. -/
def promiseAll (slots : List (Slot S β)) : Prog S (List β) :=
  .all slots ofExcept

/-- `void p.catch(handler)`: the program is started and not awaited. -/
def spawn (child : Prog S Unit) : Prog S Unit :=
  .fork child (.pure ())

/-- A call nobody waits for any more: what is left of a rejected `Promise.all`. -/
def detached (op : S.Op) : Prog S Unit :=
  .call op fun _ => .pure ()

/-- `for (const x of xs) await f(x)`. -/
def forEach (f : α → Prog S Unit) : List α → Prog S Unit
  | [] => .pure ()
  | a :: as => f a >>= fun _ => forEach f as

/-- Run a program for its effects. -/
def discard (p : Prog S α) : Prog S Unit :=
  p >>= fun _ => .pure ()

/-! ## Programs that use some operations only -/

/-- A slot awaits an operation that satisfies `P`, and the code after it throws within `E`. -/
def SlotUses (P : S.Op → Prop) (E : S.Err → Prop) : Slot S β → Prop
  | .todo op post => P op ∧ ∀ r, (∀ e, r = .error e → E e) → ∀ e, post r = .error e → E e
  | .done _ => True

/-- A slot that has been fulfilled awaits nothing. -/
lemma slotUses_fulfil {P : S.Op → Prop} {E : S.Err → Prop} {xs ys : List (Slot S β)} {s : Slot S β}
    {b : β} (uses : ∀ s' ∈ xs ++ s :: ys, SlotUses P E s') :
    ∀ s' ∈ xs ++ .done b :: ys, SlotUses P E s' :=
  Slot.forall_fulfil uses trivial

/-- Every operation of the program satisfies `P`, nothing is left running, and what is thrown is
    within `E` as long as what the operations throw is. -/
def Uses (P : S.Op → Prop) (E : S.Err → Prop) : {α : Type} → Prog S α → Prop
  | _, .pure _ => True
  | _, .throw e => E e
  | _, .call op k => P op ∧ (∀ r, (k (.ok r)).Uses P E) ∧ ∀ e, E e → (k (.error e)).Uses P E
  | _, .all slots k => (∀ s ∈ slots, SlotUses P E s) ∧ (∀ bs, (k (.ok bs)).Uses P E) ∧
      ∀ e, E e → (k (.error e)).Uses P E
  | _, .fork _ _ => False

section Uses
variable {P : S.Op → Prop} {E : S.Err → Prop}

/-- A program that uses some operations uses no others. -/
lemma uses_mono {Q : S.Op → Prop} {p : Prog S α} (hPQ : ∀ op, P op → Q op) (hp : p.Uses P E) :
    p.Uses Q E := by
  induction p with
  | pure a => trivial
  | throw e => exact hp
  | call op k ih => exact ⟨hPQ op hp.1, fun r => ih _ (hp.2.1 r), fun e he => ih _ (hp.2.2 e he)⟩
  | all slots k ih =>
    refine ⟨fun s mem => ?_, fun r => ih _ (hp.2.1 r), fun e he => ih _ (hp.2.2 e he)⟩
    cases s with
    | todo op post => exact ⟨hPQ op (hp.1 _ mem).1, (hp.1 _ mem).2⟩
    | done b => trivial
  | fork child next _ _ => exact hp.elim

/-- A value uses no operation. -/
lemma uses_pure (a : α) : (Pure.pure a : Prog S α).Uses P E := trivial

/-- An exception uses no operation. -/
lemma uses_throw {e : S.Err} (h : E e) : (throw e : Prog S α).Uses P E := h

/-- A computation uses no operation. -/
lemma uses_ofExcept {x : Except S.Err α} (h : ∀ e, x = .error e → E e) :
    (ofExcept x).Uses P E := by
  cases x with
  | ok a => trivial
  | error e => exact h e rfl

/-- A value that may be missing uses no operation. -/
lemma uses_orThrow {e : S.Err} {x : Option α} (h : E e) : (orThrow e x).Uses P E := by
  cases x with
  | none => exact h
  | some a => trivial

/-- A check uses no operation. -/
lemma uses_require {c : Prop} [Decidable c] {e : S.Err} (h : ¬c → E e) :
    (require c e).Uses P E := by
  unfold require
  split
  case isTrue => trivial
  case isFalse hc => exact h hc

/-- An operation uses itself. -/
lemma uses_await {op : S.Op} (h : P op) : (await op).Uses P E :=
  ⟨h, fun _ => trivial, fun _ he => he⟩

/-- An operation with a default uses itself. -/
lemma uses_awaitOr {op : S.Op} {f : S.Res op → β} {b : β} (h : P op) :
    (awaitOr op f b).Uses P E :=
  ⟨h, fun _ => trivial, fun _ _ => trivial⟩

/-- Operations side by side use those of their slots. -/
lemma uses_promiseAll {slots : List (Slot S β)} (h : ∀ s ∈ slots, SlotUses P E s) :
    (promiseAll slots).Uses P E :=
  ⟨h, fun _ => trivial, fun _ he => he⟩

/-- A program and what follows it use the operations of both. -/
lemma uses_bind {p : Prog S α} {f : α → Prog S β} (hp : p.Uses P E)
    (hf : ∀ a, (f a).Uses P E) : (p >>= f).Uses P E := by
  change (p.bind f).Uses P E
  induction p with
  | pure a => exact hf a
  | throw e => exact hp
  | call op k ih => exact ⟨hp.1, fun r => ih _ (hp.2.1 r) hf, fun e he => ih _ (hp.2.2 e he) hf⟩
  | all slots k ih => exact ⟨hp.1, fun r => ih _ (hp.2.1 r) hf, fun e he => ih _ (hp.2.2 e he) hf⟩
  | fork child next _ _ => exact hp.elim

/-- A program and its handler use the operations of both. -/
lemma uses_tryCatch {p : Prog S α} {f : S.Err → Prog S α} (hp : p.Uses P E)
    (hf : ∀ e, E e → (f e).Uses P E) : (p.tryCatch f).Uses P E := by
  induction p with
  | pure a => trivial
  | throw e => exact hf e hp
  | call op k ih => exact ⟨hp.1, fun r => ih _ (hp.2.1 r) hf, fun e he => ih _ (hp.2.2 e he) hf⟩
  | all slots k ih => exact ⟨hp.1, fun r => ih _ (hp.2.1 r) hf, fun e he => ih _ (hp.2.2 e he) hf⟩
  | fork child next _ _ => exact hp.elim

/-- A loop uses the operations of its passes. -/
lemma uses_forEach {f : α → Prog S Unit} {as : List α} (h : ∀ a ∈ as, (f a).Uses P E) :
    (forEach f as).Uses P E := by
  induction as with
  | nil => trivial
  | cons a as ih =>
    exact uses_bind (h a List.mem_cons_self) fun _ =>
      ih fun a' mem => h a' (List.mem_cons_of_mem _ mem)

end Uses

end Prog

end AvaSettle.Async
