import AvaSettle.Evm.Reentry

/-!
# Contracts that do not call back

Other contracts that have a state of their own and answer from it. Code that is executed against them
does the same whatever has been done before: its outcome depends on the storage and on their state only.
-/

namespace AvaSettle.Evm

variable {A : Abi} {θ α β : Type}

/-- The other contracts answer, and leave this one alone. -/
def passive (answer : A.Request → θ → Option A.Answer × θ) : Others A θ := fun r s =>
  let q := answer r s.2
  (q.1, s.1, q.2)

/-- What comes of code. -/
structure Play (A : Abi) (θ α : Type) where
  result : Except A.Error α
  storage : A.Storage
  others : θ
  /-- What the code has done, in order. -/
  items : List (Item A)

/-- The same with something done before. -/
def Play.after (item : Item A) (p : Play A θ α) : Play A θ α :=
  { p with items := item :: p.items }

/-- Play code against other contracts that do not call back. -/
def Code.play (answer : A.Request → θ → Option A.Answer × θ) :
    Code A α → A.Storage → θ → Play A θ α
  | .done a, v, t => ⟨.ok a, v, t, []⟩
  | .revert e, v, t => ⟨.error e, v, t, []⟩
  | .get k, v, t => (k v).play answer v t
  | .set v' k, _, t => k.play answer v' t
  | .emit e k, v, t => (k.play answer v t).after (.event e)
  | .ask r k, v, t =>
    let q := answer r t
    ((k q.1).play answer v q.2).after (.asked r q.1 v)

/-- The events among what has been done. -/
def eventsOf (items : List (Item A)) : List A.Event :=
  items.filterMap fun
    | .event e => some e
    | _ => none

/-- The events of a contract. -/
def Account.events (s : Account A) : List A.Event := eventsOf (s.journal.map Record.item)

section
variable {answer : A.Request → θ → Option A.Answer × θ} {f : Frame A} {v : A.Storage} {t : θ}

/-- Execution is play, noted in the journal. -/
theorem Code.exec_passive {c : Code A α} {j : List (Record A)} :
    c.exec (passive answer) f (⟨v, j⟩, t) =
      let p := c.play answer v t
      (p.result, ⟨p.storage, j ++ p.items.map fun i => ⟨f, i⟩⟩, p.others) := by
  induction c generalizing v t j with
  | done a => simp [exec, play]
  | revert e => simp [exec, play]
  | get k ih => exact ih _
  | set v' k ih => exact ih
  | emit e k ih => simp [exec, play, Play.after, Account.note, ih]
  | ask r k ih => simp [exec, play, Play.after, Account.note, passive, ih]

variable (answer) in
/-- What comes of a call: it reverts and leaves everything as it was, or it returns. -/
theorem invoke_passive {C : Contract A} {m : Msg A} {s : Account A} :
    let p := (C m).play answer s.storage t
    let r := invoke C (passive answer) m (s, t)
    (∀ e, p.result = .error e → r = (.error e, s, t)) ∧
      (p.result = .ok () → r.1 = .ok () ∧ r.2.1.storage = p.storage ∧ r.2.2 = p.others ∧
        r.2.1.events = s.events ++ eventsOf p.items) := by
  intro p r
  have exec : (C m).exec (passive answer) (m.frame s) (s.note (m.frame s) .entered, t) =
      (p.result, ⟨p.storage, (s.note (m.frame s) .entered).journal ++
        p.items.map fun i => ⟨m.frame s, i⟩⟩, p.others) := Code.exec_passive
  constructor
  · intro e failed
    change invoke C (passive answer) m (s, t) = _
    simp only [invoke, exec, failed]
  · intro returned
    have eq : r = (.ok (), Account.note ⟨p.storage, (s.note (m.frame s) .entered).journal ++
        p.items.map fun i => ⟨m.frame s, i⟩⟩ (m.frame s) .returned, p.others) := by
      change invoke C (passive answer) m (s, t) = _
      simp only [invoke, exec, returned]
    rw [eq]
    refine ⟨rfl, rfl, rfl, ?_⟩
    simp [Account.events, eventsOf, Function.comp_def]

/-! ## Sequences -/

/-- One play after another. -/
def Play.then (p : Play A θ α) (k : α → A.Storage → θ → Play A θ β) : Play A θ β :=
  match p.result with
  | .ok a =>
    let q := k a p.storage p.others
    { q with items := p.items ++ q.items }
  | .error e => { p with result := .error e }

/-- An item that was noted before stays before what follows. -/
lemma Play.then_after {p : Play A θ α} {k : α → A.Storage → θ → Play A θ β} {item : Item A} :
    (p.after item).then k = (p.then k).after item := by
  unfold Play.then Play.after
  dsimp only
  cases p.result <;> rfl

/-- Playing a program is playing its first part and then what follows. -/
lemma Code.play_bind {c : Code A α} {k : α → Code A β} :
    (c >>= k).play answer v t = (c.play answer v t).then fun a => (k a).play answer := by
  change (c.bind k).play answer v t = _
  induction c generalizing v t with
  | done a => rfl
  | revert e => rfl
  | get k' ih => exact ih _
  | set v' k' ih => exact ih
  | emit e k' ih => exact (congrArg _ ih).trans Play.then_after.symm
  | ask r k' ih => exact (congrArg _ (ih _)).trans Play.then_after.symm

/-! ## Steps -/

section
variable {k : A.Storage → Code A β} {u : Unit → Code A β}

/-- Playing on after a read. -/
lemma Code.play_read_bind : (read >>= k).play answer v t = (k v).play answer v t := rfl

/-- Playing on after a write. -/
lemma Code.play_modify_bind {g : A.Storage → A.Storage} :
    (modify g >>= u).play answer v t = (u ()).play answer (g v) t := rfl

/-- Playing on after a request, with its answer. -/
lemma Code.play_request_bind {r : A.Request} {k : Option A.Answer → Code A β} :
    (request r >>= k).play answer v t =
      ((k (answer r t).1).play answer v (answer r t).2).after (.asked r (answer r t).1 v) := rfl

/-- What follows a read and what comes next is what comes next after the read. -/
lemma Code.read_bind_bind {f : A.Storage → Code A α} {k : α → Code A β} :
    (read >>= f) >>= k = read >>= fun v => f v >>= k := rfl

/-- A computation that succeeds is passed on. -/
lemma Code.inherit_ok_bind {ε : Type} {g : ε → A.Error} {a : α} {k : α → Code A β} :
    inherit g (.ok a) >>= k = k a := rfl

/-- A check that passes is nothing. -/
lemma Code.require_pos_bind {c : Prop} [Decidable c] (h : c) {e : A.Error} :
    require c e >>= u = u () := by
  rw [require, if_pos h]
  rfl

end

/-! ## Agreement -/

/-- The plays have one result and, where they succeed, leave the same and have emitted the same. -/
structure Play.Agrees (p q : Play A θ α) : Prop where
  result : p.result = q.result
  left : ∀ a, q.result = .ok a →
    p.storage = q.storage ∧ p.others = q.others ∧ eventsOf p.items = eventsOf q.items

/-- Plays agree both ways. -/
lemma Play.Agrees.symm {p q : Play A θ α} (agrees : p.Agrees q) : q.Agrees p := by
  refine ⟨agrees.result.symm, fun a ok => ?_⟩
  obtain ⟨storage, others, events⟩ := agrees.left a (agrees.result.symm.trans ok)
  exact ⟨storage.symm, others.symm, events.symm⟩

/-- Plays that agree with one agree with each other. -/
lemma Play.Agrees.trans {p q r : Play A θ α} (h₁ : p.Agrees q) (h₂ : q.Agrees r) : p.Agrees r := by
  refine ⟨h₁.result.trans h₂.result, fun a ok => ?_⟩
  obtain ⟨storage, others, events⟩ := h₁.left a (h₂.result.trans ok)
  obtain ⟨storage', others', events'⟩ := h₂.left a ok
  exact ⟨storage.trans storage', others.trans others', events.trans events'⟩

/-- A request emits nothing. -/
lemma Play.agrees_after {p : Play A θ α} {r : A.Request} {a : Option A.Answer} {v : A.Storage} :
    (p.after (.asked r a v)).Agrees p := ⟨rfl, fun _ _ => ⟨rfl, rfl, rfl⟩⟩

/-- The events of joined items are joined. -/
lemma eventsOf_append {l l' : List (Item A)} : eventsOf (l ++ l') = eventsOf l ++ eventsOf l' :=
  List.filterMap_append

/-- What follows agrees where what came before does. -/
lemma Play.Agrees.then {p q : Play A θ α} {k : α → A.Storage → θ → Play A θ β} (agrees : p.Agrees q) :
    (p.then k).Agrees (q.then k) := by
  unfold Play.then
  rw [agrees.result]
  cases result : q.result with
  | error e => exact ⟨rfl, nofun⟩
  | ok a =>
    obtain ⟨storage, others, events⟩ := agrees.left a result
    dsimp only
    rw [storage, others]
    exact ⟨rfl, fun _ _ => ⟨rfl, rfl, by rw [eventsOf_append, eventsOf_append, events]⟩⟩

/-- Two calls come to the same: one result and, where they succeed, one storage, the same events, and
    one state of the other contracts. -/
structure Coincide (r r' : Except A.Error Unit × Account A × θ) : Prop where
  result : r.1 = r'.1
  left : r.1 = .ok () →
    r.2.1.storage = r'.2.1.storage ∧ r.2.2 = r'.2.2 ∧ r.2.1.events = r'.2.1.events

/-- Calls whose plays agree come to the same. -/
theorem coincide_of_agrees {C : Contract A} {m m' : Msg A} {s : Account A} {t t' : θ}
    (agrees : ((C m).play answer s.storage t).Agrees ((C m').play answer s.storage t')) :
    Coincide (invoke C (passive answer) m (s, t)) (invoke C (passive answer) m' (s, t')) := by
  obtain ⟨failed, returned⟩ := invoke_passive answer (C := C) (m := m) (s := s) (t := t)
  obtain ⟨failed', returned'⟩ :=
    invoke_passive answer (C := C) (m := m') (s := s) (t := t')
  cases result : ((C m').play answer s.storage t').result with
  | error e =>
    rw [failed e (agrees.result.trans result), failed' e result]
    exact ⟨rfl, nofun⟩
  | ok u =>
    obtain ⟨ok, storage, others, events⟩ := returned (agrees.result.trans result)
    obtain ⟨ok', storage', others', events'⟩ := returned' result
    obtain ⟨sameStorage, sameOthers, sameEvents⟩ := agrees.left u result
    refine ⟨ok.trans ok'.symm, fun _ => ⟨?_, ?_, ?_⟩⟩
    · rw [storage, storage', sameStorage]
    · rw [others, others', sameOthers]
    · rw [events, events', sameEvents]

/-! ## What is asked -/

/-- What has to hold for the code to ask nothing but what is allowed, whatever is answered, and for `Q`
    to hold of what it returns and leaves. -/
def Code.Asks (allowed : A.Request → Prop) :
    Code A α → A.Storage → (α → A.Storage → Prop) → Prop
  | .done a, v, Q => Q a v
  | .revert _, _, _ => True
  | .get k, v, Q => (k v).Asks allowed v Q
  | .set v' k, _, Q => k.Asks allowed v' Q
  | .emit _ k, v, Q => k.Asks allowed v Q
  | .ask r k, v, Q => allowed r ∧ ∀ a, (k a).Asks allowed v Q

section
variable {allowed : A.Request → Prop} {c : Code A α} {k : α → Code A β} {u : Unit → Code A β}
  {Q : α → A.Storage → Prop} {Q' : β → A.Storage → Prop}

/-- A program that asks only for what is allowed ends in what is weaker too. -/
lemma Code.asks_mono {Q' : α → A.Storage → Prop} (weaker : ∀ a v, Q a v → Q' a v)
    (asks : c.Asks allowed v Q) : c.Asks allowed v Q' := by
  induction c generalizing v with
  | done a => exact weaker a v asks
  | revert e => trivial
  | get k ih => exact ih _ asks
  | set v' k ih => exact ih asks
  | emit e k ih => exact ih asks
  | ask r k ih => exact ⟨asks.1, fun a => ih a (asks.2 a)⟩

/-- A program and what follows it ask for what both do. -/
lemma Code.asks_bind (asks : c.Asks allowed v fun a v => (k a).Asks allowed v Q') :
    (c >>= k).Asks allowed v Q' := by
  change (c.bind k).Asks allowed v Q'
  induction c generalizing v with
  | done a => exact asks
  | revert e => trivial
  | get k ih => exact ih _ asks
  | set v' k ih => exact ih asks
  | emit e k ih => exact ih asks
  | ask r k ih => exact ⟨asks.1, fun a => ih a (asks.2 a)⟩

/-- A value asks for nothing. -/
@[simp] lemma Code.asks_pure {a : α} : (pure a : Code A α).Asks allowed v Q ↔ Q a v := Iff.rfl

/-- A read asks for nothing. -/
@[simp] lemma Code.asks_read_bind {k : A.Storage → Code A β} :
    (read >>= k).Asks allowed v Q' ↔ (k v).Asks allowed v Q' := Iff.rfl

/-- A write asks for nothing. -/
@[simp] lemma Code.asks_modify_bind {g : A.Storage → A.Storage} :
    (modify g >>= u).Asks allowed v Q' ↔ (u ()).Asks allowed (g v) Q' := Iff.rfl

/-- An event asks for nothing, before what follows. -/
@[simp] lemma Code.asks_log_bind {e : A.Event} :
    (log e >>= u).Asks allowed v Q' ↔ (u ()).Asks allowed v Q' := Iff.rfl

/-- An event asks for nothing. -/
@[simp] lemma Code.asks_log {e : A.Event} {Q : Unit → A.Storage → Prop} :
    (log e).Asks allowed v Q ↔ Q () v := Iff.rfl

/-- A request asks for itself, and what follows it is asked after any answer. -/
@[simp] lemma Code.asks_request_bind {r : A.Request} {k : Option A.Answer → Code A β} :
    (request r >>= k).Asks allowed v Q' ↔ allowed r ∧ ∀ a, (k a).Asks allowed v Q' := Iff.rfl

/-- A check asks for nothing. -/
lemma Code.asks_require {p : Prop} [Decidable p] {e : A.Error} {Q : Unit → A.Storage → Prop}
    (asks : p → Q () v) : (require p e).Asks allowed v Q := by
  unfold require
  split
  case isTrue holds => exact asks holds
  case isFalse => trivial

/-- A check asks for nothing, before what follows where it passes. -/
lemma Code.asks_require_bind {p : Prop} [Decidable p] {e : A.Error}
    (asks : p → (u ()).Asks allowed v Q') : (require p e >>= u).Asks allowed v Q' :=
  asks_bind (asks_require asks)

/-- A computation asks for nothing. -/
lemma Code.asks_inherit {ε : Type} {g : ε → A.Error} {x : Except ε α}
    (asks : ∀ a, x = .ok a → Q a v) : (inherit g x).Asks allowed v Q := by
  cases x with
  | ok a => exact asks a rfl
  | error e => trivial

/-- A computation asks for nothing, before what follows its result. -/
lemma Code.asks_inherit_bind {ε : Type} {g : ε → A.Error} {x : Except ε α}
    (asks : ∀ a, x = .ok a → (k a).Asks allowed v Q') : (inherit g x >>= k).Asks allowed v Q' :=
  asks_bind (asks_inherit asks)

/-- Events ask for nothing. -/
@[simp] lemma Code.asks_logAll {es : List A.Event} {Q : Unit → A.Storage → Prop} :
    (logAll es).Asks allowed v Q ↔ Q () v := by
  induction es with
  | nil => exact Iff.rfl
  | cons e es ih => exact ih

/-- What every request that is asked does to the other contracts, the code does. -/
theorem Code.play_of_asks {R : θ → θ → Prop} (refl : ∀ t, R t t)
    (trans : ∀ {t₁ t₂ t₃}, R t₁ t₂ → R t₂ t₃ → R t₁ t₃)
    (step : ∀ r t, allowed r → R t (answer r t).2) (asks : c.Asks allowed v Q) :
    R t (c.play answer v t).others := by
  induction c generalizing v t with
  | done a => exact refl t
  | revert e => exact refl t
  | get k ih => exact ih _ asks
  | set v' k ih => exact ih asks
  | emit e k ih => exact ih asks
  | ask r k ih => exact trans (step r t asks.1) (ih _ (asks.2 _))

/-- So does a call. -/
theorem invoke_of_asks {R : θ → θ → Prop} (refl : ∀ t, R t t)
    (trans : ∀ {t₁ t₂ t₃}, R t₁ t₂ → R t₂ t₃ → R t₁ t₃)
    (step : ∀ r t, allowed r → R t (answer r t).2) {C : Contract A} {m : Msg A} {s : Account A}
    {Q : Unit → A.Storage → Prop} (asks : (C m).Asks allowed s.storage Q) :
    R t (invoke C (passive answer) m (s, t)).2.2 := by
  have played := Code.play_of_asks (t := t) refl trans step asks
  obtain ⟨failed, returned⟩ := invoke_passive answer (C := C) (m := m) (s := s) (t := t)
  cases result : ((C m).play answer s.storage t).result with
  | error e =>
    rw [failed e result]
    exact refl t
  | ok u =>
    rw [(returned result).2.2.1]
    exact played

end

/-- A call that reverts leaves everything as it was. -/
lemma invoke_error {C : Contract A} {others : Others A θ} {m : Msg A} {s : Account A × θ} {e : A.Error}
    (failed : (invoke C others m s).1 = .error e) : (invoke C others m s).2 = s := by
  unfold invoke at failed ⊢
  split
  case h_1 eq =>
    rw [eq] at failed
    cases failed
  case h_2 => rfl

end

end AvaSettle.Evm
