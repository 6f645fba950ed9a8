import AvaSettle.Evm.Code

/-!
# Re-entrant runs

What a contract can be put through: transactions by any senders, in which every contract it calls may
do anything, including calling back, at any depth, before it answers. The behaviour of the other
contracts in one transaction is a tree: for each request, the calls made back and the answer. Calls
made back within a request that reverts are undone with it.

`Guarantee` is the proof rule: a relation that every call keeps, as long as the calls made back keep
it, is kept by every run. One such relation holds of every contract: its journal only grows, and the
calls in it are told apart by their ids.
-/

namespace AvaSettle.Evm

variable {A : Abi}

/-- How another contract handles a request: the calls it makes back, each with the behaviour of the
    contracts called from it, and its answer. -/
inductive Behaviour (A : Abi) : Type where
  | handles (calls : List (Address × A.Call × List (Behaviour A))) (answer : Option A.Answer)

/-- The contracts that behave so, with `depth` nested calls to go. -/
def reenter (C : Contract A) (time : Nat) : Nat → Others A (List (Behaviour A))
  | _, _, (s, []) => (none, s, [])
  | 0, _, (s, _ :: bs) => (none, s, bs)
  | _ + 1, _, (s, .handles _ none :: bs) => (none, s, bs)
  | depth + 1, _, (s, .handles calls (some a) :: bs) =>
    (some a, calls.foldl (fun s c =>
      (invoke C (reenter C time depth) ⟨c.1, time, c.2.1⟩ (s, c.2.2)).2.1) s, bs)

/-- A transaction, with the behaviour of the contracts it meets. -/
structure Transaction (A : Abi) extends Msg A where
  /-- How deep calls may nest. -/
  depth : Nat
  /-- How the requests of the call are handled, in their order. -/
  others : List (Behaviour A)

/-- The outcome of a transaction. -/
def Transaction.result (C : Contract A) (t : Transaction A) (s : Account A) :
    Except A.Error Unit × Account A :=
  let r := invoke C (reenter C t.time t.depth) t.toMsg (s, t.others)
  (r.1, r.2.1)

/-- The state after a transaction. -/
def transact (C : Contract A) (s : Account A) (t : Transaction A) : Account A :=
  (t.result C s).2

/-- A transaction that reverts leaves the state as it was; any other returns. -/
lemma returned_of_transact (C : Contract A) (s : Account A) (t : Transaction A) :
    transact C s t = s ∨ ⟨t.toMsg.frame s, .returned⟩ ∈ (transact C s t).journal := by
  unfold transact Transaction.result invoke
  dsimp only
  split
  case h_1 => exact .inr (List.mem_append_right _ (List.mem_singleton_self _))
  case h_2 => exact .inl rfl

/-- The state after some transactions, with any that revert among them. -/
def run (C : Contract A) (s : Account A) (ts : List (Transaction A)) : Account A :=
  ts.foldl (transact C) s

/-! ## Guarantees -/

/-- A relation that every call made at `time` keeps, as long as the calls made back keep it. -/
structure GuaranteeAt (C : Contract A) (time : Nat) (G : Account A → Account A → Prop) : Prop where
  refl : ∀ s, G s s
  trans : ∀ {s₁ s₂ s₃}, G s₁ s₂ → G s₂ s₃ → G s₁ s₃
  call : ∀ (m : Msg A) (s : Account A), m.time = time → (C m).wp G (m.frame s)
    (fun r s' => r = .ok () → G s (s'.note (m.frame s) .returned)) (s.note (m.frame s) .entered)

/-- A relation that every call keeps, as long as the calls made back keep it. -/
structure Guarantee (C : Contract A) (G : Account A → Account A → Prop) : Prop where
  refl : ∀ s, G s s
  trans : ∀ {s₁ s₂ s₃}, G s₁ s₂ → G s₂ s₃ → G s₁ s₃
  call : ∀ (m : Msg A) (s : Account A), (C m).wp G (m.frame s)
    (fun r s' => r = .ok () → G s (s'.note (m.frame s) .returned)) (s.note (m.frame s) .entered)

namespace GuaranteeAt

variable {C : Contract A} {G : Account A → Account A → Prop} {time : Nat} {θ : Type}

/-- A call keeps the guarantee, when the other contracts do. -/
lemma invoke (guarantee : GuaranteeAt C time G) {others : Others A θ}
    (keep : ∀ r s, G s.1 (others r s).2.1) {m : Msg A} (now : m.time = time) (s : Account A × θ) :
    G s.1 (Evm.invoke C others m s).2.1 := by
  have post := Code.wp_sound keep (s := (s.1.note (m.frame s.1) .entered, s.2))
    (guarantee.call m s.1 now)
  unfold Evm.invoke
  split
  case h_1 u s' eq =>
    rw [eq] at post
    exact post rfl
  case h_2 e s' eq => exact guarantee.refl s.1

/-- Calls made back keep the guarantee. -/
lemma reenter (guarantee : GuaranteeAt C time G) (depth : Nat) (r : A.Request)
    (s : Account A × List (Behaviour A)) : G s.1 (Evm.reenter C time depth r s).2.1 := by
  induction depth generalizing r s with
  | zero =>
    obtain ⟨s, _ | ⟨b, bs⟩⟩ := s
    · exact guarantee.refl s
    · exact guarantee.refl s
  | succ depth ih =>
    obtain ⟨s, _ | ⟨⟨calls, _ | a⟩, bs⟩⟩ := s
    · exact guarantee.refl s
    · exact guarantee.refl s
    · change G s (calls.foldl _ s)
      induction calls generalizing s with
      | nil => exact guarantee.refl s
      | cons c calls rest =>
        rw [List.foldl_cons]
        exact guarantee.trans (guarantee.invoke ih rfl (s, c.2.2)) (rest _)

/-- A transaction keeps the guarantee of its time. -/
lemma transact {t : Transaction A} (guarantee : GuaranteeAt C t.time G) (s : Account A) :
    G s (Evm.transact C s t) :=
  guarantee.invoke (guarantee.reenter t.depth) rfl (s, t.others)

end GuaranteeAt

namespace Guarantee

variable {C : Contract A} {G : Account A → Account A → Prop}

/-- What every call keeps, the calls made at a time keep. -/
lemma timed (guarantee : Guarantee C G) (time : Nat) : GuaranteeAt C time G :=
  ⟨guarantee.refl, guarantee.trans, fun m s _ => guarantee.call m s⟩

/-- Calls made back keep the guarantee. -/
lemma reenter (guarantee : Guarantee C G) (time depth : Nat) (r : A.Request)
    (s : Account A × List (Behaviour A)) : G s.1 (Evm.reenter C time depth r s).2.1 :=
  (guarantee.timed time).reenter depth r s

/-- A transaction keeps the guarantee. -/
lemma transact (guarantee : Guarantee C G) (s : Account A) (t : Transaction A) :
    G s (Evm.transact C s t) :=
  (guarantee.timed t.time).transact s

/-- A run keeps the guarantee. -/
theorem run (guarantee : Guarantee C G) (s : Account A) (ts : List (Transaction A)) :
    G s (Evm.run C s ts) := by
  induction ts generalizing s with
  | nil => exact guarantee.refl s
  | cons t ts ih =>
    change G s (Evm.run C (Evm.transact C s t) ts)
    exact guarantee.trans (guarantee.transact s t) (ih _)

/-- The result of a transaction, by the weakest precondition of its code. -/
theorem result (guarantee : Guarantee C G) {t : Transaction A} {s : Account A}
    {Q : Except A.Error Unit → Prop} (hc : (C t.toMsg).wp G (t.toMsg.frame s) (fun r _ => Q r)
      (s.note (t.toMsg.frame s) .entered)) : Q (t.result C s).1 := by
  have post := Code.wp_sound (guarantee.reenter t.time t.depth)
    (s := (s.note (t.toMsg.frame s) .entered, t.others)) hc
  unfold Transaction.result Evm.invoke
  dsimp only
  split
  case h_1 u s' eq =>
    rw [eq] at post
    exact post
  case h_2 e s' eq =>
    rw [eq] at post
    exact post

/-- The storage after a transaction, by the weakest precondition of its code. -/
theorem storage (guarantee : Guarantee C G) {t : Transaction A} {s : Account A}
    {P : A.Storage → Prop} (hc : (C t.toMsg).wp G (t.toMsg.frame s) (fun r s' => match r with
      | .ok _ => P s'.storage
      | .error _ => P s.storage) (s.note (t.toMsg.frame s) .entered)) :
    P (Evm.transact C s t).storage := by
  have post := Code.wp_sound (guarantee.reenter t.time t.depth)
    (s := (s.note (t.toMsg.frame s) .entered, t.others)) hc
  unfold Evm.transact Transaction.result Evm.invoke
  dsimp only
  split
  case h_1 u s' eq =>
    rw [eq] at post
    exact post
  case h_2 e s' eq =>
    rw [eq] at post
    exact post

end Guarantee

/-! ## Calls in the journal -/

/-- Every call that the journal mentions is entered there, at the place its id says. -/
def Opened (j : List (Record A)) : Prop := ∀ r ∈ j, j[r.frame.id]? = some ⟨r.frame, .entered⟩

/-- An id belongs to one call. -/
lemma Opened.frame_eq {j : List (Record A)} {r r' : Record A} (opened : Opened j) (mem : r ∈ j)
    (mem' : r' ∈ j) (eq : r.frame.id = r'.frame.id) : r.frame = r'.frame := by
  have entry := opened r mem
  rw [eq, opened r' mem'] at entry
  injection entry with entry
  injection entry with frame
  exact frame.symm

/-- A journal whose calls are opened stays so when an item of an opened call is added. -/
lemma Opened.append {j : List (Record A)} {r : Record A} (opened : Opened j)
    (entered : (j ++ [r])[r.frame.id]? = some ⟨r.frame, .entered⟩) : Opened (j ++ [r]) := by
  intro r' mem
  rcases List.mem_append.1 mem with mem | mem
  · rw [List.getElem?_append_left (List.getElem?_eq_some_iff.1 (opened r' mem)).1]
    exact opened r' mem
  · obtain rfl := List.mem_singleton.1 mem
    exact entered

/-- The journal is only ever added to, by calls that are entered there. -/
structure Grows (s s' : Account A) : Prop where
  grown : s.journal <+: s'.journal
  opened : Opened s.journal → Opened s'.journal

variable {s s' : Account A} {f : Frame A} {α : Type}

/-- A journal grows by nothing. -/
lemma Grows.refl : Grows s s := ⟨List.prefix_rfl, id⟩

/-- A journal that grows twice grows. -/
lemma Grows.trans {s₁ s₂ s₃ : Account A} (h₁ : Grows s₁ s₂) (h₂ : Grows s₂ s₃) : Grows s₁ s₃ :=
  ⟨h₁.grown.trans h₂.grown, fun opened => h₂.opened (h₁.opened opened)⟩

/-- What an entered call does is added. -/
lemma Grows.note {item : Item A} (entered : s.journal[f.id]? = some ⟨f, .entered⟩) :
    Grows s (s.note f item) := by
  refine ⟨List.prefix_append _ _, fun opened => opened.append ?_⟩
  rw [List.getElem?_append_left (List.getElem?_eq_some_iff.1 entered).1]
  exact entered

/-- A call that has been entered stays entered. -/
lemma Grows.entered (grows : Grows s s') (entered : s.journal[f.id]? = some ⟨f, .entered⟩) :
    s'.journal[f.id]? = some ⟨f, .entered⟩ := by
  obtain ⟨rest, eq⟩ := grows.grown
  rw [← eq, List.getElem?_append_left (List.getElem?_eq_some_iff.1 entered).1]
  exact entered

/-- A program makes the journal grow. -/
lemma Code.wp_grows {c : Code A α} (entered : s.journal[f.id]? = some ⟨f, .entered⟩) :
    c.wp Grows f (fun _ s' => Grows s s' ∧ s'.journal[f.id]? = some ⟨f, .entered⟩) s := by
  induction c generalizing s with
  | done a => exact ⟨.refl, entered⟩
  | revert e => exact ⟨.refl, entered⟩
  | get k ih => exact ih _ entered
  | set v k ih =>
    refine wp_mono (fun r s' post => ⟨⟨?_, ?_⟩, post.2⟩) (ih (s := { s with storage := v }) entered)
    · exact post.1.grown
    · exact post.1.opened
  | emit e k ih =>
    have grows : Grows s (s.note f (.event e)) := .note entered
    exact wp_mono (fun r s' post => ⟨grows.trans post.1, post.2⟩) (ih (grows.entered entered))
  | ask r k ih =>
    intro a s' called
    have noted : Grows s' (s'.note f (.asked r a s.storage)) := .note (called.entered entered)
    have grows := called.trans noted
    exact wp_mono (fun r s' post => ⟨grows.trans post.1, post.2⟩) (ih a (grows.entered entered))

/-- Every contract adds to its journal so. -/
theorem grows_guarantee (C : Contract A) : Guarantee C Grows where
  refl _ := .refl
  trans := .trans
  call m s := by
    have entered : (s.note (m.frame s) .entered).journal[(m.frame s).id]? =
        some ⟨m.frame s, .entered⟩ := List.getElem?_concat_length ..
    have first : Grows s (s.note (m.frame s) .entered) :=
      ⟨List.prefix_append _ _, fun opened => opened.append entered⟩
    refine Code.wp_mono (fun r s' post _ => ?_) (Code.wp_grows entered)
    exact first.trans (post.1.trans (.note post.2))

/-- In the journal of a run, an id belongs to one call. -/
theorem opened_run {C : Contract A} (new : s.journal = []) (ts : List (Transaction A)) :
    Opened (run C s ts).journal := by
  refine ((grows_guarantee C).run s ts).opened ?_
  rw [new]
  exact nofun

/-! ## The time of calls -/

/-- The journal is only added to by calls made at `time`. -/
def Stamps (time : Nat) (s s' : Account A) : Prop :=
  ∀ r ∈ s'.journal, r ∈ s.journal ∨ r.frame.time = time

section
variable {time : Nat}

/-- Nothing is stamped when nothing happens. -/
lemma Stamps.refl : Stamps time s s := fun _ mem => .inl mem

/-- What is noted in one block twice is noted in it. -/
lemma Stamps.trans {s₁ s₂ s₃ : Account A} (h₁ : Stamps time s₁ s₂) (h₂ : Stamps time s₂ s₃) :
    Stamps time s₁ s₃ := fun r mem => (h₂ r mem).elim (h₁ r) .inr

/-- An item of a call is noted at the time of the call. -/
lemma Stamps.note {item : Item A} (now : f.time = time) : Stamps time s (s.note f item) := by
  intro r mem
  rcases List.mem_append.1 mem with mem | mem
  · exact .inl mem
  · obtain rfl := List.mem_singleton.1 mem
    exact .inr now

/-- A program notes everything at the time of its call. -/
lemma Code.wp_stamps {c : Code A α} (now : f.time = time) :
    c.wp (Stamps time) f (fun _ s' => Stamps time s s') s := by
  induction c generalizing s with
  | done a => exact .refl
  | revert e => exact .refl
  | get k ih => exact ih _
  | set v k ih => exact ih (s := { s with storage := v })
  | emit e k ih => exact wp_mono (fun _ _ post => (Stamps.note now).trans post) ih
  | ask r k ih =>
    intro a s' called
    exact wp_mono (fun _ _ post => called.trans ((Stamps.note now).trans post)) (ih a)

/-- The calls of a transaction are made at its time. -/
theorem stamps_guarantee (C : Contract A) (time : Nat) : GuaranteeAt C time (Stamps time) where
  refl _ := .refl
  trans := .trans
  call m s now := by
    refine Code.wp_mono (fun r s' post _ => ?_) (Code.wp_stamps now)
    exact (Stamps.note now).trans (post.trans (.note now))

end

end AvaSettle.Evm
