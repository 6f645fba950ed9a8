import Mathlib.Data.Set.Insert
import AvaSettle.Evm.Reentry

/-!
# Storage that can be replayed

What a contract notes may say all there is to know about a part of its storage: whoever replays the
journal from the beginning has rebuilt that part. `Rule` says how a record changes the part, and which
records are lawful, judged by the storage that their call began in. `Rule.Keeps` is what a call keeps
of it, whatever is called back; for a whole run it also says what the storage was that each call began
in: what the journal up to that call replays to.
-/

namespace AvaSettle.Evm

variable {A : Abi} {V : Type}

/-- How the journal rules a part of the storage. -/
structure Rule (A : Abi) (V : Type) where
  /-- The part of the storage. -/
  view : A.Storage → V
  /-- What a record changes. -/
  play : Record A → V → V
  /-- The records that may be noted. -/
  lawful : Record A → Prop

namespace Rule
variable (R : Rule A V)

/-- The part of the storage after some records. -/
def replay (j : List (Record A)) (v : V) : V := j.foldl (fun v r => R.play r v) v

/-- The empty journal changes nothing. -/
@[simp] lemma replay_nil {v : V} : R.replay [] v = v := rfl

/-- Joined journals are replayed one after the other. -/
@[simp] lemma replay_append {j j' : List (Record A)} {v : V} :
    R.replay (j ++ j') v = R.replay j' (R.replay j v) := List.foldl_append

/-- A single record is played. -/
lemma replay_singleton {r : Record A} {v : V} : R.replay [r] v = R.play r v := rfl

/-- The records are lawful, and each is of a call that began at or before its place, in the storage
    that the records up to there replay to. -/
def Lawful (v : V) (start : Nat) (j : List (Record A)) : Prop :=
  ∀ n r, j[n]? = some r → R.lawful r ∧
    ∃ k ≤ n, r.frame.id = start + k ∧ R.view r.frame.entry = R.replay (j.take k) v

/-- The journal has grown by lawful records, and replaying them gives the storage. -/
def Keeps (s s' : Account A) : Prop :=
  ∃ j, s'.journal = s.journal ++ j ∧ R.view s'.storage = R.replay j (R.view s.storage) ∧
    R.Lawful (R.view s.storage) s.journal.length j

variable {R} {v : V} {start : Nat} {j j' : List (Record A)} {s s₁ s₂ s₃ s' : Account A}
  {f : Frame A}

/-- The empty journal is lawful. -/
lemma Lawful.nil : R.Lawful v start [] := fun _ _ found => by simp at found

/-- Joined journals are lawful where the second is after the first. -/
lemma Lawful.append (first : R.Lawful v start j)
    (rest : R.Lawful (R.replay j v) (start + j.length) j') : R.Lawful v start (j ++ j') := by
  intro n r found
  by_cases early : n < j.length
  · rw [List.getElem?_append_left early] at found
    obtain ⟨lawful, k, le, id, entry⟩ := first n r found
    refine ⟨lawful, k, le, id, ?_⟩
    rw [List.take_append_of_le_length (le.trans early.le)]
    exact entry
  · rw [List.getElem?_append_right (Nat.le_of_not_lt early)] at found
    obtain ⟨lawful, k, le, id, entry⟩ := rest _ r found
    refine ⟨lawful, j.length + k, by omega, by omega, ?_⟩
    rw [List.take_length_add_append, replay_append]
    exact entry

/-- The replay is kept when nothing happens. -/
lemma Keeps.refl : R.Keeps s s := ⟨[], (List.append_nil _).symm, rfl, .nil⟩

/-- The replay that is kept twice is kept. -/
lemma Keeps.trans (h₁ : R.Keeps s₁ s₂) (h₂ : R.Keeps s₂ s₃) : R.Keeps s₁ s₃ := by
  obtain ⟨j, grown, view, lawful⟩ := h₁
  obtain ⟨j', grown', view', lawful'⟩ := h₂
  refine ⟨j ++ j', ?_, ?_, lawful.append ?_⟩
  · rw [grown', grown, List.append_assoc]
  · rw [view', view, replay_append]
  · rw [← view, ← List.length_append, ← grown]
    exact lawful'

/-- The call began in the state. -/
structure Began (f : Frame A) (s : Account A) : Prop where
  id : f.id = s.journal.length
  entry : f.entry = s.storage

/-- The call that a message opens begins in the account. -/
lemma began_frame {m : Msg A} : Began (m.frame s) s := ⟨rfl, rfl⟩

/-- What the call itself adds: a write with the records of it. -/
lemma Keeps.add {v' : A.Storage} (keeps : R.Keeps s s₁) (items : List (Item A)) (began : Began f s)
    (lawful : ∀ item ∈ items, R.lawful ⟨f, item⟩)
    (view : R.view v' = R.replay (items.map fun item => ⟨f, item⟩) (R.view s₁.storage)) :
    R.Keeps s ⟨v', s₁.journal ++ items.map fun item => ⟨f, item⟩⟩ := by
  obtain ⟨j, grown, view', first⟩ := keeps
  refine ⟨j ++ items.map fun item => ⟨f, item⟩, ?_, ?_, ?_⟩
  · rw [grown, List.append_assoc]
  · rw [view, view', replay_append]
  · -- the records are of a call that began where these records begin
    intro n r found
    by_cases early : n < j.length
    · rw [List.getElem?_append_left early] at found
      obtain ⟨law, k, le, id, entry⟩ := first n r found
      refine ⟨law, k, le, id, ?_⟩
      rw [List.take_append_of_le_length (le.trans early.le)]
      exact entry
    · rw [List.getElem?_append_right (Nat.le_of_not_lt early)] at found
      obtain ⟨item, mem, rfl⟩ := List.mem_map.1 (List.mem_of_getElem? found)
      exact ⟨lawful item mem, 0, Nat.zero_le n, began.id, congrArg R.view began.entry⟩

/-- A write that leaves the part alone. -/
lemma Keeps.write {v' : A.Storage} (keeps : R.Keeps s s₁)
    (view : R.view v' = R.view s₁.storage) : R.Keeps s { s₁ with storage := v' } := by
  obtain ⟨j, grown, view', lawful⟩ := keeps
  exact ⟨j, grown, view.trans view', lawful⟩

/-- A record of the call itself. -/
lemma Keeps.note {item : Item A} (keeps : R.Keeps s s₁) (began : Began f s)
    (lawful : R.lawful ⟨f, item⟩)
    (view : R.view s₁.storage = R.play ⟨f, item⟩ (R.view s₁.storage)) :
    R.Keeps s (s₁.note f item) :=
  keeps.add [item] began (List.forall_mem_singleton.2 lawful) view

/-! ## Runs -/

/-- In a run from an empty journal, the storage is what the journal replays to. -/
theorem replay_run {C : Contract A} (guarantee : Guarantee C R.Keeps) (new : s.journal = [])
    (ts : List (Transaction A)) :
    R.view (run C s ts).storage = R.replay (run C s ts).journal (R.view s.storage) ∧
      R.Lawful (R.view s.storage) 0 (run C s ts).journal := by
  obtain ⟨j, grown, view, lawful⟩ := guarantee.run s ts
  rw [new, List.nil_append] at grown
  rw [new] at lawful
  rw [grown]
  exact ⟨view, lawful⟩

/-- What holds of the part in the beginning, and is kept by every lawful record of a call that began
    where it held, holds after every run, and where every call began. -/
theorem Lawful.invariant {P : V → Prop} (lawful : R.Lawful v 0 j) (base : P v)
    (step : ∀ r ∈ j, R.lawful r → P (R.view r.frame.entry) → ∀ v, P v → P (R.play r v)) :
    P (R.replay j v) ∧ ∀ r ∈ j, P (R.view r.frame.entry) := by
  have upTo : ∀ n ≤ j.length, ∀ k ≤ n, P (R.replay (j.take k) v) := by
    intro n
    induction n with
    | zero =>
      intro _ k le
      obtain rfl := Nat.le_zero.1 le
      exact base
    | succ n ih =>
      intro le k hk
      rcases Nat.lt_or_ge k (n + 1) with lt | ge
      · exact ih (by omega) k (by omega)
      · obtain rfl : k = n + 1 := by omega
        have lt : n < j.length := le
        rw [List.take_succ_eq_append_getElem lt, replay_append, replay_singleton]
        obtain ⟨law, k, le', -, entry⟩ := lawful n j[n] (List.getElem?_eq_getElem lt)
        refine step _ (List.getElem_mem lt) law ?_ _ (ih (by omega) n le_rfl)
        rw [entry]
        exact ih (by omega) k le'
  constructor
  · have all := upTo j.length le_rfl j.length le_rfl
    rwa [List.take_length] at all
  · intro r mem
    obtain ⟨n, lt, rfl⟩ := List.getElem_of_mem mem
    obtain ⟨-, k, le, -, entry⟩ := lawful n j[n] (List.getElem?_eq_getElem lt)
    rw [entry]
    exact upTo n lt.le k le

end Rule

end AvaSettle.Evm
