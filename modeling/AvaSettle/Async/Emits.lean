import AvaSettle.Async.Sequential
import AvaSettle.Async.Settled

/-!
# What a call adds to its history

A logic for the operations that a call performs, whatever world it finds: a program *emits* what
satisfies `P` when the events that it adds to any history, together with its result, satisfy `P`. It
is what the error paths of a call are traced with, one statement after the other.
-/

namespace AvaSettle.Async

/-- An operation whose answer is an error threw. -/
lemma Outcome.threw_of_answer {ε β : Type} {o : Outcome ε β} {e : ε} (answer : o.answer = .error e) :
    o.threw = true := by
  cases o with
  | done b => cases answer
  | refused e => rfl
  | lost b e => rfl

/-- An operation that was answered was performed. -/
lemma Outcome.eq_done_of_answer {ε β : Type} {o : Outcome ε β} {b : β} (answer : o.answer = .ok b) :
    o = .done b := by
  cases o with
  | done b' =>
    cases answer
    rfl
  | refused e => cases answer
  | lost b' e => cases answer

namespace Machine

variable {S : Sig} {W : Type} {M : Machine S W} {rely : Hist S → W → W → Prop} {α β : Type}

/-- A result of a program with the events that led to it. -/
abbrev Trace (S : Sig) (α : Type) := Except S.Err α → Hist S → Prop

/-- What the program adds to its history, and its result, satisfy `P`. -/
def Emits (M : Machine S W) (rely : Hist S → W → W → Prop) (p : Prog S α) (P : Trace S α) : Prop :=
  ∀ w h, M.wp rely p (fun r _ h' => ∃ es, h' = h ++ es ∧ P r es) w h

variable {P P' : Trace S α} {Q : Trace S β}

/-- A weaker statement about the history of a program holds too. -/
lemma emits_mono {p : Prog S α} (imp : ∀ r es, P r es → P' r es) (hp : M.Emits rely p P) :
    M.Emits rely p P' := by
  intro w h
  refine wp_mono (fun r _ h' post => ?_) (hp w h)
  obtain ⟨es, eq, holds⟩ := post
  exact ⟨es, eq, imp r es holds⟩

/-- A program that returns at once adds no event. -/
lemma emits_pure {a : α} (hP : P (.ok a) []) : M.Emits rely (pure a) P :=
  fun _ h => ⟨[], (List.append_nil h).symm, hP⟩

/-- A computation adds no event. -/
lemma emits_ofExcept {x : Except S.Err α} (hP : P x []) : M.Emits rely (.ofExcept x) P :=
  fun _ h => wp_ofExcept.2 ⟨[], (List.append_nil h).symm, hP⟩

/-- The first half of a sequence emits the first part. -/
theorem emits_bind {p : Prog S α} {f : α → Prog S β} (hp : M.Emits rely p P)
    (ok : ∀ a es, P (.ok a) es → M.Emits rely (f a) fun r es' => Q r (es ++ es'))
    (error : ∀ e es, P (.error e) es → Q (.error e) es) : M.Emits rely (p >>= f) Q := by
  intro w h
  refine wp_bind_of (hp w h) ?_ ?_
  · intro a w h' post
    obtain ⟨es, rfl, holds⟩ := post
    refine wp_mono (fun r _ h' post => ?_) (ok a es holds w _)
    obtain ⟨es', rfl, holds⟩ := post
    exact ⟨es ++ es', List.append_assoc h es es', holds⟩
  · intro e w h' post
    obtain ⟨es, eq, holds⟩ := post
    exact ⟨es, eq, error e es holds⟩

/-- What the handler emits comes after what the body has emitted. -/
theorem emits_tryCatch {p : Prog S α} {f : S.Err → Prog S α} (hp : M.Emits rely p P)
    (ok : ∀ a es, P (.ok a) es → P' (.ok a) es)
    (error : ∀ e es, P (.error e) es → M.Emits rely (f e) fun r es' => P' r (es ++ es')) :
    M.Emits rely (p.tryCatch f) P' := by
  intro w h
  refine wp_tryCatch_of (hp w h) ?_ ?_
  · intro a w h' post
    obtain ⟨es, eq, holds⟩ := post
    exact ⟨es, eq, ok a es holds⟩
  · intro e w h' post
    obtain ⟨es, rfl, holds⟩ := post
    refine wp_mono (fun r _ h' post => ?_) (error e es holds w _)
    obtain ⟨es', rfl, holds⟩ := post
    exact ⟨es ++ es', List.append_assoc h es es', holds⟩

/-- An operation emits itself, with an outcome that it can have. -/
lemma emits_await {op : S.Op} {P : Trace S (S.Res op)}
    (each : ∀ o, (∀ e, o.answer = .error e → M.raises op e = true) → P o.answer [⟨op, o⟩]) :
    M.Emits rely (.await op) P := by
  intro w h
  refine wp_await fun w₁ o w₂ _ reply _ => ?_
  exact ⟨[⟨op, o⟩], rfl, each o fun _ => reply.raises⟩

/-- An operation and what follows it. -/
lemma emits_await_bind {op : S.Op} {f : S.Res op → Prog S β}
    (ok : ∀ o b, o.answer = .ok b → M.Emits rely (f b) fun r es => Q r (⟨op, o⟩ :: es))
    (error : ∀ o e, o.answer = .error e → M.raises op e = true → Q (.error e) [⟨op, o⟩]) :
    M.Emits rely (.await op >>= f) Q := by
  refine emits_bind (P := fun r es => ∃ o, r = o.answer ∧ es = [⟨op, o⟩] ∧
    ∀ e, o.answer = .error e → M.raises op e = true)
    (emits_await fun o raises => ⟨o, rfl, rfl, raises⟩) ?_ ?_
  · rintro b es ⟨o, eq, rfl, -⟩
    exact ok o b eq.symm
  · rintro e es ⟨o, eq, rfl, raises⟩
    exact error o e eq.symm (raises e eq.symm)

/-- An operation that cannot throw, and what follows it. -/
lemma emits_calm_bind {op : S.Op} {f : S.Res op → Prog S β} (calm : ∀ e, M.raises op e = false)
    (next : ∀ b, M.Emits rely (f b) fun r es => Q r (⟨op, .done b⟩ :: es)) :
    M.Emits rely (.await op >>= f) Q := by
  refine emits_bind (P := fun r es => ∃ b, r = .ok b ∧ es = [⟨op, .done b⟩])
    (emits_await fun o raises => ?_) ?_ ?_
  · cases o with
    | done b => exact ⟨b, rfl, rfl⟩
    | refused e => exact absurd (raises e rfl) (by simp [calm e])
    | lost b e => exact absurd (raises e rfl) (by simp [calm e])
  · rintro b es ⟨b', eq, rfl⟩
    cases eq
    exact next b
  · rintro e es ⟨b, eq, -⟩
    cases eq

/-- An operation whose errors are swallowed emits itself all the same. -/
lemma emits_awaitOr {op : S.Op} {f : S.Res op → β} {b : β}
    (each : ∀ o, Q (.ok ((o.answer.toOption.map f).getD b)) [⟨op, o⟩]) :
    M.Emits rely (.awaitOr op f b) Q := by
  intro w h w₁ o w₂ _ _ _
  have holds := each o
  cases answer : o.answer with
  | ok r =>
    rw [answer] at holds
    exact ⟨[⟨op, o⟩], rfl, holds⟩
  | error e =>
    rw [answer] at holds
    exact ⟨[⟨op, o⟩], rfl, holds⟩

/-- A program whose outcome is taken as a value emits what the program emits. -/
lemma emits_settle {p : Prog S α} (hp : M.Emits rely p P) :
    M.Emits rely p.settle fun r es => ∃ r', r = .ok r' ∧ P r' es := by
  refine emits_tryCatch (P := fun r es => (∃ r', r = .ok r' ∧ P r' es) ∨
    ∃ e, r = .error e ∧ P (.error e) es) ?_ ?_ ?_
  · refine emits_bind hp (fun a es holds => emits_pure (.inl ⟨.ok a, rfl, ?_⟩))
      fun e es holds => .inr ⟨e, rfl, holds⟩
    rwa [List.append_nil]
  · rintro a es (⟨r', eq, holds⟩ | ⟨e, eq, -⟩)
    · exact ⟨r', eq, holds⟩
    · cases eq
  · rintro e es (⟨r', eq, -⟩ | ⟨e', eq, holds⟩)
    · cases eq
    · cases eq
      refine emits_pure ⟨.error e, rfl, ?_⟩
      rwa [List.append_nil]

/-- A run of a call from its beginning has the history that the call emits. -/
theorem of_emits {p : Prog S α} {w w' : W} {h : Hist S} {r} (hp : M.Emits rely p P)
    (run : M.Runs rely p w [] r w' h) : P r h := by
  obtain ⟨es, rfl, holds⟩ := wp_sound (Q := fun r _ h' => ∃ es, h' = [] ++ es ∧ P r es) run (hp w [])
  exact holds

end Machine

end AvaSettle.Async
