import AvaSettle.Async.Logic
import AvaSettle.Async.Settled

/-!
# Programs of some operations only

What a program awaits, whatever the answers are, and what it starts in the background. Unlike `Uses`
this also covers programs that run side by side and programs that start others. `Staged` is about
programs that await one operation of a kind at most and go on alone after it, and `histories` is the
logic for pools that looks at histories only.
-/

namespace AvaSettle.Async

variable {S : Sig} {W : Type} {α β γ : Type}

namespace Prog

/-- Every operation of the program satisfies `P`, what it starts in the background satisfies `Q`, and it
    awaits several operations side by side only where `A` says so. -/
def Only (P : S.Op → Prop) (A : Prop) (Q : Prog S Unit → Prop) : {α : Type} → Prog S α → Prop
  | _, .pure _ => True
  | _, .throw _ => True
  | _, .call op k => P op ∧ ∀ r, (k r).Only P A Q
  | _, .all slots k => (A ∧ ∀ op ∈ Slot.pending slots, P op) ∧ ∀ r, (k r).Only P A Q
  | _, .fork child next => Q child ∧ next.Only P A Q

section
variable {P P' : S.Op → Prop} {A A' : Prop} {Q Q' : Prog S Unit → Prop}

/-- A program of some operations is one of what includes them. -/
lemma only_mono {p : Prog S α} (hP : ∀ op, P op → P' op) (hA : A → A') (hQ : ∀ c, Q c → Q' c)
    (hp : p.Only P A Q) : p.Only P' A' Q' := by
  induction p with
  | pure a => trivial
  | throw e => trivial
  | call op k ih => exact ⟨hP op hp.1, fun r => ih r (hp.2 r)⟩
  | all slots k ih => exact ⟨⟨hA hp.1.1, fun op mem => hP op (hp.1.2 op mem)⟩, fun r => ih r (hp.2 r)⟩
  | fork child next _ ih => exact ⟨hQ child hp.1, ih hp.2⟩

/-- A value awaits nothing. -/
lemma only_pure (a : α) : (Pure.pure a : Prog S α).Only P A Q := trivial

/-- A computation awaits nothing. -/
lemma only_ofExcept {x : Except S.Err α} : (ofExcept x).Only P A Q := by
  cases x <;> trivial

/-- A value that may be missing awaits nothing. -/
lemma only_orThrow {e : S.Err} {x : Option α} : (orThrow e x).Only P A Q := by
  cases x <;> trivial

/-- A check awaits nothing. -/
lemma only_require {c : Prop} [Decidable c] {e : S.Err} : (require c e).Only P A Q := by
  unfold require
  split <;> trivial

/-- An operation awaits itself. -/
lemma only_await {op : S.Op} (h : P op) : (await op).Only P A Q :=
  ⟨h, fun _ => only_ofExcept⟩

/-- An operation with a default awaits itself. -/
lemma only_awaitOr {op : S.Op} {f : S.Res op → β} {b : β} (h : P op) : (awaitOr op f b).Only P A Q := by
  refine ⟨h, fun r => ?_⟩
  cases r <;> trivial

/-- Operations side by side await those of their slots. -/
lemma only_promiseAll {slots : List (Slot S β)} (h : ∀ op ∈ Slot.pending slots, P op) :
    (promiseAll slots).Only P True Q :=
  ⟨⟨trivial, h⟩, fun _ => only_ofExcept⟩

/-- A program is started in the background. -/
lemma only_spawn {child : Prog S Unit} (h : Q child) : (spawn child).Only P A Q := ⟨h, trivial⟩

/-- A program and what follows it. -/
lemma only_bind {p : Prog S α} {f : α → Prog S β} (hp : p.Only P A Q) (hf : ∀ a, (f a).Only P A Q) :
    (p >>= f).Only P A Q := by
  change (p.bind f).Only P A Q
  induction p with
  | pure a => exact hf a
  | throw e => trivial
  | call op k ih => exact ⟨hp.1, fun r => ih r (hp.2 r) hf⟩
  | all slots k ih => exact ⟨hp.1, fun r => ih r (hp.2 r) hf⟩
  | fork child next _ ih => exact ⟨hp.1, ih hp.2 hf⟩

/-- A program and its handler. -/
lemma only_tryCatch {p : Prog S α} {f : S.Err → Prog S α} (hp : p.Only P A Q)
    (hf : ∀ e, (f e).Only P A Q) : (p.tryCatch f).Only P A Q := by
  induction p with
  | pure a => trivial
  | throw e => exact hf e
  | call op k ih => exact ⟨hp.1, fun r => ih r (hp.2 r) hf⟩
  | all slots k ih => exact ⟨hp.1, fun r => ih r (hp.2 r) hf⟩
  | fork child next _ ih => exact ⟨hp.1, ih hp.2 hf⟩

/-- A program that is run for its effects. -/
lemma only_discard {p : Prog S α} (hp : p.Only P A Q) : p.discard.Only P A Q :=
  only_bind hp fun _ => trivial

/-- A loop and its passes. -/
lemma only_forEach {f : α → Prog S Unit} {as : List α} (h : ∀ a ∈ as, (f a).Only P A Q) :
    (forEach f as).Only P A Q := by
  induction as with
  | nil => trivial
  | cons a as ih =>
    exact only_bind (h a List.mem_cons_self) fun _ =>
      ih fun a' mem => h a' (List.mem_cons_of_mem _ mem)

/-- A program whose error is a value. -/
lemma only_settle {p : Prog S α} (hp : p.Only P A Q) : p.settle.Only P A Q :=
  only_tryCatch (only_bind hp fun _ => trivial) fun _ => trivial

/-- A program that lets another go first. -/
lemma only_yielding {own : Turns → Prog S β → Prog S γ} {t : Turns} {q : Prog S β}
    (hown : ∀ t q, q.Only P A Q → (own t q).Only P A Q) (hq : q.Only P A Q) :
    (yielding own t q).Only P A Q := by
  induction q generalizing t with
  | pure b => exact hown t _ hq
  | throw e => trivial
  | call op k ih =>
    unfold yielding
    split
    case isTrue => exact hown _ _ hq
    case isFalse => exact ⟨hq.1, fun r => ih r hown (hq.2 r)⟩
  | all slots k ih =>
    unfold yielding
    split
    case isTrue => exact hown _ _ hq
    case isFalse => exact ⟨hq.1, fun r => ih r hown (hq.2 r)⟩
  | fork child next _ ih =>
    unfold yielding
    split
    case isTrue => exact hown _ _ hq
    case isFalse => exact ⟨hq.1, ih hown hq.2⟩

/-- Two programs side by side. -/
lemma only_both {p : Prog S α} {t : Turns} {q : Prog S β} (hp : p.Only P A Q) (hq : q.Only P A Q) :
    (p.both t q).Only P A Q := by
  induction p generalizing t q with
  | pure a => exact only_bind hq fun _ => trivial
  | throw e => trivial
  | call op k ih =>
    exact only_yielding (fun t q hq => ⟨hp.1, fun r => ih r (hp.2 r) hq⟩) hq
  | all slots k ih =>
    exact only_yielding (fun t q hq => ⟨hp.1, fun r => ih r (hp.2 r) hq⟩) hq
  | fork child next _ ih => exact only_yielding (fun t q hq => ⟨hp.1, ih hp.2 hq⟩) hq

/-- Programs side by side, each with its outcome. -/
lemma only_allSettled {ps : List (Prog S α)} {t : Nat → Turns} (h : ∀ p ∈ ps, p.Only P A Q) :
    (allSettled ps t).Only P A Q := by
  induction ps generalizing t with
  | nil => trivial
  | cons p ps ih =>
    have rest := ih (t := fun n => t (n + 1)) fun p mem => h p (List.mem_cons_of_mem _ mem)
    exact only_bind (only_both (only_settle (h p List.mem_cons_self)) rest) fun _ => trivial

end

/-! ## One operation of a kind -/

/-- The program awaits no operation of the kind, and it goes on alone: it neither awaits operations side
    by side nor starts a program. -/
abbrev Lone (L : S.Op → Bool) (p : Prog S α) : Prop := p.Only (fun op => L op = false) False fun _ => False

/-- After an operation of the kind the program awaits no other one, and goes on alone. -/
def Staged (L : S.Op → Bool) : {α : Type} → Prog S α → Prop
  | _, .pure _ => True
  | _, .throw _ => True
  | _, .call op k => ∀ r, if L op then (k r).Lone L else (k r).Staged L
  | _, .all slots k => (∀ op ∈ Slot.pending slots, L op = false) ∧ ∀ r, (k r).Staged L
  | _, .fork child next => child.Staged L ∧ next.Staged L

section
variable {L : S.Op → Bool}

/-- A program that awaits none of the kind, and starts such programs, is staged. -/
lemma staged_of_only {p : Prog S α} (only : p.Only (fun op => L op = false) True (Staged L)) :
    p.Staged L := by
  induction p with
  | pure a => trivial
  | throw e => trivial
  | call op k ih =>
    intro r
    rw [only.1, if_neg (by simp)]
    exact ih r (only.2 r)
  | all slots k ih => exact ⟨only.1.2, fun r => ih r (only.2 r)⟩
  | fork child next _ ih => exact ⟨only.1, ih only.2⟩

/-- What follows such a program may be staged itself. -/
lemma staged_bind {p : Prog S α} {f : α → Prog S β}
    (only : p.Only (fun op => L op = false) True (Staged L)) (hf : ∀ a, (f a).Staged L) :
    (p >>= f).Staged L := by
  change (p.bind f).Staged L
  induction p with
  | pure a => exact hf a
  | throw e => trivial
  | call op k ih =>
    intro r
    rw [only.1, if_neg (by simp)]
    exact ih r (only.2 r) hf
  | all slots k ih => exact ⟨only.1.2, fun r => ih r (only.2 r) hf⟩
  | fork child next _ ih => exact ⟨only.1, ih only.2 hf⟩

/-- A staged program with a handler that goes on alone. -/
lemma staged_tryCatch {p : Prog S α} {f : S.Err → Prog S α} (hp : p.Staged L) (lone : ∀ e, (f e).Lone L)
    (hf : ∀ e, (f e).Staged L) : (p.tryCatch f).Staged L := by
  induction p with
  | pure a => trivial
  | throw e => exact hf e
  | call op k ih =>
    intro r
    have next := hp r
    split at next
    case isTrue kind =>
      rw [if_pos kind]
      exact only_tryCatch next lone
    case isFalse kind =>
      rw [if_neg kind]
      exact ih r next lone hf
  | all slots k ih => exact ⟨hp.1, fun r => ih r (hp.2 r) lone hf⟩
  | fork child next _ ih => exact ⟨hp.1, ih hp.2 lone hf⟩

/-- An operation of the kind, and what goes on alone after it. -/
lemma staged_await {op : S.Op} {f : S.Res op → Prog S β} (lone : ∀ a, (f a).Lone L)
    (kind : L op = true) : (await op >>= f).Staged L := by
  intro r
  rw [if_pos kind]
  cases r with
  | ok a => exact lone a
  | error e => trivial

/-- A staged program that is run for its effects. -/
lemma staged_discard {p : Prog S α} (hp : p.Staged L) : p.discard.Staged L := by
  change (p.bind fun _ => Prog.pure ()).Staged L
  induction p with
  | pure a => trivial
  | throw e => trivial
  | call op k ih =>
    intro r
    have next := hp r
    split at next
    case isTrue kind =>
      rw [if_pos kind]
      exact only_bind next fun _ => trivial
    case isFalse kind =>
      rw [if_neg kind]
      exact ih r next
  | all slots k ih => exact ⟨hp.1, fun r => ih r (hp.2 r)⟩
  | fork child next _ ih => exact ⟨hp.1, ih hp.2⟩

end

end Prog

variable {M : Machine S W}

/-! ## Threads of staged programs -/

/-- A thread that has not awaited an operation of the kind yet, or goes on alone. -/
def Thread.Staged (L : S.Op → Bool) (t : Thread S) : Prop :=
  ((∀ e ∈ t.hist, L e.op = false) ∧ t.prog.Staged L) ∨ t.prog.Lone L

/-- A thread of a staged program goes on as one. -/
lemma Thread.Staged.tstep {L : S.Op → Bool} {w w' : W} {t : Thread S} {ts : List (Thread S)}
    (staged : t.Staged L) (step : M.TStep w t w' ts) : ∀ t' ∈ ts, t'.Staged L := by
  have early {h : Hist S} {op : S.Op} {o : Outcome S.Err (S.Res op)} (none : ∀ e ∈ h, L e.op = false)
      (other : L op = false) : ∀ e ∈ h ++ [⟨op, o⟩], L e.op = false := by
    intro e mem
    rcases List.mem_append.1 mem with mem | mem
    · exact none e mem
    · exact List.mem_singleton.1 mem ▸ other
  cases step with
  | @call _ _ h op k o _ _ =>
    rw [List.forall_mem_singleton]
    rcases staged with ⟨none, next⟩ | lone
    · have next := next o.answer
      split at next
      case isTrue => exact .inr next
      case isFalse kind => exact .inl ⟨early none (by simpa using kind), next⟩
    · exact .inr (lone.2 _)
  | @fulfil _ _ _ h op post o b xs ys k _ _ _ =>
    rw [List.forall_mem_singleton]
    rcases staged with ⟨none, next⟩ | lone
    · refine .inl ⟨early none (next.1 op (by simp)), fun op' mem => next.1 op' ?_, next.2⟩
      simp only [Slot.pending_append, Slot.pending_todo, Slot.pending_done, List.mem_append,
        List.mem_cons] at mem ⊢
      tauto
    · exact lone.1.1.elim
  | @reject _ _ _ h op post o e xs ys k _ _ _ =>
    rcases staged with ⟨none, next⟩ | lone
    · have none' := early (o := o) none (next.1 op (by simp))
      rw [List.forall_mem_cons]
      refine ⟨.inl ⟨none', next.2 _⟩, fun t mem => ?_⟩
      obtain ⟨op', pending, rfl⟩ := List.mem_map.1 mem
      have other : L op' = false := by
        refine next.1 op' ?_
        simp only [Slot.pending_append, Slot.pending_todo, List.mem_append, List.mem_cons] at pending ⊢
        tauto
      refine .inl ⟨none', fun r => ?_⟩
      rw [other, if_neg (by simp)]
      trivial
    · exact lone.1.1.elim
  | join _ =>
    rw [List.forall_mem_singleton]
    rcases staged with ⟨none, next⟩ | lone
    · exact .inl ⟨none, next.2 _⟩
    · exact lone.1.1.elim
  | fork =>
    rcases staged with ⟨none, next⟩ | lone
    · simp only [List.forall_mem_cons]
      exact ⟨.inl ⟨none, next.2⟩, .inl ⟨by simp, next.1⟩, by simp⟩
    · exact lone.1.elim
  | crash =>
    rw [List.forall_mem_singleton]
    exact .inr trivial

/-- Such a thread goes on alone, or none of the threads it becomes has awaited an operation of the kind. -/
lemma Thread.Staged.alone {L : S.Op → Bool} {w w' : W} {t : Thread S} {ts : List (Thread S)}
    (staged : t.Staged L) (step : M.TStep w t w' ts) :
    (∃ t', ts = [t']) ∨ ∀ t' ∈ ts, ∀ e ∈ t'.hist, L e.op = false := by
  cases step with
  | call => exact .inl ⟨_, rfl⟩
  | fulfil => exact .inl ⟨_, rfl⟩
  | join => exact .inl ⟨_, rfl⟩
  | crash => exact .inl ⟨_, rfl⟩
  | @reject _ _ _ h op post o e xs ys k _ _ _ =>
    rcases staged with ⟨none, next⟩ | lone
    · have none' : ∀ e' ∈ h ++ [⟨op, o⟩], L e'.op = false := by
        intro e' mem
        rcases List.mem_append.1 mem with mem | mem
        · exact none e' mem
        · exact List.mem_singleton.1 mem ▸ next.1 op (by simp)
      right
      rw [List.forall_mem_cons]
      refine ⟨none', fun t mem => ?_⟩
      obtain ⟨op', -, rfl⟩ := List.mem_map.1 mem
      exact none'
    · exact lone.1.1.elim
  | @fork _ h child next =>
    rcases staged with ⟨none, next⟩ | lone
    · right
      rw [List.forall_mem_cons, List.forall_mem_singleton]
      exact ⟨none, by simp⟩
    · exact lone.1.elim

namespace Spec

/-- The logic of histories: what every call keeps good, whatever the world does. -/
def histories (M : Machine S W) (good : Hist S → Prop) (good_nil : good []) : Spec M ℕ where
  inv _ _ := True
  le _ _ := True
  good := good
  good_nil := good_nil
  le_refl _ := trivial
  le_trans _ _ := trivial
  env _ _ := ⟨trivial, trivial⟩

section
variable {good : Hist S → Prop} {good_nil : good []} {a : ℕ} {w : W} {h : Hist S}

/-- An operation adds an event to a history. -/
lemma histories_op {op : S.Op} {K : Outcome S.Err (S.Res op) → ℕ → W → Hist S → Prop}
    (each : ∀ w₁ o w, M.Reply op w₁ o w → good (h ++ [⟨op, o⟩]) ∧ K o a w (h ++ [⟨op, o⟩])) :
    (histories M good good_nil).op op K a w h :=
  fun w₁ _ o w₂ _ _ reply _ =>
    ⟨(each w₁ o w₂ reply).1, a, trivial, trivial, (each w₁ o w₂ reply).2⟩

/-- What a rejected `Promise.all` leaves in flight adds its events too. -/
lemma histories_detach {ops : List S.Op} (each : ∀ op ∈ ops, ∀ o, good (h ++ [⟨op, o⟩])) :
    (histories M good good_nil).detach ops 0 w h := by
  induction ops with
  | nil => rfl
  | cons op ops ih =>
    exact ⟨0, 0, rfl, histories_op fun _ o _ _ => ⟨each op List.mem_cons_self o, trivial⟩,
      ih fun op' mem => each op' (List.mem_cons_of_mem _ mem)⟩

/-- A program keeps of its history what each of its operations keeps, when what it starts keeps it
    too. -/
theorem wp_only {P : S.Op → Prop} {A : Prop} {Q : Prog S Unit → Prop} {R : Hist S → Prop}
    (keep : ∀ op o h, P op → R h → R (h ++ [⟨op, o⟩])) (good_of : ∀ h, R h → good h)
    (spawned : ∀ child, Q child → ∀ a w, (histories M good good_nil).wp child triv a w [])
    {p : Prog S α} (only : p.Only P A Q) (hR : R h) :
    (histories M good good_nil).wp p (fun _ _ _ h => R h) a w h := by
  have each {op : S.Op} {h : Hist S} (hP : P op) (hR : R h) (o : Outcome S.Err (S.Res op)) :
      good (h ++ [⟨op, o⟩]) ∧ R (h ++ [⟨op, o⟩]) :=
    ⟨good_of _ (keep op o h hP hR), keep op o h hP hR⟩
  induction p generalizing a w h with
  | pure b => exact hR
  | throw e => exact hR
  | call op k ih =>
    exact histories_op fun _ o _ _ => ⟨(each only.1 hR o).1, ih _ (only.2 _) (each only.1 hR o).2⟩
  | all slots k ih =>
    refine ⟨fun slots a w h => (∀ op ∈ Slot.pending slots, P op) ∧ R h, ⟨?_, ?_⟩, only.1.2, hR⟩
    · rintro xs op post ys a w h ⟨hP, hR⟩
      have slot : P op := hP op (by simp)
      have others : ∀ op' ∈ Slot.pending (xs ++ ys), P op' := by
        intro op' mem
        refine hP op' ?_
        simp only [Slot.pending_append, Slot.pending_todo, List.mem_append, List.mem_cons] at mem ⊢
        tauto
      refine histories_op fun _ o w _ => ⟨(each slot hR o).1, ?_, ?_⟩
      · intro b _
        exact ⟨by simpa using others, (each slot hR o).2⟩
      · intro e _
        exact ⟨a, 0, rfl, ih _ (only.2 _) (each slot hR o).2, histories_detach fun op' mem o' =>
          (each (others op' mem) (each slot hR o).2 o').1⟩
    · rintro slots bs a w h ⟨-, hR⟩ _
      exact ih _ (only.2 _) hR
  | fork child next _ ih =>
    exact ⟨a, 0, rfl, ih only.2 hR, spawned child only.1 _ _⟩

end

end Spec

end AvaSettle.Async
