import AvaSettle.Async.Logic

/-!
# Disciplines

The logic of pools where no call owns anything: an invariant of the world, an order along which it moves,
and what may be done in which world. What a call knows is an assertion that the order keeps. A triple
says what a program that knows something keeps to the discipline and finds out.
-/

namespace AvaSettle.Async

variable {S : Sig} {W : Type} {M : Machine S W} {α β : Type}

/-- A discipline of the operations. -/
structure Discipline (M : Machine S W) where
  /-- The invariant of the world. -/
  inv : W → Prop
  /-- How the world may move. -/
  le : W → W → Prop
  /-- What may be done in a world. -/
  may : S.Op → W → Prop
  /-- The order is reflexive. -/
  le_refl : ∀ w, le w w
  /-- The order is transitive. -/
  le_trans : ∀ {w₁ w₂ w₃}, le w₁ w₂ → le w₂ w₃ → le w₁ w₃
  /-- What may be done may be done later. -/
  may_later : ∀ {op w w'}, le w w' → may op w → may op w'
  /-- The world moves along the order by itself and keeps the invariant. -/
  env : ∀ {w w'}, inv w → M.env w w' → inv w' ∧ le w w'
  /-- So does what may be done. -/
  does : ∀ {op w w' b}, inv w → may op w → M.exec op w = some (b, w') → inv w' ∧ le w w'

namespace Discipline

variable {D : Discipline M} {K K' : W → Prop} {Q Q' : α → W → Prop} {R : β → W → Prop}

/-- The discipline as a specification. -/
def spec (D : Discipline M) : Spec M ℕ where
  inv w _ := D.inv w
  le := D.le
  good _ := True
  good_nil := trivial
  le_refl := D.le_refl
  le_trans := D.le_trans
  env := D.env

/-- The order keeps the assertion. -/
def Stable (D : Discipline M) (K : W → Prop) : Prop := ∀ w w', D.le w w' → K w → K w'

/-- What always holds is stable. -/
lemma Stable.true : D.Stable fun _ => True := fun _ _ _ _ => trivial

/-- The program, which knows `K`, keeps to the discipline, and knows `Q` of what it returns. -/
def Triple (D : Discipline M) (K : W → Prop) (p : Prog S α) (Q : α → W → Prop) : Prop :=
  ∀ (a : ℕ) w h, K w → D.spec.wp p (fun r _ w _ => ∀ b, r = .ok b → Q b w) a w h

/-! ## Operations -/

/-- What may be done, with what is known when it is answered. -/
lemma op_may {op : S.Op} {P : Outcome S.Err (S.Res op) → ℕ → W → Hist S → Prop} {a : ℕ} {w : W}
    {h : Hist S} (may : D.may op w)
    (post : ∀ w₁ o w₂, D.le w w₂ → D.inv w₁ → M.Reply op w₁ o w₂ → P o a w₂ (h ++ [⟨op, o⟩])) :
    D.spec.op op P a w h := by
  intro w₁ f o w₂ le inv reply _
  have may₁ := D.may_later le may
  have moved : D.inv w₂ ∧ D.le w₁ w₂ := by
    cases o with
    | done b => exact D.does inv may₁ reply
    | refused e =>
      obtain ⟨-, rfl⟩ := reply
      exact ⟨inv, D.le_refl _⟩
    | lost b e => exact D.does inv may₁ reply.1
  exact ⟨trivial, a, moved.1, moved.2, post w₁ o w₂ (D.le_trans le moved.2) inv reply⟩

/-- An operation whose answer is looked at. -/
lemma triple_await {op : S.Op} {Q : S.Res op → W → Prop} (may : ∀ w, K w → D.may op w)
    (learns : ∀ w b w', D.inv w → M.exec op w = some (b, w') → Q b w') :
    D.Triple K (.await op) Q := by
  intro a w h known
  refine Spec.wp_await (op_may (may w known) ?_)
  intro w₁ o w₂ _ inv reply b answered
  cases o with
  | done c =>
    cases answered
    exact learns w₁ b w₂ inv reply
  | refused e => cases answered
  | lost c e => cases answered

/-- A program of operations that may be done. -/
lemma triple_uses {p : Prog S α} {P : S.Op → Prop} (stable : D.Stable K)
    (uses : p.Uses P fun _ => True) (may : ∀ op w, P op → K w → D.may op w) :
    D.Triple K p fun _ _ => True := by
  intro a w h known
  have each op a w h (used : P op) (known : K w) : D.spec.op op (fun _ _ w _ => K w) a w h :=
    op_may (may op w used known) fun _ _ w₂ le _ _ => stable w w₂ le known
  refine Spec.wp_mono (fun _ _ _ _ _ _ _ => trivial) (Spec.wp_uses (R := fun _ w _ => K w)
    (fun _ _ _ _ => trivial) each (fun op a w h used known => ?_) uses known)
  exact Spec.op_mono (fun _ _ _ _ _ => trivial) (each op 0 w h used known)

/-! ## Programs -/

/-- A value is returned in the state that is known. -/
lemma triple_pure {b : α} (holds : ∀ w, K w → Q b w) : D.Triple K (pure b) Q := by
  intro a w h known c eq
  cases eq
  exact holds w known

/-- A program that throws has no result to speak of. -/
lemma triple_throw {e : S.Err} : D.Triple K (throw e : Prog S α) Q := by
  intro a w h known c eq
  cases eq

/-- What follows a computation starts from its result. -/
lemma triple_ofExcept_bind {x : Except S.Err α} {f : α → Prog S β}
    (rest : ∀ b, x = .ok b → D.Triple K (f b) R) : D.Triple K (.ofExcept x >>= f) R := by
  cases x with
  | ok b => exact rest b rfl
  | error e => exact triple_throw

/-- What follows a value that may be missing starts from the value. -/
lemma triple_orThrow_bind {e : S.Err} {x : Option α} {f : α → Prog S β}
    (rest : ∀ b, x = some b → D.Triple K (f b) R) : D.Triple K (.orThrow e x >>= f) R := by
  cases x with
  | none => exact triple_throw
  | some b => exact rest b rfl

/-- What follows a check starts from what was checked. -/
lemma triple_require_bind {c : Prop} [Decidable c] {e : S.Err} {f : Unit → Prog S β}
    (rest : c → D.Triple K (f ()) R) : D.Triple K (.require c e >>= f) R := by
  by_cases hc : c
  · rw [Prog.require, if_pos hc]
    exact rest hc
  · rw [Prog.require, if_neg hc]
    exact triple_throw

/-- The rule of consequence. -/
lemma triple_mono {p : Prog S α} (before : ∀ w, K' w → K w) (after : ∀ b w, Q b w → Q' b w)
    (triple : D.Triple K p Q) : D.Triple K' p Q' :=
  fun a w h known => Spec.wp_mono (fun _ _ _ _ post b eq => after b _ (post b eq))
    (triple a w h (before w known))

/-- What a program knows it still knows afterwards. -/
lemma triple_frame {p : Prog S α} (stable : D.Stable K) (triple : D.Triple K p Q) :
    D.Triple K p fun b w => K w ∧ Q b w := by
  intro a w h known
  have later : ∀ {w w'}, D.spec.le w w' → K w → K w' := stable _ _
  have framed := Spec.wp_frame later known (triple a w h known)
  exact Spec.wp_mono (fun _ _ _ _ post b eq => ⟨post.2, post.1 b eq⟩) framed

/-- The rule of sequencing. -/
lemma triple_bind {p : Prog S α} {f : α → Prog S β} (stable : D.Stable K) (first : D.Triple K p Q)
    (rest : ∀ b, D.Triple (fun w => K w ∧ Q b w) (f b) R) : D.Triple K (p >>= f) R := by
  intro a w h known
  refine Spec.wp_bind_of (triple_frame stable first a w h known)
    (fun b a w h post => rest b a w h (post b rfl)) fun e a w h _ b eq => ?_
  cases eq

/-- The rule of `try`/`catch`. -/
lemma triple_tryCatch {p : Prog S α} {f : S.Err → Prog S α} (stable : D.Stable K)
    (body : D.Triple K p Q) (handler : ∀ e, D.Triple K (f e) Q) : D.Triple K (p.tryCatch f) Q := by
  intro a w h known
  have later : ∀ {w w'}, D.spec.le w w' → K w → K w' := stable _ _
  refine Spec.wp_tryCatch_of (Spec.wp_frame later known (body a w h known))
    (fun b a w h post c eq => ?_) fun e a w h post => handler e a w h post.2
  cases eq
  exact post.1 b rfl

/-! ## Calls side by side -/

/-- A call of a `Promise.all` keeps to the discipline, and finds out `P` of what it is fulfilled with. -/
def Finds (D : Discipline M) (P : α → W → Prop) (w : W) : Slot S α → Prop
  | .done b => P b w
  | .todo op post => D.may op w ∧
      ∀ w₁ o w₂, D.inv w₁ → M.Reply op w₁ o w₂ → ∀ b, post o.answer = .ok b → P b w₂

/-- What a slot finds is still found later. -/
lemma Finds.later {P : α → W → Prop} {w w' : W} {s : Slot S α} (found : ∀ b, D.Stable (P b))
    (le : D.le w w') (finds : D.Finds P w s) : D.Finds P w' s := by
  cases s with
  | done b => exact found b w w' le finds
  | todo op post => exact ⟨D.may_later le finds.1, finds.2⟩

/-- The rule of `Promise.all`. -/
lemma triple_promiseAll {slots : List (Slot S α)} {P : α → W → Prop} (found : ∀ b, D.Stable (P b))
    (each : ∀ s ∈ slots, ∀ w, K w → D.Finds P w s) :
    D.Triple K (.promiseAll slots) fun bs w => ∀ b ∈ bs, P b w := by
  intro a w h known
  refine Spec.wp_promiseAll (J := fun slots _ w _ => ∀ s ∈ slots, D.Finds P w s) ⟨?_, ?_⟩
    fun s mem => each s mem w known
  · intro xs op post ys a w h finds
    obtain ⟨may, finds_op⟩ := finds (.todo op post) (by simp)
    refine op_may may fun w₁ o w₂ le inv reply => ⟨fun b fulfilled s mem => ?_, fun e _ => ?_⟩
    · have other (s : Slot S α) (mem : s ∈ xs ++ .todo op post :: ys) : D.Finds P w₂ s :=
        (finds s mem).later found le
      rw [List.mem_append, List.mem_cons] at mem
      obtain mem | rfl | mem := mem
      · exact other s (List.mem_append_left _ mem)
      · exact finds_op w₁ o w₂ inv reply b fulfilled
      · exact other s (List.mem_append_right _ (List.mem_cons_of_mem _ mem))
    · refine ⟨a, 0, rfl, fun b eq => (by cases eq), ?_⟩
      refine Spec.detach_of (P := fun op => D.may op w₂) (E := fun _ => True) (fun op may => ?_)
        fun s mem => ?_
      · exact Spec.op_mono (fun _ _ _ _ _ => trivial)
          (op_may (P := fun _ _ _ _ => True) may fun _ _ _ _ _ _ => trivial)
      · cases s with
        | done b => trivial
        | todo op' post' =>
          have slot := (finds (.todo op' post') (by
            rw [List.mem_append, List.mem_cons]
            exact (List.mem_append.1 mem).imp_right Or.inr)).later found le
          exact ⟨slot.1, fun _ _ _ _ => trivial⟩
  · intro slots bs a w h finds res cs eq
    cases eq
    intro b mem
    exact finds (.done b) (Slot.mem_of_results res mem)

/-! ## Runs -/

/-- Every call that can be made keeps to the discipline. -/
def Kept (D : Discipline M) : Prop := ∀ p, M.entry p → D.Triple (fun _ => True) p fun _ _ => True

/-- A discipline that every operation keeps is kept by the steps of the pool. -/
lemma sound (kept : D.Kept) : D.spec.Sound := fun p entry w =>
  Spec.wp_mono (fun _ _ _ _ _ => trivial) (kept p entry 0 w [] trivial)

/-- The invariant holds in every run. -/
theorem inv_of_reachable {w : W} {s : Sys S W} (kept : D.Kept) (init : D.inv w)
    (reach : M.Reachable w s) : D.inv s.world := by
  obtain ⟨_, holds⟩ := Spec.inv_of_reachable (sound kept) init reach
  exact holds

/-- The world moves along the order in every run. -/
theorem le_of_steps {w : W} {s s' : Sys S W} (kept : D.Kept) (init : D.inv w)
    (reach : M.Reachable w s) (later : M.Steps s s') : D.le s.world s'.world := by
  obtain ⟨⟨_, holds⟩, -⟩ := (Spec.Holds.init (σ := D.spec) init).steps (sound kept) reach
  exact (holds.steps (sound kept) later).2

end Discipline

end AvaSettle.Async
