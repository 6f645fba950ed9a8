import Mathlib.Logic.Relation
import AvaSettle.Async.Sequential

/-!
# Sessions

Calls that are made one after another, each running to its end before the next begins, while the world
moves by itself between and within them. What every call keeps holds after any session.

In a faultless machine an operation throws only where the world has to refuse it, so that a call is
determined by the world it meets.
-/

namespace AvaSettle.Async

variable {S : Sig} {W : Type} {M : Machine S W} {rely : Hist S → W → W → Prop} {α β : Type}

/-- The operation did not fail: it was performed and answered, or the world had to refuse it. -/
def Event.Faultless (exec : (op : S.Op) → W → Option (S.Res op × W)) (w : W) (e : Event S) : Prop :=
  match e.outcome with
  | .done _ => True
  | .refused _ => exec e.op w = none
  | .lost _ _ => False

/-- An operation that does not throw has not failed. -/
lemma Event.faultless_of_not_threw {exec : (op : S.Op) → W → Option (S.Res op × W)} {w : W}
    {e : Event S} (ok : (!e.outcome.threw) = true) : e.Faultless exec w := by
  obtain ⟨op, b | e | ⟨b, e⟩⟩ := e
  · trivial
  · cases ok
  · cases ok

namespace Machine

/-- While a call is waiting the world may move by itself, and no other call is made. -/
def Alone (M : Machine S W) : Hist S → W → W → Prop :=
  fun _ => Relation.ReflTransGen M.env

/-- A part of a session: the world moves, or a call is made and runs to its end. -/
inductive Turn (M : Machine S W) : W → W → Prop where
  | env {w w'} (move : M.env w w') : Turn M w w'
  | call {p r w w' h} (entry : M.entry p) (run : M.Runs M.Alone p w [] r w' h) : Turn M w w'

/-- A session. -/
abbrev Session (M : Machine S W) : W → W → Prop :=
  Relation.ReflTransGen M.Turn

/-- What every call and the world keep holds after any session. -/
theorem session_induction {I : W → Prop} {w w' : W} (env : ∀ w w', M.env w w' → I w → I w')
    (call : ∀ p r w w' h, M.entry p → M.Runs M.Alone p w [] r w' h → I w → I w')
    (session : M.Session w w') (init : I w) : I w' := by
  induction session with
  | refl => exact init
  | tail _ turn ih =>
    cases turn with
    | env move => exact env _ _ move ih
    | call entry run => exact call _ _ _ _ _ entry run ih

/-- What the world keeps in one move it keeps while a call is waiting. -/
lemma Alone.keeps {I : W → Prop} {h : Hist S} {w w' : W} (env : ∀ w w', M.env w w' → I w → I w')
    (move : M.Alone h w w') (holds : I w) : I w' := by
  induction move with
  | refl => exact holds
  | tail _ step ih => exact env _ _ step ih

/-! ## Requests -/

/-- A part of a session of requests: the world moves, or a request is served from its first operation to its
    last, and the worlds before and after it meet a condition. -/
inductive Visit (M : Machine S W) {Q : Type} (serve : Q → Prog S Unit) (meets : W → Q → W → Prop) :
    W → W → Prop where
  | env {w w'} (move : M.env w w') : Visit M serve meets w w'
  | call {q r w w' h} (run : M.Runs M.Alone (serve q) w [] r w' h) (met : meets w q w') :
      Visit M serve meets w w'

/-- A session of requests. -/
abbrev Visits (M : Machine S W) {Q : Type} (serve : Q → Prog S Unit) (meets : W → Q → W → Prop) :
    W → W → Prop :=
  Relation.ReflTransGen (M.Visit serve meets)

/-- A machine lets happen only what another one does too. -/
structure Within (M M' : Machine S W) : Prop where
  exec : M.exec = M'.exec
  raises : M.raises = M'.raises
  env : ∀ {w w'}, M.env w w' → M'.env w w'
  allowed : ∀ {h w e}, M.allowed h w e → M'.allowed h w e

section
variable {M' : Machine S W} {Q : Type} {serve : Q → Prog S Unit} {meets : W → Q → W → Prop} {w w' : W}

/-- A reply of the narrower machine is one of the wider. -/
lemma Within.reply {op : S.Op} {o : Outcome S.Err (S.Res op)} (within : M.Within M')
    (reply : M.Reply op w o w') : M'.Reply op w o w' := by
  unfold Reply
  rw [← within.exec, ← within.raises]
  exact reply

/-- What the world does while a call is waiting is done in the system. -/
lemma Within.steps_of_alone {h : Hist S} {pool : List (Thread S)} (within : M.Within M')
    (move : M.Alone h w w') : M'.Steps ⟨w, pool⟩ ⟨w', pool⟩ := by
  induction move with
  | refl => exact .refl
  | tail _ step ih => exact ih.tail (.env (within.env step))

/-- A step of one call among others, before what it becomes goes on. -/
lemma exists_steps_of_tstep {t t' : Thread S} {ts before : List (Thread S)} {w₁ w₂ : W}
    (step : M'.TStep w t w₁ (t' :: ts))
    (rest : ∀ after, ∃ pool, M'.Steps ⟨w₁, before ++ t' :: after⟩ ⟨w₂, pool⟩) (after : List (Thread S)) :
    ∃ pool, M'.Steps ⟨w, before ++ t :: after⟩ ⟨w₂, pool⟩ := by
  obtain ⟨pool, rest⟩ := rest (ts ++ after)
  have here : M'.Step ⟨w, before ++ t :: after⟩ ⟨w₁, before ++ (t' :: ts) ++ after⟩ := .thread step
  rw [List.append_assoc] at here
  exact ⟨pool, .head here rest⟩

/-- A run of a call that is alone is a run of the system. -/
theorem Within.steps_of_runs {p : Prog S Unit} {h h' : Hist S} {r} (within : M.Within M')
    (run : M.Runs M.Alone p w h r w' h') (before after : List (Thread S)) :
    ∃ pool, M'.Steps ⟨w, before ++ ⟨p, h⟩ :: after⟩ ⟨w', pool⟩ := by
  induction run generalizing after with
  | pure => exact ⟨_, .refl⟩
  | throw => exact ⟨_, .refl⟩
  | call move reply ok _ ih =>
    obtain ⟨pool, rest⟩ :=
      exists_steps_of_tstep (.call (within.reply reply) (within.allowed ok)) ih after
    exact ⟨pool, (within.steps_of_alone move).trans rest⟩
  | fulfil move reply ok res _ ih =>
    obtain ⟨pool, rest⟩ :=
      exists_steps_of_tstep (.fulfil (within.reply reply) (within.allowed ok) res) ih after
    exact ⟨pool, (within.steps_of_alone move).trans rest⟩
  | reject move reply ok res _ ih =>
    obtain ⟨pool, rest⟩ :=
      exists_steps_of_tstep (.reject (within.reply reply) (within.allowed ok) res) ih after
    exact ⟨pool, (within.steps_of_alone move).trans rest⟩
  | join res _ ih => exact exists_steps_of_tstep (.join res) ih after
  | fork _ ih => exact exists_steps_of_tstep .fork ih after

/-- A session of requests is a run of a system that they can enter. -/
theorem Within.steps_of_visits (within : M.Within M') (entry : ∀ q, M'.entry (serve q))
    (session : M.Visits serve meets w w') : ∃ pool, M'.Steps ⟨w, []⟩ ⟨w', pool⟩ := by
  induction session with
  | refl => exact ⟨_, .refl⟩
  | tail _ visit ih =>
    obtain ⟨pool, steps⟩ := ih
    cases visit with
    | env move => exact ⟨pool, steps.tail (.env (within.env move))⟩
    | @call q r w₁ _ h run met =>
      obtain ⟨pool', rest⟩ := within.steps_of_runs run pool []
      exact ⟨pool', (steps.tail (.enter (entry q))).trans rest⟩

end

/-! ### What a call leads to -/

/-- A call that is alone leads from one assertion about the world to another. -/
def Takes (M : Machine S W) (R : W → Prop) (p : Prog S α) (K : Except S.Err α → W → Prop) : Prop :=
  ∀ w h, R w → M.wp M.Alone p (fun r w _ => K r w) w h

section
variable {R R' : W → Prop} {K K' : Except S.Err α → W → Prop} {L : Except S.Err β → W → Prop}
  {p : Prog S α} {f : α → Prog S β}

/-- The rule of consequence. -/
lemma takes_mono (pre : ∀ w, R' w → R w) (post : ∀ r w, K r w → K' r w) (takes : M.Takes R p K) :
    M.Takes R' p K' :=
  fun w h holds => wp_mono (fun r w _ => post r w) (takes w h (pre w holds))

/-- What the assertion implies may be used. -/
lemma takes_of_fact {c : Prop} (fact : ∀ w, R w → c) (takes : c → M.Takes R p K) : M.Takes R p K :=
  fun w h holds => takes (fact w holds) w h holds

/-- The rule of sequencing. -/
lemma takes_bind (first : M.Takes R p K) (ok : ∀ b, M.Takes (K (.ok b)) (f b) L)
    (error : ∀ e w, K (.error e) w → L (.error e) w) : M.Takes R (p >>= f) L :=
  fun w h holds => wp_bind_of (first w h holds) (fun b w h => ok b w h) fun e w _ => error e w

/-- The rule of `try`/`catch`. -/
lemma takes_tryCatch {g : S.Err → Prog S α} (body : M.Takes R p K) (ok : ∀ b w, K (.ok b) w → K' (.ok b) w)
    (error : ∀ e, M.Takes (K (.error e)) (g e) K') : M.Takes R (p.tryCatch g) K' :=
  fun w h holds => wp_tryCatch_of (body w h holds) (fun b w _ => ok b w) fun e w h => error e w h

/-- A value leads to what holds of it. -/
lemma takes_pure {a : α} (post : ∀ w, R w → K (.ok a) w) : M.Takes R (pure a) K :=
  fun w _ holds => post w holds

/-- An exception leads to what holds of it. -/
lemma takes_throw {e : S.Err} (post : ∀ w, R w → K (.error e) w) : M.Takes R (throw e : Prog S α) K :=
  fun w _ holds => post w holds

/-- A computed result leads to what follows it. -/
lemma takes_ofExcept_bind {x : Except S.Err α} (ok : ∀ b, x = .ok b → M.Takes R (f b) L)
    (error : ∀ e w, R w → L (.error e) w) : M.Takes R (.ofExcept x >>= f) L := by
  cases x with
  | ok b => exact ok b rfl
  | error e => exact fun w _ holds => error e w holds

/-- So does a check. -/
lemma takes_require_bind {c : Prop} [Decidable c] {e : S.Err} {f : Unit → Prog S β}
    (pass : c → M.Takes R (f ()) L) (fail : ∀ w, R w → L (.error e) w) :
    M.Takes R (.require c e >>= f) L := by
  unfold Prog.require
  split
  case isTrue holds => exact pass holds
  case isFalse => exact fun w _ holds => fail w holds

/-- So does a value that may be missing. -/
lemma takes_orThrow_bind {e : S.Err} {x : Option α} (some : ∀ b, x = some b → M.Takes R (f b) L)
    (none : ∀ w, R w → L (.error e) w) : M.Takes R (.orThrow e x >>= f) L := by
  cases x with
  | none => exact fun w _ holds => none w holds
  | some b => exact some b rfl

/-- A program that is started and not awaited leaves the assertion. -/
lemma takes_spawn {child : Prog S Unit} : M.Takes R (.spawn child) fun _ => R :=
  fun _ _ holds => holds

/-- The rule of a loop that keeps an assertion. -/
lemma takes_forEach {g : α → Prog S Unit} {bs : List α} (body : ∀ b ∈ bs, M.Takes R (g b) fun _ => R) :
    M.Takes R (.forEach g bs) fun _ => R := by
  induction bs with
  | nil => exact takes_pure fun _ holds => holds
  | cons b bs ih =>
    obtain ⟨here, later⟩ := List.forall_mem_cons.1 body
    exact takes_bind here (fun _ => ih later) fun _ _ holds => holds

/-- The rule of an operation, of an assertion that the world keeps. -/
lemma takes_await {op : S.Op} {K : Except S.Err (S.Res op) → W → Prop}
    (env : ∀ w w', M.env w w' → R w → R w')
    (perform : ∀ h w o w', R w → M.Reply op w o w' → M.allowed h w ⟨op, o⟩ → K o.answer w') :
    M.Takes R (.await op) K :=
  fun _ _ holds => wp_await fun _ _ _ move reply ok => perform _ _ _ _ (Alone.keeps env move holds) reply ok

/-- A program keeps what the world and each of its operations keep. -/
lemma takes_uses {P : S.Op → Prop} (env : ∀ w w', M.env w w' → R w → R w')
    (keep : ∀ op h w o w', P op → R w → M.Reply op w o w' → M.allowed h w ⟨op, o⟩ → R w')
    (uses : p.Uses P fun _ => True) : M.Takes R p fun _ => R :=
  fun _ _ holds => wp_uses (R := fun w _ => R w) (fun _ _ _ here holds _ _ _ move reply ok =>
    keep _ _ _ _ _ here (Alone.keeps env move holds) reply ok) uses holds

/-- Every run of a call that is alone leads where its rules say. -/
lemma Takes.of_runs {w w' : W} {h : Hist S} {r} (takes : M.Takes R p K)
    (run : M.Runs M.Alone p w [] r w' h) (holds : R w) : K r w' :=
  wp_sound run (takes w [] holds)

end

/-! ## Machines without faults -/

/-- Only operations that do not fail are let happen. -/
def IsFaultless (M : Machine S W) : Prop :=
  ∀ h w e, M.allowed h w e → e.Faultless M.exec w

/-- The rule of an operation without faults. -/
lemma leads_of_faultless (faultless : M.IsFaultless) {op : S.Op}
    {K : Outcome S.Err (S.Res op) → W → Hist S → Prop} {w h}
    (done : ∀ w₁ b w₂, rely h w w₁ → M.exec op w₁ = some (b, w₂) → M.allowed h w₁ ⟨op, .done b⟩ →
      K (.done b) w₂ (h ++ [⟨op, .done b⟩]))
    (refused : ∀ w₁ e, rely h w w₁ → M.exec op w₁ = none → M.raises op e = true →
      K (.refused e) w₁ (h ++ [⟨op, .refused e⟩])) : M.Leads rely op K w h := by
  intro w₁ o w₂ move reply ok
  cases o with
  | done b => exact done w₁ b w₂ move reply ok
  | refused e =>
    obtain ⟨raises, rfl⟩ := reply
    exact refused w₂ e move (faultless _ _ _ ok) raises
  | lost b e => exact (faultless _ _ _ ok).elim

end Machine

/-! ## Evaluation -/

/-- A part of a concrete session: a move of the world, or a call with the fates of its operations. -/
inductive Part (S : Sig) (W : Type) : Type 1 where
  | env (f : W → W)
  | call (p : Prog S Unit) (fates : List (Fate S.Err))

/-- The part is one that a session can contain. -/
def Part.Legal (M : Machine S W) : Part S W → Prop
  | .env f => ∀ w, M.env w (f w)
  | .call p _ => M.entry p

namespace Machine

/-- The world at the end of a concrete session. -/
def session (M : Machine S W) (ok : Hist S → W → Event S → Bool) : List (Part S W) → W → Option W
  | [], w => some w
  | .env f :: parts, w => M.session ok parts (f w)
  | .call p fates :: parts, w => (M.play ok p fates w []).bind fun r => M.session ok parts r.2.1

/-- A session that is evaluated is one of the machine. -/
lemma session_of_eval {ok : Hist S → W → Event S → Bool} {parts : List (Part S W)} {w w' : W}
    (allowed : ∀ h w e, ok h w e = true → M.allowed h w e) (legal : ∀ p ∈ parts, p.Legal M)
    (res : M.session ok parts w = some w') : M.Session w w' := by
  induction parts generalizing w with
  | nil =>
    cases res
    exact .refl
  | cons part parts ih =>
    obtain ⟨here, later⟩ := List.forall_mem_cons.1 legal
    cases part with
    | env f => exact .head (.env (here w)) (ih later res)
    | call p fates =>
      obtain ⟨⟨r, w₁, h⟩, played, res⟩ := Option.bind_eq_some_iff.1 res
      exact .head (.call here (runs_of_play allowed (fun _ _ => .refl) played)) (ih later res)

/-- What a concrete session is evaluated to reach, a session reaches. -/
theorem exists_session (ok : Hist S → W → Event S → Bool) (parts : List (Part S W)) {w : W}
    (P : W → Bool) (allowed : ∀ h w e, ok h w e = true → M.allowed h w e)
    (legal : ∀ p ∈ parts, p.Legal M) (res : (M.session ok parts w).any P = true) :
    ∃ w', M.Session w w' ∧ P w' = true := by
  obtain ⟨w', eq, hP⟩ := (Option.any_eq_true _ _).1 res
  exact ⟨w', session_of_eval allowed legal eq, hP⟩

end Machine

/-- A part of a concrete session of requests. -/
inductive Errand (S : Sig) (W Q : Type) : Type where
  | env (f : W → W)
  | call (q : Q) (fates : List (Fate S.Err))

namespace Machine

section
variable {Q : Type} {serve : Q → Prog S Unit} {meets : W → Q → W → Prop}

/-- The world at the end of a concrete session of requests, where they are met. -/
def visits (M : Machine S W) (ok : Hist S → W → Event S → Bool) (serve : Q → Prog S Unit)
    (met : W → Q → W → Bool) : List (Errand S W Q) → W → Option W
  | [], w => some w
  | .env f :: errands, w => M.visits ok serve met errands (f w)
  | .call q fates :: errands, w => (M.play ok (serve q) fates w []).bind fun r =>
    if met w q r.2.1 then M.visits ok serve met errands r.2.1 else none

/-- A session of requests that is evaluated is one of the machine. -/
theorem visits_of_eval {ok : Hist S → W → Event S → Bool} {met : W → Q → W → Bool}
    {errands : List (Errand S W Q)} {w w' : W} (allowed : ∀ h w e, ok h w e = true → M.allowed h w e)
    (fair : ∀ w q w', met w q w' = true → meets w q w') (moves : ∀ f, .env f ∈ errands → ∀ w, M.env w (f w))
    (res : M.visits ok serve met errands w = some w') : M.Visits serve meets w w' := by
  induction errands generalizing w with
  | nil =>
    cases res
    exact .refl
  | cons errand errands ih =>
    have later : ∀ f, .env f ∈ errands → ∀ w, M.env w (f w) := fun f mem =>
      moves f (List.mem_cons_of_mem _ mem)
    cases errand with
    | env f => exact .head (.env (moves f List.mem_cons_self w)) (ih later res)
    | call q fates =>
      obtain ⟨⟨r, w₁, h⟩, played, res⟩ := Option.bind_eq_some_iff.1 res
      obtain ⟨holds, res⟩ := Option.ite_none_right_eq_some.1 res
      have run : M.Runs M.Alone (serve q) w [] r w₁ h := runs_of_play allowed (fun _ _ => .refl) played
      exact .head (.call run (fair _ _ _ holds)) (ih later res)

end

end Machine

end AvaSettle.Async
