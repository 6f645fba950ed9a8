import Mathlib.Algebra.BigOperators.Group.List.Basic
import AvaSettle.Async.Pool

/-!
# A logic for pools of calls

Weakest preconditions for the programs of a `Machine`. A call owns an element of a commutative
monoid, its share of what the calls hold exclusively; the invariant ties the world to the sum of all
shares, so that what one call holds no other call holds. Between two operations of a call the world
may have moved along the order `le`, whatever the other calls did, and the call has to keep the
invariant for every frame. A call is also charged with keeping its own history `good`, and pays a toll
for a background program that it starts.

`Holds.spawns` is the soundness theorem: when every call that can be made has a weakest precondition
from the empty share, the invariant, with all tolls paid, and the goodness of all histories are kept
along every run.
-/

namespace AvaSettle.Async

variable {S : Sig} {W A : Type} [AddCommMonoid A] {M : Machine S W} {α β : Type}

/-- What a proof about a system maintains. -/
structure Spec (M : Machine S W) (A : Type) [AddCommMonoid A] where
  /-- The invariant of the world and the sum of what all calls hold. -/
  inv : W → A → Prop
  /-- How the world may move while a call is waiting. -/
  le : W → W → Prop
  /-- The histories a call may have. -/
  good : Hist S → Prop
  /-- A call that has done nothing is good. -/
  good_nil : good []
  /-- The order is reflexive. -/
  le_refl : ∀ w, le w w
  /-- The order is transitive. -/
  le_trans : ∀ {w₁ w₂ w₃}, le w₁ w₂ → le w₂ w₃ → le w₁ w₃
  /-- The world moves along the order by itself and keeps the invariant. -/
  env : ∀ {w w' a}, inv w a → M.env w w' → inv w' a ∧ le w w'
  /-- What starting a background program costs. -/
  toll : Prog S Unit → A := fun _ => 0

/-- A postcondition: of the result, the share, the world and the history. -/
abbrev Post (S : Sig) (W A α : Type) := Except S.Err α → A → W → Hist S → Prop

namespace Spec

variable {σ : Spec M A}

/-- The trivial postcondition. -/
def triv {S : Sig} {W A α : Type} : Post S W A α := fun _ _ _ _ => True

/-- What one operation owes: a good history, the invariant for every frame, and `K` afterwards. -/
def op (σ : Spec M A) (op : S.Op) (K : Outcome S.Err (S.Res op) → A → W → Hist S → Prop)
    (a : A) (w : W) (h : Hist S) : Prop :=
  ∀ w₁ f o w₂, σ.le w w₁ → σ.inv w₁ (a + f) → M.Reply op w₁ o w₂ → M.allowed h w₁ ⟨op, o⟩ →
    σ.good (h ++ [⟨op, o⟩]) ∧
      ∃ a', σ.inv w₂ (a' + f) ∧ σ.le w₁ w₂ ∧ K o a' w₂ (h ++ [⟨op, o⟩])

/-- What the calls left behind by a rejected `Promise.all` owe, each from its own share. -/
def detach (σ : Spec M A) : List S.Op → A → W → Hist S → Prop
  | [], a, _, _ => a = 0
  | o :: os, a, w, h =>
    ∃ a₁ a₂, a = a₁ + a₂ ∧ σ.op o (fun _ _ _ _ => True) a₁ w h ∧ σ.detach os a₂ w h

/-- `J` is kept by every call of a `Promise.all`, and gives `K` when it is over. -/
structure Closed (σ : Spec M A) (J : List (Slot S β) → A → W → Hist S → Prop)
    (K : Except S.Err (List β) → A → W → Hist S → Prop) : Prop where
  /-- One of the calls in flight is performed. -/
  step : ∀ {xs op post ys a w h}, J (xs ++ .todo op post :: ys) a w h →
    σ.op op (fun o a' w' h' =>
      (∀ b, post o.answer = .ok b → J (xs ++ .done b :: ys) a' w' h') ∧
      (∀ e, post o.answer = .error e → ∃ a₁ a₂, a' = a₁ + a₂ ∧ K (.error e) a₁ w' h' ∧
        σ.detach (Slot.pending (xs ++ ys)) a₂ w' h')) a w h
  /-- All calls have been fulfilled. -/
  join : ∀ {slots bs a w h}, J slots a w h → Slot.results slots = some bs → K (.ok bs) a w h

/-- What a `Promise.all` owes: some invariant of its slots, kept by every call. -/
def join (σ : Spec M A) (slots : List (Slot S β))
    (K : Except S.Err (List β) → A → W → Hist S → Prop) (a : A) (w : W) (h : Hist S) : Prop :=
  ∃ J, σ.Closed J K ∧ J slots a w h

/-- The weakest precondition of a program. -/
def wp (σ : Spec M A) {α : Type} : Prog S α → Post S W A α → A → W → Hist S → Prop
  | .pure b, Q, a, w, h => Q (.ok b) a w h
  | .throw e, Q, a, w, h => Q (.error e) a w h
  | .call op k, Q, a, w, h => σ.op op (fun o => σ.wp (k o.answer) Q) a w h
  | .all slots k, Q, a, w, h => σ.join slots (fun r => σ.wp (k r) Q) a w h
  | .fork child next, Q, a, w, h =>
    ∃ a₁ a₂, a = a₁ + a₂ + σ.toll child ∧ σ.wp next Q a₁ w h ∧ σ.wp child triv a₂ w []

/-! ## Rules -/

/-- An operation may be asked for more. -/
lemma op_mono {o : S.Op} {K K' : Outcome S.Err (S.Res o) → A → W → Hist S → Prop} {a w h}
    (hK : ∀ r a w h, K r a w h → K' r a w h) (hop : σ.op o K a w h) : σ.op o K' a w h := by
  intro w₁ f r w₂ le inv reply ok
  obtain ⟨good, a', inv', le', post⟩ := hop w₁ f r w₂ le inv reply ok
  exact ⟨good, a', inv', le', hK _ _ _ _ post⟩

/-- An operation may wait. -/
lemma op_le {o : S.Op} {K : Outcome S.Err (S.Res o) → A → W → Hist S → Prop} {a w w' h}
    (le : σ.le w w') (hop : σ.op o K a w h) : σ.op o K a w' h := by
  intro w₁ f r w₂ le' inv reply ok
  exact hop w₁ f r w₂ (σ.le_trans le le') inv reply ok

/-- What an operation throws is something it can throw. -/
lemma op_raises {o : S.Op} {K : Outcome S.Err (S.Res o) → A → W → Hist S → Prop} {a w h}
    (hop : σ.op o K a w h) :
    σ.op o (fun r a w h => K r a w h ∧ ∀ e, r.answer = .error e → M.raises o e = true) a w h := by
  intro w₁ f r w₂ le inv reply ok
  obtain ⟨good, a', inv', le', post⟩ := hop w₁ f r w₂ le inv reply ok
  exact ⟨good, a', inv', le', post, fun e => reply.raises⟩

/-- What the order keeps is kept by an operation. -/
lemma op_frame {o : S.Op} {K : Outcome S.Err (S.Res o) → A → W → Hist S → Prop} {a w h}
    {R : W → Prop} (later : ∀ {w w'}, σ.le w w' → R w → R w') (hR : R w) (hop : σ.op o K a w h) :
    σ.op o (fun r a w h => K r a w h ∧ R w) a w h := by
  intro w₁ f r w₂ le inv reply ok
  obtain ⟨good, a', inv', le', post⟩ := hop w₁ f r w₂ le inv reply ok
  exact ⟨good, a', inv', le', post, later le' (later le hR)⟩

/-- The rule of consequence. -/
lemma wp_mono {p : Prog S α} {Q Q' : Post S W A α} {a w h}
    (hQ : ∀ r a w h, Q r a w h → Q' r a w h) (hp : σ.wp p Q a w h) : σ.wp p Q' a w h := by
  induction p generalizing a w h with
  | pure b => exact hQ _ _ _ _ hp
  | throw e => exact hQ _ _ _ _ hp
  | call op k ih => exact op_mono (fun r a w h => ih r.answer hQ) hp
  | all slots k ih =>
    obtain ⟨J, closed, hJ⟩ := hp
    refine ⟨J, ⟨fun hJ => op_mono (fun r a w h post => ⟨post.1, fun e res => ?_⟩) (closed.step hJ),
      fun hJ res => ih _ hQ (closed.join hJ res)⟩, hJ⟩
    obtain ⟨a₁, a₂, eq, hk, hd⟩ := post.2 e res
    exact ⟨a₁, a₂, eq, ih _ hQ hk, hd⟩
  | fork child next _ ih =>
    obtain ⟨a₁, a₂, eq, hn, hc⟩ := hp
    exact ⟨a₁, a₂, eq, ih hQ hn, hc⟩

/-- A program may wait, when its postcondition may. -/
lemma wp_le {p : Prog S α} {Q : Post S W A α} {a w w' h}
    (hQ : ∀ r a w w' h, σ.le w w' → Q r a w h → Q r a w' h) (le : σ.le w w')
    (hp : σ.wp p Q a w h) : σ.wp p Q a w' h := by
  induction p generalizing a w w' h with
  | pure b => exact hQ _ _ _ _ _ le hp
  | throw e => exact hQ _ _ _ _ _ le hp
  | call op k ih => exact op_le le hp
  | all slots k ih =>
    obtain ⟨J, closed, hJ⟩ := hp
    refine ⟨fun slots a w h => ∃ w₀, σ.le w₀ w ∧ J slots a w₀ h, ⟨?_, ?_⟩, w, le, hJ⟩
    · rintro xs op post ys a w h ⟨w₀, le₀, hJ⟩
      refine op_mono (fun r a w h post => ⟨fun b res => ?_, post.2⟩) (op_le le₀ (closed.step hJ))
      exact ⟨w, σ.le_refl w, post.1 b res⟩
    · rintro slots bs a w h ⟨w₀, le₀, hJ⟩ res
      exact ih _ hQ le₀ (closed.join hJ res)
  | fork child next ihc ihn =>
    obtain ⟨a₁, a₂, eq, hn, hc⟩ := hp
    exact ⟨a₁, a₂, eq, ihn hQ le hn, ihc (fun _ _ _ _ _ _ _ => trivial) le hc⟩

/-- What the order keeps is kept by a program. -/
lemma wp_frame {p : Prog S α} {Q : Post S W A α} {R : W → Prop} {a w h}
    (later : ∀ {w w'}, σ.le w w' → R w → R w') (hR : R w) (hp : σ.wp p Q a w h) :
    σ.wp p (fun r a w h => Q r a w h ∧ R w) a w h := by
  induction p generalizing a w h with
  | pure b => exact ⟨hp, hR⟩
  | throw e => exact ⟨hp, hR⟩
  | call op k ih => exact op_mono (fun r a w h post => ih r.answer post.2 post.1) (op_frame later hR hp)
  | all slots k ih =>
    obtain ⟨J, closed, hJ⟩ := hp
    refine ⟨fun slots a w h => J slots a w h ∧ R w, ⟨fun before => ?_, fun before res => ?_⟩, hJ, hR⟩
    · refine op_mono (fun r a w h post => ⟨fun b res => ⟨post.1.1 b res, post.2⟩, fun e res => ?_⟩)
        (op_frame later before.2 (closed.step before.1))
      obtain ⟨a₁, a₂, eq, hk, hd⟩ := post.1.2 e res
      exact ⟨a₁, a₂, eq, ih _ post.2 hk, hd⟩
    · exact ih _ before.2 (closed.join before.1 res)
  | fork child next _ ih =>
    obtain ⟨a₁, a₂, eq, hn, hc⟩ := hp
    exact ⟨a₁, a₂, eq, ih hR hn, hc⟩

/-- The postcondition of the first half of a sequence. -/
def seq (Q : Post S W A β) (f : α → A → W → Hist S → Prop) : Post S W A α
  | .ok b, a, w, h => f b a w h
  | .error e, a, w, h => Q (.error e) a w h

/-- The postcondition of a guarded body. -/
def guarded (Q : Post S W A α) (f : S.Err → A → W → Hist S → Prop) : Post S W A α
  | .ok b, a, w, h => Q (.ok b) a w h
  | .error e, a, w, h => f e a w h

/-- The rule of sequencing. -/
theorem wp_bind {p : Prog S α} {f : α → Prog S β} {Q : Post S W A β} {a w h}
    (hp : σ.wp p (seq Q fun b => σ.wp (f b) Q) a w h) : σ.wp (p >>= f) Q a w h := by
  change σ.wp (p.bind f) Q a w h
  induction p generalizing a w h with
  | pure b => exact hp
  | throw e => exact hp
  | call op k ih => exact op_mono (fun r a w h => ih r.answer) hp
  | all slots k ih =>
    obtain ⟨J, closed, hJ⟩ := hp
    refine ⟨J, ⟨fun hJ => op_mono (fun r a w h post => ⟨post.1, fun e res => ?_⟩) (closed.step hJ),
      fun hJ res => ih _ (closed.join hJ res)⟩, hJ⟩
    obtain ⟨a₁, a₂, eq, hk, hd⟩ := post.2 e res
    exact ⟨a₁, a₂, eq, ih _ hk, hd⟩
  | fork child next _ ih =>
    obtain ⟨a₁, a₂, eq, hn, hc⟩ := hp
    exact ⟨a₁, a₂, eq, ih hn, hc⟩

/-- The rule of `try`/`catch`. -/
theorem wp_tryCatch {p : Prog S α} {f : S.Err → Prog S α} {Q : Post S W A α} {a w h}
    (hp : σ.wp p (guarded Q fun e => σ.wp (f e) Q) a w h) : σ.wp (p.tryCatch f) Q a w h := by
  induction p generalizing a w h with
  | pure b => exact hp
  | throw e => exact hp
  | call op k ih => exact op_mono (fun r a w h => ih r.answer) hp
  | all slots k ih =>
    obtain ⟨J, closed, hJ⟩ := hp
    refine ⟨J, ⟨fun hJ => op_mono (fun r a w h post => ⟨post.1, fun e res => ?_⟩) (closed.step hJ),
      fun hJ res => ih _ (closed.join hJ res)⟩, hJ⟩
    obtain ⟨a₁, a₂, eq, hk, hd⟩ := post.2 e res
    exact ⟨a₁, a₂, eq, ih _ hk, hd⟩
  | fork child next _ ih =>
    obtain ⟨a₁, a₂, eq, hn, hc⟩ := hp
    exact ⟨a₁, a₂, eq, ih hn, hc⟩

/-- Sequencing with a named postcondition of the first half. -/
theorem wp_bind_of {p : Prog S α} {f : α → Prog S β} {P : Post S W A α} {Q : Post S W A β} {a w h}
    (hp : σ.wp p P a w h) (ok : ∀ b a w h, P (.ok b) a w h → σ.wp (f b) Q a w h)
    (error : ∀ e a w h, P (.error e) a w h → Q (.error e) a w h) : σ.wp (p >>= f) Q a w h := by
  refine wp_bind (wp_mono (fun r a w h post => ?_) hp)
  cases r with
  | ok b => exact ok _ _ _ _ post
  | error e => exact error _ _ _ _ post

/-- `try`/`catch` with a named postcondition of the body. -/
theorem wp_tryCatch_of {p : Prog S α} {f : S.Err → Prog S α} {P Q : Post S W A α} {a w h}
    (hp : σ.wp p P a w h) (ok : ∀ b a w h, P (.ok b) a w h → Q (.ok b) a w h)
    (error : ∀ e a w h, P (.error e) a w h → σ.wp (f e) Q a w h) :
    σ.wp (p.tryCatch f) Q a w h := by
  refine wp_tryCatch (wp_mono (fun r a w h post => ?_) hp)
  cases r with
  | ok b => exact ok _ _ _ _ post
  | error e => exact error _ _ _ _ post

/-- A value meets what holds of it now. -/
@[simp] lemma wp_pure {b : α} {Q : Post S W A α} {a w h} :
    σ.wp (Pure.pure b : Prog S α) Q a w h ↔ Q (.ok b) a w h := Iff.rfl

/-- An exception meets what holds of it now. -/
@[simp] lemma wp_throw {e : S.Err} {Q : Post S W A α} {a w h} :
    σ.wp (throw e : Prog S α) Q a w h ↔ Q (.error e) a w h := Iff.rfl

/-- A computed result meets what holds of it now. -/
lemma wp_ofExcept {x : Except S.Err α} {Q : Post S W A α} {a w h} :
    σ.wp (.ofExcept x) Q a w h ↔ Q x a w h := by
  cases x <;> rfl

/-- A value that may be missing meets what holds of it, or of the exception. -/
lemma wp_orThrow {e : S.Err} {x : Option α} {Q : Post S W A α} {a w h}
    (some : ∀ b, x = some b → Q (.ok b) a w h) (none : x = none → Q (.error e) a w h) :
    σ.wp (.orThrow e x) Q a w h := by
  cases x with
  | none => exact none rfl
  | some b => exact some b rfl

/-- A check meets what holds where it passes and where it fails. -/
lemma wp_require {c : Prop} [Decidable c] {e : S.Err} {Q : Post S W A Unit} {a w h}
    (pos : c → Q (.ok ()) a w h) (neg : ¬c → Q (.error e) a w h) :
    σ.wp (.require c e) Q a w h := by
  unfold Prog.require
  split
  case isTrue hc => exact pos hc
  case isFalse hc => exact neg hc

/-- An operation meets what holds of its answers. -/
lemma wp_await {o : S.Op} {Q : Post S W A (S.Res o)} {a w h}
    (hop : σ.op o (fun r => Q r.answer) a w h) : σ.wp (.await o) Q a w h :=
  op_mono (fun _ _ _ _ post => wp_ofExcept.2 post) hop

/-- Operations side by side meet what an invariant of their slots leads to. -/
lemma wp_promiseAll {slots : List (Slot S β)} {Q : Post S W A (List β)} {a w h}
    {J : List (Slot S β) → A → W → Hist S → Prop} (closed : σ.Closed J Q) (hJ : J slots a w h) :
    σ.wp (.promiseAll slots) Q a w h := by
  refine ⟨J, ⟨fun hJ => op_mono (fun r a w h post => ⟨post.1, fun e res => ?_⟩) (closed.step hJ),
    fun hJ res => wp_ofExcept.2 (closed.join hJ res)⟩, hJ⟩
  obtain ⟨a₁, a₂, eq, hk, hd⟩ := post.2 e res
  exact ⟨a₁, a₂, eq, wp_ofExcept.2 hk, hd⟩

/-- The operations in flight of a `Promise.all` within `P` are owed from the empty share. -/
lemma detach_of {P : S.Op → Prop} {E : S.Err → Prop} {w h}
    (hP : ∀ o, P o → σ.op o (fun _ _ _ _ => True) 0 w h) {slots : List (Slot S β)}
    (uses : ∀ s ∈ slots, Prog.SlotUses P E s) : σ.detach (Slot.pending slots) 0 w h := by
  induction slots with
  | nil => rfl
  | cons s slots ih =>
    have rest := ih fun s' mem => uses s' (List.mem_cons_of_mem _ mem)
    cases s with
    | todo o post => exact ⟨0, 0, by simp, hP o (uses _ List.mem_cons_self).1, rest⟩
    | done b => exact rest

/-- A program keeps an assertion that each of the operations it uses keeps, with or without the
    share of the call, and throws what it may throw where they do. -/
theorem wp_uses_of {P : S.Op → Prop} {E : S.Err → Prop} {R : A → W → Hist S → Prop}
    (keep : ∀ o a w h, P o → R a w h →
      σ.op o (fun r a w h => R a w h ∧ ∀ e, r.answer = .error e → E e) a w h)
    (alone : ∀ o a w h, P o → R a w h → σ.op o (fun _ _ _ _ => True) 0 w h)
    {p : Prog S α} (uses : p.Uses P E) {a w h} (hR : R a w h) :
    σ.wp p (fun r a w h => R a w h ∧ ∀ e, r = .error e → E e) a w h := by
  induction p generalizing a w h with
  | pure b => exact ⟨hR, fun _ he => by cases he⟩
  | throw e => exact ⟨hR, fun e' he => by cases he; exact uses⟩
  | call op k ih =>
    refine op_mono (fun r a w h post => ?_) (keep op a w h uses.1 hR)
    cases hr : r.answer with
    | ok b => exact ih _ (uses.2.1 b) post.1
    | error e => exact ih _ (uses.2.2 e (post.2 e hr)) post.1
  | all slots k ih =>
    refine ⟨fun slots a w h => (∀ s ∈ slots, Prog.SlotUses P E s) ∧ R a w h, ⟨?_, ?_⟩,
      uses.1, hR⟩
    · rintro xs op post ys a w h ⟨hP, hR⟩
      have slot := hP (.todo op post) (by simp)
      have others : ∀ s ∈ xs ++ ys, Prog.SlotUses P E s := fun s mem =>
        hP s (by rcases List.mem_append.1 mem with mem | mem <;> simp [mem])
      refine op_mono (fun r a w h hR => ⟨fun b _ => ⟨Prog.slotUses_fulfil hP, hR.1⟩, fun e he => ?_⟩)
        (keep op a w h slot.1 hR)
      exact ⟨a, 0, by simp, ih _ (uses.2.2 e (slot.2 _ hR.2 e he)) hR.1,
        detach_of (fun o ho => alone o a w h ho hR.1) others⟩
    · rintro slots bs a w h ⟨-, hR⟩ -
      exact ih _ (uses.2.1 bs) hR
  | fork child next _ _ => exact uses.elim

/-- What the operations can throw is all that they throw. -/
theorem wp_uses {P : S.Op → Prop} {E : S.Err → Prop} {R : A → W → Hist S → Prop}
    (raises : ∀ o e, P o → M.raises o e = true → E e)
    (keep : ∀ o a w h, P o → R a w h → σ.op o (fun _ => R) a w h)
    (alone : ∀ o a w h, P o → R a w h → σ.op o (fun _ _ _ _ => True) 0 w h)
    {p : Prog S α} (uses : p.Uses P E) {a w h} (hR : R a w h) :
    σ.wp p (fun r a w h => R a w h ∧ ∀ e, r = .error e → E e) a w h :=
  wp_uses_of (fun o a w h hP hR => op_mono (fun _ _ _ _ post => ⟨post.1, fun e he => raises o e hP
    (post.2 e he)⟩) (op_raises (keep o a w h hP hR))) alone uses hR

/-! ## Soundness -/

/-- A call in progress is fine: its history is good and the rest of it can be run. -/
def Fine (σ : Spec M A) (w : W) (t : Thread S) (a : A) : Prop :=
  σ.good t.hist ∧ σ.wp t.prog triv a w t.hist

/-- A thread that is fine stays fine later. -/
lemma Fine.le {w w' t} {a : A} (le : σ.le w w') (fine : σ.Fine w t a) : σ.Fine w' t a :=
  ⟨fine.1, wp_le (fun _ _ _ _ _ _ _ => trivial) le fine.2⟩

/-- The operations that are left in flight share the token of the call. -/
lemma detach_fine {os : List S.Op} {a w h} (good : σ.good h) (hd : σ.detach os a w h) :
    ∃ as : List A, as.sum = a ∧
      List.Forall₂ (σ.Fine w) (os.map fun o => ⟨.detached o, h⟩) as := by
  induction os generalizing a with
  | nil => exact ⟨[], by simpa using hd.symm, .nil⟩
  | cons o os ih =>
    obtain ⟨a₁, a₂, rfl, hop, hd⟩ := hd
    obtain ⟨as, rfl, fine⟩ := ih hd
    exact ⟨a₁ :: as, by simp, .cons ⟨good, hop⟩ fine⟩

/-- What starting some background programs costs. -/
def tolls (σ : Spec M A) (ps : List (Prog S Unit)) : A := (ps.map σ.toll).sum

/-- The tolls of programs add up. -/
lemma tolls_append {ps qs : List (Prog S Unit)} :
    σ.tolls (ps ++ qs) = σ.tolls ps + σ.tolls qs := by
  simp [tolls]

/-- A step of one call keeps the invariant for every frame and leaves fine calls. -/
lemma Fine.tstep {w w' t ts} {a f : A} (fine : σ.Fine w t a) (inv : σ.inv w (a + f))
    (step : M.TStep w t w' ts) :
    ∃ as : List A, σ.inv w' (as.sum + (f + σ.tolls (t.spawned ts))) ∧ σ.le w w' ∧
      List.Forall₂ (σ.Fine w') ts as := by
  obtain ⟨good, hp⟩ := fine
  cases step with
  | call reply ok =>
    obtain ⟨good', a', inv', le', post⟩ := hp _ f _ _ (σ.le_refl _) inv reply ok
    exact ⟨[a'], by simpa [tolls, Thread.spawned] using inv', le', .cons ⟨good', post⟩ .nil⟩
  | fulfil reply ok res =>
    obtain ⟨J, closed, hJ⟩ := hp
    obtain ⟨good', a', inv', le', post⟩ :=
      closed.step hJ _ f _ _ (σ.le_refl _) inv reply ok
    exact ⟨[a'], by simpa [tolls, Thread.spawned] using inv', le',
      .cons ⟨good', J, closed, post.1 _ res⟩ .nil⟩
  | reject reply ok res =>
    obtain ⟨J, closed, hJ⟩ := hp
    obtain ⟨good', a', inv', le', post⟩ :=
      closed.step hJ _ f _ _ (σ.le_refl _) inv reply ok
    obtain ⟨a₁, a₂, rfl, hk, hd⟩ := post.2 _ res
    obtain ⟨as, rfl, fine⟩ := detach_fine good' hd
    exact ⟨a₁ :: as, by simpa [tolls, Thread.spawned] using inv', le', .cons ⟨good', hk⟩ fine⟩
  | join res =>
    obtain ⟨J, closed, hJ⟩ := hp
    exact ⟨[a], by simpa [tolls, Thread.spawned] using inv, σ.le_refl _,
      .cons ⟨good, closed.join hJ res⟩ .nil⟩
  | fork =>
    obtain ⟨a₁, a₂, rfl, hn, hc⟩ := hp
    refine ⟨[a₁, a₂], ?_, σ.le_refl _, .cons ⟨good, hn⟩ (.cons ⟨σ.good_nil, hc⟩ .nil)⟩
    simpa [tolls, Thread.spawned, add_assoc, add_left_comm, add_comm] using inv
  | crash =>
    exact ⟨[a], by simpa [tolls, Thread.spawned_singleton] using inv, σ.le_refl _,
      .cons ⟨good, trivial⟩ .nil⟩

/-- The state of a run in which `spent` has been paid: every call is fine on its share, and the shares
    fit the world. -/
def Holds (σ : Spec M A) (spent : A) (s : Sys S W) : Prop :=
  ∃ as : List A, σ.inv s.world (as.sum + spent) ∧ List.Forall₂ (σ.Fine s.world) s.pool as

/-- Every call that can be made can be run, from the empty share. -/
def Sound (σ : Spec M A) : Prop :=
  ∀ p, M.entry p → ∀ w, σ.wp p triv 0 w []

/-- What is related to a joined list is joined of what is related to its parts. -/
private lemma forall₂_append_inv {T U : Type*} {R : T → U → Prop} {l₁ l₂ : List T} {u : List U}
    (h : List.Forall₂ R (l₁ ++ l₂) u) :
    ∃ u₁ u₂, u = u₁ ++ u₂ ∧ List.Forall₂ R l₁ u₁ ∧ List.Forall₂ R l₂ u₂ := by
  induction l₁ generalizing u with
  | nil => exact ⟨[], u, rfl, .nil, h⟩
  | cons a l₁ ih =>
    obtain ⟨b, v, hab, hv, rfl⟩ := List.forall₂_cons_left_iff.1 h
    obtain ⟨u₁, u₂, rfl, h₁, h₂⟩ := ih hv
    exact ⟨b :: u₁, u₂, rfl, .cons hab h₁, h₂⟩

/-- Soundness: the state is kept along a run, and the world moves along the order. -/
theorem Holds.spawns {s s' ps} {spent : A} (sound : σ.Sound) (holds : σ.Holds spent s)
    (run : M.Spawns s ps s') : σ.Holds (spent + σ.tolls ps) s' ∧ σ.le s.world s'.world := by
  induction run with
  | refl => exact ⟨by simpa [tolls] using holds, σ.le_refl _⟩
  | @enter ps w pool p _ entry ih =>
    obtain ⟨⟨as, inv, fine⟩, le⟩ := ih
    refine ⟨⟨as ++ [0], by simpa using inv, ?_⟩, le⟩
    exact List.rel_append fine (.cons ⟨σ.good_nil, sound p entry w⟩ .nil)
  | env _ move ih =>
    obtain ⟨⟨as, inv, fine⟩, le⟩ := ih
    obtain ⟨inv', le'⟩ := σ.env inv move
    exact ⟨⟨as, inv', fine.imp fun _ _ fine => fine.le le'⟩, σ.le_trans le le'⟩
  | @thread ps w w' l t r ts _ step ih =>
    obtain ⟨⟨as, inv, fine⟩, le⟩ := ih
    obtain ⟨al, ar, rfl, fl, fr⟩ := forall₂_append_inv fine
    obtain ⟨a, ar, ft, fr', rfl⟩ := List.forall₂_cons_left_iff.1 fr
    have eq : (al ++ a :: ar).sum + (spent + σ.tolls ps) =
        a + ((al ++ ar).sum + (spent + σ.tolls ps)) := by
      simp [add_left_comm, add_assoc]
    obtain ⟨at', inv', le', ft'⟩ := ft.tstep (eq ▸ inv) step
    refine ⟨⟨al ++ at' ++ ar, ?_, ?_⟩, σ.le_trans le le'⟩
    · have eq' : (al ++ at' ++ ar).sum + (spent + σ.tolls (ps ++ t.spawned ts)) =
          at'.sum + ((al ++ ar).sum + (spent + σ.tolls ps) + σ.tolls (t.spawned ts)) := by
        simp [tolls_append, add_left_comm, add_assoc]
      exact eq' ▸ inv'
    · exact List.rel_append (List.rel_append (fl.imp fun _ _ fine => fine.le le') ft')
        (fr'.imp fun _ _ fine => fine.le le')

/-- The state is kept along a run whatever it starts in the background. -/
theorem Holds.steps {s s'} {spent : A} (sound : σ.Sound) (holds : σ.Holds spent s)
    (steps : M.Steps s s') : (∃ spent', σ.Holds spent' s') ∧ σ.le s.world s'.world := by
  obtain ⟨ps, run⟩ := Machine.Steps.spawns steps
  obtain ⟨holds', le⟩ := holds.spawns sound run
  exact ⟨⟨_, holds'⟩, le⟩

/-- The run has not begun. -/
lemma Holds.init {w : W} (init : σ.inv w 0) : σ.Holds 0 ⟨w, []⟩ :=
  ⟨[], by simpa using init, .nil⟩

/-- The invariant holds in every reachable state. -/
theorem inv_of_reachable {w s} (sound : σ.Sound) (init : σ.inv w 0) (reach : M.Reachable w s) :
    ∃ a, σ.inv s.world a := by
  obtain ⟨⟨_, _, inv, _⟩, _⟩ := Holds.steps sound (Holds.init init) reach
  exact ⟨_, inv⟩

/-- Every call has a good history where the logic holds. -/
lemma Holds.good {spent : A} {s : Sys S W} (holds : σ.Holds spent s) : ∀ t ∈ s.pool, σ.good t.hist := by
  obtain ⟨as, -, fine⟩ := holds
  generalize s.pool = ts at fine
  induction fine with
  | nil => simp
  | cons head _ ih => exact List.forall_mem_cons.2 ⟨head.1, ih⟩

/-- Every call has a good history in every reachable state. -/
theorem good_of_reachable {w s} (sound : σ.Sound) (init : σ.inv w 0) (reach : M.Reachable w s) :
    ∀ t ∈ s.pool, σ.good t.hist := by
  obtain ⟨_, holds⟩ := (Holds.steps sound (Holds.init init) reach).1
  exact holds.good

end Spec

/-- What the operations that the calls use keep holds in every reachable state. -/
theorem Machine.inv_of_uses {P : W → Prop} {Ops : S.Op → Prop} {w : W} {s : Sys S W}
    (uses : ∀ p, M.entry p → p.Uses Ops fun _ => True)
    (keep : ∀ op h w o w', Ops op → M.Reply op w o w' → M.allowed h w ⟨op, o⟩ → P w → P w')
    (env : ∀ w w', M.env w w' → P w → P w') (init : P w) (reach : M.Reachable w s) :
    P s.world := by
  let σ : Spec M ℕ :=
    { inv := fun w _ => P w
      le := fun _ _ => True
      good := fun _ => True
      good_nil := trivial
      le_refl := fun _ => trivial
      le_trans := fun _ _ => trivial
      env := fun holds move => ⟨env _ _ move holds, trivial⟩ }
  have op {o : S.Op} {a w h} (allowed : Ops o) : σ.op o (fun _ _ _ _ => True) a w h :=
    fun _ _ _ _ _ holds reply ok =>
      ⟨trivial, a, keep _ _ _ _ _ allowed reply ok holds, trivial, trivial⟩
  have sound : σ.Sound := fun p entry w =>
    Spec.wp_mono (fun _ _ _ _ _ => trivial) (Spec.wp_uses (R := fun _ _ _ => True)
      (fun _ _ _ _ => trivial) (fun _ _ _ _ allowed _ => op allowed)
      (fun _ _ _ _ allowed _ => op allowed) (uses p entry) trivial)
  obtain ⟨_, holds⟩ := Spec.inv_of_reachable sound init reach
  exact holds

end AvaSettle.Async
