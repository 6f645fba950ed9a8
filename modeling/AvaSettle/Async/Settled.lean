import Mathlib.Data.List.Forall2
import AvaSettle.Async.Sequential

/-!
# Programs side by side

`Promise.all` and `Promise.allSettled` of whole programs. Whose operation comes next is not decided by
the programs. It is an argument here, and what is proved holds for every choice of it.

`Keeps` is the logic of such programs: it looks at a world through an invariant only, so that what
holds of two programs holds of both side by side.
-/

namespace AvaSettle.Async

variable {S : Sig} {W : Type} {M : Machine S W} {α β γ : Type}

/-- Whose operation is next, step by step: that of the first program where it is `true`. -/
abbrev Turns := Nat → Bool

/-- The turns after the first. -/
def Turns.next (t : Turns) : Turns := fun n => t (n + 1)

namespace Prog

/-- The operations of the second program, up to the next turn of the first, which is `own`. -/
def yielding (own : Turns → Prog S β → Prog S γ) : Turns → Prog S β → Prog S γ
  | t, .pure b => own t (.pure b)
  | _, .throw e => .throw e
  | t, .call op k =>
    if t 0 then own t.next (.call op k) else .call op fun r => yielding own t.next (k r)
  | t, .all slots k =>
    if t 0 then own t.next (.all slots k) else .all slots fun r => yielding own t.next (k r)
  | t, .fork child next =>
    if t 0 then own t.next (.fork child next) else .fork child (yielding own t.next next)

/-- `Promise.all` of two programs: the first error is thrown. -/
def both : Prog S α → Turns → Prog S β → Prog S (α × β)
  | .pure a, _, q => q.bind fun b => .pure (a, b)
  | .throw e, _, _ => .throw e
  | .call op k, t, q => yielding (fun t q => .call op fun r => (k r).both t q) t q
  | .all slots k, t, q => yielding (fun t q => .all slots fun r => (k r).both t q) t q
  | .fork child next, t, q => yielding (fun t q => .fork child (next.both t q)) t q

/-- The outcome of a program as a value. -/
def settle (p : Prog S α) : Prog S (Except S.Err α) :=
  (p.bind fun a => .pure (.ok a)).tryCatch fun e => .pure (.error e)

/-- `Promise.allSettled`. -/
def allSettled : List (Prog S α) → (Nat → Turns) → Prog S (List (Except S.Err α))
  | [], _ => .pure []
  | p :: ps, t =>
    (p.settle.both (t 0) (allSettled ps fun n => t (n + 1))).bind fun r => .pure (r.1 :: r.2)

end Prog

namespace Machine

/-! ## Invariants of the world -/

/-- Whatever becomes of the operation, the invariant is kept, and `K` holds of the outcome. -/
def Stays (M : Machine S W) (I : W → Prop) (op : S.Op)
    (K : Outcome S.Err (S.Res op) → Prop) : Prop :=
  ∀ w o w' h, I w → M.Reply op w o w' → M.allowed h w ⟨op, o⟩ → I w' ∧ K o

/-- `J` is kept by every call of a `Promise.all`, and gives `K` when it is over. -/
structure Shared (M : Machine S W) (I : W → Prop) (J : List (Slot S β) → Prop)
    (K : Except S.Err (List β) → Prop) : Prop where
  /-- One of the calls in flight is performed. -/
  step : ∀ {xs op post ys}, J (xs ++ .todo op post :: ys) → M.Stays I op fun o =>
    (∀ b, post o.answer = .ok b → J (xs ++ .done b :: ys)) ∧
      ∀ e, post o.answer = .error e → K (.error e)
  /-- All calls have been fulfilled. -/
  join : ∀ {slots bs}, J slots → Slot.results slots = some bs → K (.ok bs)

/-- Every operation of the program keeps the invariant, and what it returns satisfies `A`. -/
def Keeps (M : Machine S W) (I : W → Prop) (A : α → Prop) : Prog S α → Prop
  | .pure a => A a
  | .throw _ => True
  | .call op k => M.Stays I op fun o => M.Keeps I A (k o.answer)
  | .all slots k => ∃ J, M.Shared I J (fun r => M.Keeps I A (k r)) ∧ J slots
  | .fork _ next => M.Keeps I A next

variable {I : W → Prop} {A A' : α → Prop} {B : β → Prop} {C : γ → Prop}

/-- An operation stays within what is weaker too. -/
lemma stays_mono {op : S.Op} {K K' : Outcome S.Err (S.Res op) → Prop} (hK : ∀ o, K o → K' o)
    (stays : M.Stays I op K) : M.Stays I op K' :=
  fun w o w' h inv reply ok => ⟨(stays w o w' h inv reply ok).1, hK _ (stays w o w' h inv reply ok).2⟩

/-- What slots share leads to what is weaker too. -/
lemma shared_mono {J : List (Slot S β) → Prop} {K K' : Except S.Err (List β) → Prop}
    (hK : ∀ r, K r → K' r) (shared : M.Shared I J K) : M.Shared I J K' where
  step hJ := stays_mono (fun _ post => ⟨post.1, fun e res => hK _ (post.2 e res)⟩) (shared.step hJ)
  join hJ res := hK _ (shared.join hJ res)

/-- The rule of consequence. -/
lemma keeps_mono {p : Prog S α} (hA : ∀ a, A a → A' a) (hp : M.Keeps I A p) : M.Keeps I A' p := by
  induction p with
  | pure a => exact hA a hp
  | throw e => trivial
  | call op k ih => exact stays_mono (fun o => ih o.answer hA) hp
  | all slots k ih =>
    obtain ⟨J, shared, hJ⟩ := hp
    exact ⟨J, shared_mono (fun r => ih r hA) shared, hJ⟩
  | fork child next _ ih => exact ih hA hp

/-- The rule of sequencing. -/
lemma keeps_bind {p : Prog S α} {f : α → Prog S β} (hp : M.Keeps I A p)
    (hf : ∀ a, A a → M.Keeps I B (f a)) : M.Keeps I B (p >>= f) := by
  change M.Keeps I B (p.bind f)
  induction p with
  | pure a => exact hf a hp
  | throw e => trivial
  | call op k ih => exact stays_mono (fun o hp => ih o.answer hp hf) hp
  | all slots k ih =>
    obtain ⟨J, shared, hJ⟩ := hp
    exact ⟨J, shared_mono (fun r hp => ih r hp hf) shared, hJ⟩
  | fork child next _ ih => exact ih hp hf

/-- The rule of `try`/`catch`. -/
lemma keeps_tryCatch {p : Prog S α} {f : S.Err → Prog S α} (hp : M.Keeps I A p)
    (hf : ∀ e, M.Keeps I A (f e)) : M.Keeps I A (p.tryCatch f) := by
  induction p with
  | pure a => exact hp
  | throw e => exact hf e
  | call op k ih => exact stays_mono (fun o hp => ih o.answer hp hf) hp
  | all slots k ih =>
    obtain ⟨J, shared, hJ⟩ := hp
    exact ⟨J, shared_mono (fun r hp => ih r hp hf) shared, hJ⟩
  | fork child next _ ih => exact ih hp hf

/-- An operation that keeps the invariant. -/
lemma keeps_await {op : S.Op} {A : S.Res op → Prop}
    (keep : ∀ w b w', I w → M.exec op w = some (b, w') → I w' ∧ A b) :
    M.Keeps I A (.await op) := by
  intro w o w' h inv reply _
  cases o with
  | done b => exact keep w b w' inv reply
  | refused e =>
    obtain ⟨-, rfl⟩ := reply
    exact ⟨inv, trivial⟩
  | lost b e => exact ⟨(keep w b w' inv reply.1).1, trivial⟩

/-- With nothing to keep, every program will do. -/
lemma keeps_trivial {p : Prog S α} : M.Keeps (fun _ => True) (fun _ => True) p := by
  induction p with
  | pure a => trivial
  | throw e => trivial
  | call op k ih => exact fun _ o _ _ _ _ _ => ⟨trivial, ih o.answer⟩
  | all slots k ih =>
    exact ⟨fun _ => True, ⟨fun _ _ o _ _ _ _ _ => ⟨trivial, fun _ _ => trivial, fun e _ => ih _⟩,
      fun _ _ => ih _⟩, trivial⟩
  | fork child next _ ih => exact ih

/-! ## Side by side -/

/-- A program that lets another go first keeps what both keep. -/
lemma keeps_yielding {own : Turns → Prog S β → Prog S γ} {t : Turns} {q : Prog S β}
    (hown : ∀ t q, M.Keeps I B q → M.Keeps I C (own t q)) (hq : M.Keeps I B q) :
    M.Keeps I C (Prog.yielding own t q) := by
  induction q generalizing t with
  | pure b => exact hown t _ hq
  | throw e => trivial
  | call op k ih =>
    unfold Prog.yielding
    split
    case isTrue => exact hown _ _ hq
    case isFalse => exact stays_mono (fun o hq => ih o.answer hown hq) hq
  | all slots k ih =>
    unfold Prog.yielding
    split
    case isTrue => exact hown _ _ hq
    case isFalse =>
      obtain ⟨J, shared, hJ⟩ := hq
      exact ⟨J, shared_mono (fun r hq => ih r hown hq) shared, hJ⟩
  | fork child next _ ih =>
    unfold Prog.yielding
    split
    case isTrue => exact hown _ _ hq
    case isFalse => exact ih hown hq

/-- What two programs keep, they keep side by side, in any order of their operations. -/
theorem keeps_both {p : Prog S α} {t : Turns} {q : Prog S β} (hp : M.Keeps I A p)
    (hq : M.Keeps I B q) : M.Keeps I (fun r => A r.1 ∧ B r.2) (p.both t q) := by
  induction p generalizing t q with
  | pure a => exact keeps_bind hq fun b hb => ⟨hp, hb⟩
  | throw e => trivial
  | call op k ih =>
    exact keeps_yielding (fun t q hq => stays_mono (fun o hp => ih o.answer hp hq) hp) hq
  | all slots k ih =>
    obtain ⟨J, shared, hJ⟩ := hp
    exact keeps_yielding (fun t q hq => ⟨J, shared_mono (fun r hp => ih r hp hq) shared, hJ⟩) hq
  | fork child next _ ih => exact keeps_yielding (fun t q hq => ih hp hq) hq

/-- A program whose errors are caught is always fulfilled. -/
lemma keeps_settle {p : Prog S α} {f : S.Err → α} (hp : M.Keeps I A p) (hf : ∀ e, A (f e)) :
    M.Keeps I (fun r => ∃ a, r = .ok a ∧ A a) (p.tryCatch fun e => .pure (f e)).settle := by
  induction p with
  | pure a => exact ⟨a, rfl, hp⟩
  | throw e => exact ⟨f e, rfl, hf e⟩
  | call op k ih => exact stays_mono (fun o hp => ih o.answer hp hf) hp
  | all slots k ih =>
    obtain ⟨J, shared, hJ⟩ := hp
    exact ⟨J, shared_mono (fun r hp => ih r hp hf) shared, hJ⟩
  | fork child next _ ih => exact ih hp hf

/-- What each program keeps, all of them keep side by side, each with its outcome. -/
theorem keeps_allSettled {T : Type} {items : List T} {f : T → Prog S α} {t : Nat → Turns}
    {R : T → Except S.Err α → Prop} (each : ∀ x ∈ items, M.Keeps I (R x) (f x).settle) :
    M.Keeps I (List.Forall₂ R items) (Prog.allSettled (items.map f) t) := by
  induction items generalizing t with
  | nil => exact .nil
  | cons x items ih =>
    have rest := ih (t := fun n => t (n + 1)) fun y mem => each y (List.mem_cons_of_mem _ mem)
    exact keeps_bind (keeps_both (each x List.mem_cons_self) rest) fun r hr => .cons hr.1 hr.2

/-! ## `Promise.all` -/

/-- A slot keeps the invariant, and what it is fulfilled with satisfies `B`. -/
def SlotKeeps (M : Machine S W) (I : W → Prop) (B : β → Prop) : Slot S β → Prop
  | .todo op post => M.Stays I op fun o => ∀ b, post o.answer = .ok b → B b
  | .done b => B b

/-- The results of slots correspond to their items. -/
lemma forall₂_of_results {T : Type} {items : List T} {R : T → β → Prop} {slots : List (Slot S β)}
    {bs : List β} (each : List.Forall₂ (fun x s => M.SlotKeeps I (R x) s) items slots)
    (res : Slot.results slots = some bs) : List.Forall₂ R items bs := by
  induction each generalizing bs with
  | nil =>
    cases res
    exact .nil
  | @cons x slot items slots head _ ih =>
    cases slot with
    | todo op post => cases res
    | done b =>
      obtain ⟨bs, rest, rfl⟩ := Option.map_eq_some_iff.1 res
      exact .cons head (ih rest)

/-- The calls of a `Promise.all` keep what each of them keeps, each with its value. -/
theorem keeps_promiseAll {T : Type} {items : List T} {slot : T → Slot S β} {R : T → β → Prop}
    (each : ∀ x ∈ items, M.SlotKeeps I (R x) (slot x)) :
    M.Keeps I (List.Forall₂ R items) (.promiseAll (items.map slot)) := by
  refine ⟨List.Forall₂ (fun x s => M.SlotKeeps I (R x) s) items, ⟨?_, fun each res => ?_⟩, ?_⟩
  · intro xs op post ys each w o w' h inv reply ok
    have before := List.forall₂_take_append _ _ _ each
    obtain ⟨x, rest, head, after, eq⟩ :=
      List.forall₂_cons_right_iff.1 (List.forall₂_drop_append _ _ _ each)
    obtain ⟨inv, value⟩ := head w o w' h inv reply ok
    refine ⟨inv, fun b res => ?_, fun _ _ => trivial⟩
    have fulfilled : M.SlotKeeps I (R x) (.done b) := value b res
    have done := List.rel_append before (.cons fulfilled after)
    dsimp only at done
    rwa [← eq, List.take_append_drop] at done
  · exact forall₂_of_results each res
  · exact List.forall₂_map_right_iff.2 (List.forall₂_same.2 each)

/-- A program that keeps the invariant runs within it, adds to its history, and returns what satisfies
    `A`. -/
theorem wp_of_keeps {rely : Hist S → W → W → Prop} {p : Prog S α} {w h}
    (stable : ∀ h w w', rely h w w' → I w → I w') (inv : I w) (hp : M.Keeps I A p) :
    M.wp rely p (fun r w' h' => I w' ∧ h <+: h' ∧ ∀ a, r = .ok a → A a) w h := by
  induction p generalizing w h with
  | pure a => exact ⟨inv, List.prefix_rfl, fun _ eq => by cases eq; exact hp⟩
  | throw e => exact ⟨inv, List.prefix_rfl, nofun⟩
  | call op k ih =>
    intro w₁ o w₂ move reply ok
    obtain ⟨inv, rest⟩ := hp _ _ _ _ (stable _ _ _ move inv) reply ok
    exact wp_mono (fun _ _ _ post => ⟨post.1, (List.prefix_append _ _).trans post.2.1, post.2.2⟩)
      (ih _ inv rest)
  | all slots k ih =>
    obtain ⟨J, shared, hJ⟩ := hp
    refine ⟨fun slots w h' => J slots ∧ I w ∧ h <+: h', ⟨?_, ?_⟩, hJ, inv, List.prefix_rfl⟩
    · rintro xs op post ys w h' ⟨hJ, inv, pre⟩ w₁ o w₂ move reply ok
      obtain ⟨inv, next, error⟩ := shared.step hJ _ _ _ _ (stable _ _ _ move inv) reply ok
      have pre := pre.trans (List.prefix_append h' [⟨op, o⟩])
      refine ⟨fun b res => ⟨next b res, inv, pre⟩, fun e res => ?_⟩
      exact wp_mono (fun _ _ _ post => ⟨post.1, pre.trans post.2.1, post.2.2⟩)
        (ih _ inv (error e res))
    · rintro slots bs w h' ⟨hJ, inv, pre⟩ res
      exact wp_mono (fun _ _ _ post => ⟨post.1, pre.trans post.2.1, post.2.2⟩)
        (ih _ inv (shared.join hJ res))
  | fork child next _ ih => exact ih inv hp

end Machine

end AvaSettle.Async
