import AvaSettle.Async.Observed

/-!
# What a program yields

The logic of pools where no call holds anything: an invariant of the world, and what the world never
loses. A program yields `P` when, among any other calls, each of its operations keeps the invariant and
what it returns satisfies `P`. What it starts in the background, and what a rejected `Promise.all`
leaves in flight, keep the invariant too.
-/

namespace AvaSettle.Async

variable {S : Sig} {W : Type} {M : Machine S W} {α β : Type}

/-- An invariant of the world, and what the world never loses. -/
structure Upkeep (M : Machine S W) where
  /-- The invariant. -/
  inv : W → Prop
  /-- The later world has lost nothing. -/
  le : W → W → Prop
  /-- The order is reflexive. -/
  le_refl : ∀ w, le w w
  /-- The order is transitive. -/
  le_trans : ∀ {w₁ w₂ w₃}, le w₁ w₂ → le w₂ w₃ → le w₁ w₃
  /-- The world keeps the invariant by itself, and loses nothing. -/
  env : ∀ {w w'}, inv w → M.env w w' → inv w' ∧ le w w'

namespace Upkeep

/-- The upkeep as a proof about pools, in which no call holds anything. -/
def spec (u : Upkeep M) : Spec M ℕ where
  inv w _ := u.inv w
  le := u.le
  good _ := True
  good_nil := trivial
  le_refl := u.le_refl
  le_trans := u.le_trans
  env := u.env

/-- The operation keeps the invariant, loses nothing and answers within `P`. -/
def Tends (u : Upkeep M) (op : S.Op) (P : S.Res op → Prop) : Prop :=
  ∀ w b w', u.inv w → M.exec op w = some (b, w') → u.inv w' ∧ u.le w w' ∧ P b

/-- A result within `P`, or an error within `E`. -/
def Result {ε : Type} (P : α → Prop) (E : ε → Prop) : Except ε α → Prop
  | .ok a => P a
  | .error e => E e

/-- Whatever else happens, the program keeps the invariant and ends within `P`, or fails within `E`. -/
def Yields (u : Upkeep M) (p : Prog S α) (P : α → Prop) (E : S.Err → Prop) : Prop :=
  ∀ a w h, u.spec.wp p (fun r _ _ _ => Result P E r) a w h

variable {u : Upkeep M} {P P' : α → Prop} {Q : β → Prop} {E E' : S.Err → Prop}

/-! ## Operations -/

/-- The rule of one operation. -/
lemma op_of_tends {op : S.Op} {R : S.Res op → Prop} {K : Outcome S.Err (S.Res op) → Prop} {a w h}
    (tends : u.Tends op R) (done : ∀ o b, o.answer = .ok b → R b → K o)
    (error : ∀ o e, o.answer = .error e → M.raises op e = true → K o) :
    u.spec.op op (fun o a' _ _ => a' = a ∧ K o) a w h := by
  intro w₁ f o w₂ le inv reply ok
  refine ⟨trivial, a, ?_⟩
  cases o with
  | done b =>
    obtain ⟨inv, le, hb⟩ := tends _ _ _ inv reply
    exact ⟨inv, le, rfl, done _ b rfl hb⟩
  | refused e =>
    obtain ⟨raises, rfl⟩ := reply
    exact ⟨inv, u.le_refl _, rfl, error _ e rfl raises⟩
  | lost b e =>
    obtain ⟨inv, le, -⟩ := tends _ _ _ inv reply.1
    exact ⟨inv, le, rfl, error _ e rfl reply.2⟩

/-- An operation yields what it tends to. -/
lemma yields_await {op : S.Op} {R : S.Res op → Prop} (tends : u.Tends op R)
    (raises : ∀ e, M.raises op e = true → E e) : u.Yields (.await op) R E := fun a w h =>
  Spec.wp_await (Spec.op_mono (fun _ _ _ _ post => post.2) (op_of_tends tends
    (fun o b eq hb => by rw [eq]; exact hb) fun o e eq he => by rw [eq]; exact raises e he))

/-! ## Sequences -/

/-- A program yields what is weaker too. -/
lemma yields_mono {p : Prog S α} (hP : ∀ a, P a → P' a) (hE : ∀ e, E e → E' e)
    (hp : u.Yields p P E) : u.Yields p P' E' := fun a w h =>
  Spec.wp_mono (fun r _ _ _ post => by
    cases r with
    | ok b => exact hP b post
    | error e => exact hE e post) (hp a w h)

/-- A value is what is yielded. -/
lemma yields_pure {b : α} (hb : P b) : u.Yields (Pure.pure b) P E := fun _ _ _ => hb

/-- An exception is what is yielded. -/
lemma yields_throw {e : S.Err} (he : E e) : u.Yields (throw e : Prog S α) P E := fun _ _ _ => he

/-- A program and what follows it yield what the second does. -/
lemma yields_bind {p : Prog S α} {f : α → Prog S β} (hp : u.Yields p P E)
    (hf : ∀ a, P a → u.Yields (f a) Q E) : u.Yields (p >>= f) Q E := fun a w h =>
  Spec.wp_bind_of (hp a w h) (fun b a w h post => hf b post a w h) fun _ _ _ _ post => post

/-- A program and its handler yield what both do. -/
lemma yields_tryCatch {p : Prog S α} {f : S.Err → Prog S α} (hp : u.Yields p P E')
    (hf : ∀ e, E' e → u.Yields (f e) P E) : u.Yields (p.tryCatch f) P E := fun a w h =>
  Spec.wp_tryCatch_of (hp a w h) (fun _ _ _ _ post => post) fun e a w h post => hf e post a w h

/-- A computation yields its result. -/
lemma yields_ofExcept {x : Except S.Err α} (ok : ∀ b, x = .ok b → P b)
    (error : ∀ e, x = .error e → E e) : u.Yields (.ofExcept x) P E := by
  cases x with
  | ok b => exact yields_pure (ok b rfl)
  | error e => exact yields_throw (error e rfl)

/-- A value that may be missing is yielded, or the exception is. -/
lemma yields_orThrow {e : S.Err} {x : Option α} (some : ∀ b, x = some b → P b) (he : E e) :
    u.Yields (.orThrow e x) P E := by
  cases x with
  | none => exact yields_throw he
  | some b => exact yields_pure (some b rfl)

/-- A check yields nothing but its exception. -/
lemma yields_require {c : Prop} [Decidable c] {e : S.Err} (he : E e) :
    u.Yields (.require c e) (fun _ => True) E := fun _ _ _ =>
  Spec.wp_require (fun _ => trivial) fun _ => he

/-- A loop yields what its passes do. -/
lemma yields_forEach {f : α → Prog S Unit} {bs : List α}
    (each : ∀ b ∈ bs, u.Yields (f b) (fun _ => True) E) :
    u.Yields (.forEach f bs) (fun _ => True) E := by
  induction bs with
  | nil => exact yields_pure trivial
  | cons b bs ih =>
    exact yields_bind (each b List.mem_cons_self) fun _ _ =>
      ih fun b' mem => each b' (List.mem_cons_of_mem _ mem)

/-- Starting a program yields nothing. -/
lemma yields_spawn {child : Prog S Unit} (hc : u.Yields child (fun _ => True) fun _ => True) :
    u.Yields (.spawn child) (fun _ => True) E := fun a w _ =>
  ⟨a, 0, by simp [spec], trivial, Spec.wp_mono (fun _ _ _ _ _ => trivial) (hc 0 w [])⟩

/-- A program whose result is dropped yields nothing. -/
lemma yields_discard {p : Prog S α} (hp : u.Yields p P E) :
    u.Yields p.discard (fun _ => True) E :=
  yields_bind hp fun _ _ => yields_pure trivial

/-- A program whose operations are all tended. -/
lemma yields_of_uses {O : S.Op → Prop} (tends : ∀ op, O op → u.Tends op fun _ => True)
    (raises : ∀ op e, O op → M.raises op e = true → E e) {p : Prog S α} (uses : p.Uses O E) :
    u.Yields p (fun _ => True) E := by
  have op {o : S.Op} {a w h} (ho : O o) : u.spec.op o (fun _ _ _ _ => True) a w h :=
    Spec.op_mono (fun _ _ _ _ _ => trivial) (op_of_tends (K := fun _ => True) (tends o ho)
      (fun _ _ _ _ => trivial) fun _ _ _ _ => trivial)
  intro a w h
  refine Spec.wp_mono (fun r _ _ _ post => ?_) (Spec.wp_uses (R := fun _ _ _ => True) raises
    (fun o a w h ho _ => op ho) (fun o a w h ho _ => op ho) uses trivial)
  cases r with
  | ok b => trivial
  | error e => exact post.2 e rfl

/-! ## What the world has shown -/

/-- Whatever else happens once the world has shown `K`, the program keeps the invariant and ends within
    `P`, or fails within `E`. -/
def YieldsAfter (u : Upkeep M) (K : W → Prop) (p : Prog S α) (P : α → Prop) (E : S.Err → Prop) : Prop :=
  ∀ a w h, K w → u.spec.wp p (fun r _ _ _ => Result P E r) a w h

section
variable {K : W → Prop}

/-- What is yielded anyway is yielded after an event. -/
lemma yieldsAfter_of_yields {p : Prog S α} (hp : u.Yields p P E) : u.YieldsAfter K p P E :=
  fun a w h _ => hp a w h

/-- A program and what follows it yield after the event of the first. -/
lemma yieldsAfter_bind {p : Prog S α} {f : α → Prog S β} (hp : u.YieldsAfter K p P E)
    (hf : ∀ a, P a → u.Yields (f a) Q E) : u.YieldsAfter K (p >>= f) Q E := fun a w h shown =>
  Spec.wp_bind_of (hp a w h shown) (fun b a w h post => hf b post a w h) fun _ _ _ _ post => post

/-- An operation that rests on what the world has shown, and never loses. -/
lemma yieldsAfter_await {op : S.Op} (kept : ∀ {w w'}, u.le w w' → K w → K w')
    (tends : ∀ w b w', u.inv w → K w → M.exec op w = some (b, w') → u.inv w' ∧ u.le w w')
    (raises : ∀ e, M.raises op e = true → E e) :
    u.YieldsAfter K (.await op) (fun _ => True) E := by
  intro a w h shown
  refine Spec.wp_await fun w₁ f o w₂ le inv reply _ => ⟨trivial, a, ?_⟩
  have shown := kept le shown
  cases o with
  | done b =>
    obtain ⟨inv, le⟩ := tends _ _ _ inv shown reply
    exact ⟨inv, le, trivial⟩
  | refused e =>
    obtain ⟨refuses, rfl⟩ := reply
    exact ⟨inv, u.le_refl _, raises e refuses⟩
  | lost b e =>
    obtain ⟨inv, le⟩ := tends _ _ _ inv shown reply.1
    exact ⟨inv, le, raises e reply.2⟩

/-- An operation that rests on what the world has shown, and shows more. -/
lemma op_shown (op : S.Op) {R : Except S.Err (S.Res op) → W → Prop} {a w h}
    (kept : ∀ {w w'}, u.le w w' → K w → K w') (shown : K w)
    (done : ∀ w b w', u.inv w → K w → M.exec op w = some (b, w') →
      u.inv w' ∧ u.le w w' ∧ R (.ok b) w')
    (error : ∀ e w, K w → R (.error e) w) :
    u.spec.op op (fun o _ w _ => R o.answer w) a w h := by
  intro w₁ f o w₂ le inv reply _
  have shown := kept le shown
  refine ⟨trivial, a, ?_⟩
  cases o with
  | done b => exact done _ _ _ inv shown reply
  | refused e =>
    obtain ⟨-, rfl⟩ := reply
    exact ⟨inv, u.le_refl _, error e _ shown⟩
  | lost b e =>
    obtain ⟨inv, le, -⟩ := done _ _ _ inv shown reply.1
    exact ⟨inv, le, error e _ (kept le shown)⟩

/-- An operation that shows something of the world, and what follows it. -/
lemma yields_await_bind {op : S.Op} {f : S.Res op → Prog S β} {K : S.Res op → W → Prop}
    (tends : ∀ w b w', u.inv w → M.exec op w = some (b, w') → u.inv w' ∧ u.le w w' ∧ K b w')
    (raises : ∀ e, M.raises op e = true → E e) (hf : ∀ b, u.YieldsAfter (K b) (f b) Q E) :
    u.Yields (.await op >>= f) Q E := by
  intro a w h
  refine Spec.wp_bind_of (P := fun r _ w _ => Result (fun b => K b w) E r) ?_
    (fun b a w h shown => hf b a w h shown) fun _ _ _ _ post => post
  refine Spec.wp_await fun w₁ f o w₂ le inv reply _ => ⟨trivial, a, ?_⟩
  cases o with
  | done b => exact tends _ _ _ inv reply
  | refused e =>
    obtain ⟨refuses, rfl⟩ := reply
    exact ⟨inv, u.le_refl _, raises e refuses⟩
  | lost b e =>
    obtain ⟨inv, le, -⟩ := tends _ _ _ inv reply.1
    exact ⟨inv, le, raises e reply.2⟩

end

/-! ## `Promise.all` -/

/-- A slot is tended, and is fulfilled within `P` or rejected within `E`. -/
def SlotYields (u : Upkeep M) (P : β → Prop) (E : S.Err → Prop) : Slot S β → Prop
  | .todo op post => ∃ R, u.Tends op R ∧ (∀ b, R b → Result P E (post (.ok b))) ∧
      ∀ e, M.raises op e = true → Result P E (post (.error e))
  | .done b => P b

/-- The results of slots are what each slot yields. -/
lemma slotYields_results {slots : List (Slot S β)} {bs : List β}
    (each : ∀ s ∈ slots, u.SlotYields Q E s) (res : Slot.results slots = some bs) :
    ∀ b ∈ bs, Q b := by
  induction slots generalizing bs with
  | nil =>
    cases res
    simp
  | cons s slots ih =>
    cases s with
    | todo op post => cases res
    | done b =>
      obtain ⟨bs, rest, rfl⟩ := Option.map_eq_some_iff.1 res
      exact List.forall_mem_cons.2 ⟨each _ List.mem_cons_self,
        ih (fun s mem => each s (List.mem_cons_of_mem _ mem)) rest⟩

/-- What is in flight is tended, whatever becomes of it. -/
lemma detach_of_slotYields {slots : List (Slot S β)} {w h} (each : ∀ s ∈ slots, u.SlotYields Q E s) :
    u.spec.detach (Slot.pending slots) 0 w h := by
  induction slots with
  | nil => rfl
  | cons s slots ih =>
    have rest := ih fun s' mem => each s' (List.mem_cons_of_mem _ mem)
    cases s with
    | done b => exact rest
    | todo op post =>
      obtain ⟨R, tends, -⟩ := each _ List.mem_cons_self
      exact ⟨0, 0, rfl, Spec.op_mono (fun _ _ _ _ _ => trivial) (op_of_tends (K := fun _ => True) tends
        (fun _ _ _ _ => trivial) fun _ _ _ _ => trivial), rest⟩

/-- The slots of a `Promise.all` are tended one by one. -/
lemma yields_promiseAll {slots : List (Slot S β)} (each : ∀ s ∈ slots, u.SlotYields Q E s) :
    u.Yields (.promiseAll slots) (fun bs => ∀ b ∈ bs, Q b) E := by
  intro a w h
  refine Spec.wp_promiseAll (J := fun slots _ _ _ => ∀ s ∈ slots, u.SlotYields Q E s) ⟨?_, ?_⟩ each
  · intro xs op post ys a w h each
    obtain ⟨R, tends, ok, error⟩ := each (.todo op post) (by simp)
    have others : ∀ s ∈ xs ++ ys, u.SlotYields Q E s := fun s mem =>
      each s (by rcases List.mem_append.1 mem with mem | mem <;> simp [mem])
    have performed := op_of_tends (a := a) (w := w) (h := h) (K := fun o => Result Q E (post o.answer))
      tends (fun o b eq hb => by rw [eq]; exact ok b hb) fun o e eq he => by rw [eq]; exact error e he
    refine Spec.op_mono (fun o a' w h res => ⟨fun b eq s mem => ?_, fun e eq => ?_⟩) performed
    · rcases List.mem_append.1 mem with mem | mem
      · exact others s (List.mem_append_left _ mem)
      · rcases List.mem_cons.1 mem with rfl | mem
        · have value := res.2
          rw [eq] at value
          exact value
        · exact others s (List.mem_append_right _ mem)
    · have failed := res.2
      rw [eq] at failed
      exact ⟨a', 0, rfl, failed, detach_of_slotYields others⟩
  · exact fun each res => slotYields_results each res

/-! ## Soundness -/

/-- Every call that can be made keeps the invariant. -/
def Sound (u : Upkeep M) : Prop :=
  ∀ p, M.entry p → ∃ E, u.Yields p (fun _ => True) E

/-- What is kept up by every operation is an invariant of the pool. -/
lemma Sound.spec (sound : u.Sound) : u.spec.Sound := by
  intro p entry w
  obtain ⟨E, yields⟩ := sound p entry
  exact Spec.wp_mono (fun _ _ _ _ _ => trivial) (yields 0 w [])

/-- The invariant holds in every reachable state. -/
theorem inv_of_reachable {w : W} {s : Sys S W} (sound : u.Sound) (init : u.inv w)
    (reach : M.Reachable w s) : u.inv s.world := by
  obtain ⟨_, inv⟩ := Spec.inv_of_reachable sound.spec (show u.spec.inv w 0 from init) reach
  exact inv

/-- Nothing that has been reached is lost. -/
theorem le_of_steps {w : W} {s s' : Sys S W} (sound : u.Sound) (init : u.inv w)
    (reach : M.Reachable w s) (steps : M.Steps s s') : u.le s.world s'.world := by
  obtain ⟨⟨_, holds⟩, -⟩ := Spec.Holds.steps sound.spec
    (Spec.Holds.init (show u.spec.inv w 0 from init)) reach
  exact (holds.steps sound.spec steps).2

/-- A call that is made in a reachable state ends as it yields, and leaves the invariant. -/
theorem of_returns {p : Prog S α} {w : W} {s s' : Sys S W} {r} {h : Hist S} (sound : u.Sound)
    (init : u.inv w) (reach : M.Reachable w s) (run : M.Returns p s [] r s' h)
    (yields : u.Yields p P E) : u.inv s'.world ∧ Result P E r := by
  obtain ⟨⟨a, f, inv, result⟩, -⟩ := Spec.of_returns sound.spec (show u.spec.inv w 0 from init) reach run
    .refl (fun _ _ _ _ _ _ post => post) (yields 0 s.world [])
  exact ⟨inv, result⟩

end Upkeep

end AvaSettle.Async
