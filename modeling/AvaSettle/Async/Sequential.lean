import Mathlib.Data.List.Forall2
import AvaSettle.Async.Schedule

/-!
# One call

The runs of a single call, from its first operation to its result. Before each operation the rest of
the world may have moved, within a condition on what the call has done so far, and the operation may
have any outcome that the machine lets happen. A background program is left to the rest of the world,
and so is what a rejected `Promise.all` leaves in flight.

`Leads` is the weakest precondition over these runs, with one rule for each construct.
-/

namespace AvaSettle.Async

variable {S : Sig} {W : Type} {M : Machine S W} {rely : Hist S → W → W → Prop} {α β : Type}

/-- A run of a call, with its result, the world it leaves and its history. -/
inductive Machine.Runs (M : Machine S W) (rely : Hist S → W → W → Prop) {α : Type} :
    Prog S α → W → Hist S → Except S.Err α → W → Hist S → Prop where
  | pure {a w h} : Runs M rely (.pure a) w h (.ok a) w h
  | throw {e w h} : Runs M rely (.throw e) w h (.error e) w h
  | call {op k w w₁ w₂ w' h h' o r} (move : rely h w w₁) (reply : M.Reply op w₁ o w₂)
      (ok : M.allowed h w₁ ⟨op, o⟩) (rest : Runs M rely (k o.answer) w₂ (h ++ [⟨op, o⟩]) r w' h') :
      Runs M rely (.call op k) w h r w' h'
  | fulfil {β : Type} {op post w w₁ w₂ w' h h' o r b xs ys} {k : Except S.Err (List β) → Prog S α}
      (move : rely h w w₁) (reply : M.Reply op w₁ o w₂) (ok : M.allowed h w₁ ⟨op, o⟩)
      (res : post o.answer = .ok b)
      (rest : Runs M rely (.all (xs ++ .done b :: ys) k) w₂ (h ++ [⟨op, o⟩]) r w' h') :
      Runs M rely (.all (xs ++ .todo op post :: ys) k) w h r w' h'
  | reject {β : Type} {op post w w₁ w₂ w' h h' o r e xs ys} {k : Except S.Err (List β) → Prog S α}
      (move : rely h w w₁) (reply : M.Reply op w₁ o w₂) (ok : M.allowed h w₁ ⟨op, o⟩)
      (res : post o.answer = .error e)
      (rest : Runs M rely (k (.error e)) w₂ (h ++ [⟨op, o⟩]) r w' h') :
      Runs M rely (.all (xs ++ .todo op post :: ys) k) w h r w' h'
  | join {β : Type} {w w' h h' r bs slots} {k : Except S.Err (List β) → Prog S α}
      (res : Slot.results slots = some bs) (rest : Runs M rely (k (.ok bs)) w h r w' h') :
      Runs M rely (.all slots k) w h r w' h'
  | fork {child next w w' h h' r} (rest : Runs M rely next w h r w' h') :
      Runs M rely (.fork child next) w h r w' h'

/-- A run adds to its history. -/
lemma Machine.Runs.grows {p : Prog S α} {w w' h h' r} (run : M.Runs rely p w h r w' h') : h <+: h' := by
  induction run with
  | pure => exact List.prefix_rfl
  | throw => exact List.prefix_rfl
  | call _ _ _ _ ih => exact (List.prefix_append _ _).trans ih
  | fulfil _ _ _ _ _ ih => exact (List.prefix_append _ _).trans ih
  | reject _ _ _ _ _ ih => exact (List.prefix_append _ _).trans ih
  | join _ _ ih => exact ih
  | fork _ ih => exact ih

/-- A postcondition: of the result, the world and the history. -/
abbrev End (S : Sig) (W α : Type) := Except S.Err α → W → Hist S → Prop

namespace Machine

/-! ## Weakest preconditions -/

/-- Whatever becomes of the operation, `K` holds afterwards. -/
def Leads (M : Machine S W) (rely : Hist S → W → W → Prop) (op : S.Op)
    (K : Outcome S.Err (S.Res op) → W → Hist S → Prop) (w : W) (h : Hist S) : Prop :=
  ∀ w₁ o w₂, rely h w w₁ → M.Reply op w₁ o w₂ → M.allowed h w₁ ⟨op, o⟩ → K o w₂ (h ++ [⟨op, o⟩])

/-- `J` is kept by every call of a `Promise.all`, and gives `K` when it is over. -/
structure Kept (M : Machine S W) (rely : Hist S → W → W → Prop)
    (J : List (Slot S β) → W → Hist S → Prop) (K : End S W (List β)) : Prop where
  /-- One of the calls in flight is performed. -/
  step : ∀ {xs op post ys w h}, J (xs ++ .todo op post :: ys) w h →
    M.Leads rely op (fun o w h => (∀ b, post o.answer = .ok b → J (xs ++ .done b :: ys) w h) ∧
      ∀ e, post o.answer = .error e → K (.error e) w h) w h
  /-- All calls have been fulfilled. -/
  join : ∀ {slots bs w h}, J slots w h → Slot.results slots = some bs → K (.ok bs) w h

/-- The weakest precondition of a call. -/
def wp (M : Machine S W) (rely : Hist S → W → W → Prop) : Prog S α → End S W α → W → Hist S → Prop
  | .pure a, Q, w, h => Q (.ok a) w h
  | .throw e, Q, w, h => Q (.error e) w h
  | .call op k, Q, w, h => M.Leads rely op (fun o => M.wp rely (k o.answer) Q) w h
  | .all slots k, Q, w, h => ∃ J, M.Kept rely J (fun r => M.wp rely (k r) Q) ∧ J slots w h
  | .fork _ next, Q, w, h => M.wp rely next Q w h

/-- An operation leads to what is weaker too. -/
lemma leads_mono {op : S.Op} {K K' : Outcome S.Err (S.Res op) → W → Hist S → Prop} {w h}
    (hK : ∀ o w h, K o w h → K' o w h) (leads : M.Leads rely op K w h) : M.Leads rely op K' w h :=
  fun w₁ o w₂ move reply ok => hK _ _ _ (leads w₁ o w₂ move reply ok)

/-- An invariant of slots leads to what is weaker too. -/
lemma kept_mono {J : List (Slot S β) → W → Hist S → Prop} {K K' : End S W (List β)}
    (hK : ∀ r w h, K r w h → K' r w h) (kept : M.Kept rely J K) : M.Kept rely J K' where
  step hJ := leads_mono (fun _ _ _ post => ⟨post.1, fun e res => hK _ _ _ (post.2 e res)⟩)
    (kept.step hJ)
  join hJ res := hK _ _ _ (kept.join hJ res)

/-- The rule of consequence. -/
lemma wp_mono {p : Prog S α} {Q Q' : End S W α} {w h} (hQ : ∀ r w h, Q r w h → Q' r w h)
    (hp : M.wp rely p Q w h) : M.wp rely p Q' w h := by
  induction p generalizing w h with
  | pure a => exact hQ _ _ _ hp
  | throw e => exact hQ _ _ _ hp
  | call op k ih => exact leads_mono (fun o _ _ => ih o.answer hQ) hp
  | all slots k ih =>
    obtain ⟨J, kept, hJ⟩ := hp
    exact ⟨J, kept_mono (fun r _ _ => ih r hQ) kept, hJ⟩
  | fork child next _ ih => exact ih hQ hp

/-- The rule of sequencing. -/
theorem wp_bind {p : Prog S α} {f : α → Prog S β} {Q : End S W β} {w h}
    (hp : M.wp rely p (fun r w h => match r with
      | .ok a => M.wp rely (f a) Q w h
      | .error e => Q (.error e) w h) w h) : M.wp rely (p >>= f) Q w h := by
  change M.wp rely (p.bind f) Q w h
  induction p generalizing w h with
  | pure a => exact hp
  | throw e => exact hp
  | call op k ih => exact leads_mono (fun o _ _ => ih o.answer) hp
  | all slots k ih =>
    obtain ⟨J, kept, hJ⟩ := hp
    exact ⟨J, kept_mono (fun r _ _ => ih r) kept, hJ⟩
  | fork child next _ ih => exact ih hp

/-- The rule of `try`/`catch`. -/
theorem wp_tryCatch {p : Prog S α} {f : S.Err → Prog S α} {Q : End S W α} {w h}
    (hp : M.wp rely p (fun r w h => match r with
      | .ok a => Q (.ok a) w h
      | .error e => M.wp rely (f e) Q w h) w h) : M.wp rely (p.tryCatch f) Q w h := by
  induction p generalizing w h with
  | pure a => exact hp
  | throw e => exact hp
  | call op k ih => exact leads_mono (fun o _ _ => ih o.answer) hp
  | all slots k ih =>
    obtain ⟨J, kept, hJ⟩ := hp
    exact ⟨J, kept_mono (fun r _ _ => ih r) kept, hJ⟩
  | fork child next _ ih => exact ih hp

/-- A computed result meets what holds of it now. -/
lemma wp_ofExcept {x : Except S.Err α} {Q : End S W α} {w h} :
    M.wp rely (.ofExcept x) Q w h ↔ Q x w h := by
  cases x <;> rfl

/-- An operation meets what it leads to. -/
lemma wp_await {op : S.Op} {Q : End S W (S.Res op)} {w h}
    (leads : M.Leads rely op (fun o => Q o.answer) w h) : M.wp rely (.await op) Q w h :=
  leads_mono (fun _ _ _ post => wp_ofExcept.2 post) leads

/-- A check meets what holds where it passes and where it fails. -/
lemma wp_require {c : Prop} [Decidable c] {e : S.Err} {Q : End S W Unit} {w h}
    (pos : c → Q (.ok ()) w h) (neg : ¬c → Q (.error e) w h) :
    M.wp rely (.require c e) Q w h := by
  unfold Prog.require
  split
  case isTrue hc => exact pos hc
  case isFalse hc => exact neg hc

/-- A value that may be missing meets what holds of it, or of the exception. -/
lemma wp_orThrow {e : S.Err} {x : Option α} {Q : End S W α} {w h}
    (some : ∀ b, x = some b → Q (.ok b) w h) (none : x = none → Q (.error e) w h) :
    M.wp rely (.orThrow e x) Q w h := by
  cases x with
  | none => exact none rfl
  | some b => exact some b rfl

/-- Sequencing with a named postcondition of the first half. -/
theorem wp_bind_of {p : Prog S α} {f : α → Prog S β} {P : End S W α} {Q : End S W β} {w h}
    (hp : M.wp rely p P w h) (ok : ∀ b w h, P (.ok b) w h → M.wp rely (f b) Q w h)
    (error : ∀ e w h, P (.error e) w h → Q (.error e) w h) : M.wp rely (p >>= f) Q w h := by
  refine wp_bind (wp_mono (fun r w h post => ?_) hp)
  cases r with
  | ok b => exact ok b w h post
  | error e => exact error e w h post

/-- `try`/`catch` with a named postcondition of the body. -/
theorem wp_tryCatch_of {p : Prog S α} {f : S.Err → Prog S α} {P Q : End S W α} {w h}
    (hp : M.wp rely p P w h) (ok : ∀ b w h, P (.ok b) w h → Q (.ok b) w h)
    (error : ∀ e w h, P (.error e) w h → M.wp rely (f e) Q w h) :
    M.wp rely (p.tryCatch f) Q w h := by
  refine wp_tryCatch (wp_mono (fun r w h post => ?_) hp)
  cases r with
  | ok b => exact ok b w h post
  | error e => exact error e w h post

/-- The rule of a loop of awaits: an invariant kept by the body. -/
lemma wp_forEach {f : α → Prog S Unit} {Q : End S W Unit} {I : List α → W → Hist S → Prop}
    (body : ∀ b bs w h, I (b :: bs) w h → M.wp rely (f b) (fun r w h => match r with
      | .ok _ => I bs w h
      | .error e => Q (.error e) w h) w h)
    (last : ∀ w h, I [] w h → Q (.ok ()) w h) {bs : List α} {w h} (hI : I bs w h) :
    M.wp rely (.forEach f bs) Q w h := by
  induction bs generalizing w h with
  | nil => exact last _ _ hI
  | cons b bs ih =>
    refine wp_bind (wp_mono (fun r w h post => ?_) (body _ _ _ _ hI))
    cases r with
    | ok u => exact ih post
    | error e => exact post

/-- A program keeps an assertion that each of the operations it uses keeps. -/
theorem wp_uses {P : S.Op → Prop} {R : W → Hist S → Prop}
    (keep : ∀ o w h, P o → R w h → M.Leads rely o (fun _ => R) w h) {p : Prog S α}
    (uses : p.Uses P fun _ => True) {w h} (hR : R w h) : M.wp rely p (fun _ => R) w h := by
  induction p generalizing w h with
  | pure a => exact hR
  | throw e => exact hR
  | call op k ih =>
    refine leads_mono (fun o w h hR => ?_) (keep op w h uses.1 hR)
    cases o.answer with
    | ok b => exact ih _ (uses.2.1 b) hR
    | error e => exact ih _ (uses.2.2 e trivial) hR
  | all slots k ih =>
    refine ⟨fun slots w h => (∀ s ∈ slots, Prog.SlotUses P (fun _ => True) s) ∧ R w h, ⟨?_, ?_⟩,
      uses.1, hR⟩
    · rintro xs op post ys w h ⟨hP, hR⟩
      have slot := hP (.todo op post) (by simp)
      exact leads_mono (fun o w h hR => ⟨fun b _ => ⟨Prog.slotUses_fulfil hP, hR⟩,
        fun e _ => ih _ (uses.2.2 e trivial) hR⟩) (keep op w h slot.1 hR)
    · rintro slots bs w h ⟨-, hR⟩ -
      exact ih _ (uses.2.1 bs) hR
  | fork child next _ _ => exact uses.elim

/-! ### `Promise.all`, call by call -/

/-- Where one call of a `Promise.all` is: still to be performed, or fulfilled with a value. -/
def SlotAt {T : Type} (slot : T → Slot S β) (P : T → W → Prop) (R : T → β → W → Prop) (w : W)
    (x : T) (s : Slot S β) : Prop :=
  (s = slot x ∧ P x w) ∨ ∃ b, s = .done b ∧ R x b w

/-- The results of slots correspond to their items. -/
lemma values_of_results {T : Type} {items : List T} {slot : T → Slot S β} {P : T → W → Prop}
    {R : T → β → W → Prop} {w : W} {slots : List (Slot S β)} {bs : List β}
    (todo : ∀ x, ∃ op post, slot x = .todo op post)
    (each : List.Forall₂ (SlotAt slot P R w) items slots) (res : Slot.results slots = some bs) :
    List.Forall₂ (fun x b => R x b w) items bs := by
  induction each generalizing bs with
  | nil =>
    cases res
    exact .nil
  | @cons x s items slots head _ ih =>
    rcases head with ⟨rfl, -⟩ | ⟨b, rfl, holds⟩
    · obtain ⟨op, post, eq⟩ := todo x
      rw [eq] at res
      cases res
    · obtain ⟨bs, rest, rfl⟩ := Option.map_eq_some_iff.1 res
      exact .cons holds (ih rest)

/-- What holds of the slots is kept where it is kept of their items. -/
lemma slotsAt_mono {T : Type} {items : List T} {slot : T → Slot S β} {P : T → W → Prop}
    {R : T → β → W → Prop} {w w' : W} {slots : List (Slot S β)}
    (keep : ∀ y ∈ items, (P y w → P y w') ∧ ∀ b, R y b w → R y b w')
    (each : List.Forall₂ (SlotAt slot P R w) items slots) :
    List.Forall₂ (SlotAt slot P R w') items slots := by
  induction each with
  | nil => exact .nil
  | cons head _ ih =>
    obtain ⟨pre, post⟩ := keep _ List.mem_cons_self
    refine .cons ?_ (ih fun y mem => keep y (List.mem_cons_of_mem _ mem))
    rcases head with ⟨eq, holds⟩ | ⟨b, eq, holds⟩
    · exact .inl ⟨eq, pre holds⟩
    · exact .inr ⟨b, eq, post b holds⟩

/-- The rule of a `Promise.all` over distinct items: what one call needs and what it leaves is kept by
    all others, `G` by all of them. -/
theorem wp_promiseAll_each {T : Type} {items : List T} {slot : T → Slot S β} {P : T → W → Prop}
    {R : T → β → W → Prop} {G : W → Prop} {Q : End S W (List β)} {w h}
    (todo : ∀ x, ∃ op post, slot x = .todo op post) (nodup : items.Nodup)
    (step : ∀ x ∈ items, ∀ op post, slot x = .todo op post → ∀ w h, P x w → G w →
      M.Leads rely op (fun o w' h' =>
        (∀ b, post o.answer = .ok b → R x b w' ∧ G w' ∧ ∀ y ∈ items, y ≠ x →
          (P y w → P y w') ∧ ∀ b, R y b w → R y b w') ∧
        ∀ e, post o.answer = .error e → Q (.error e) w' h') w h)
    (join : ∀ bs w h, List.Forall₂ (fun x b => R x b w) items bs → G w → Q (.ok bs) w h)
    (pre : ∀ x ∈ items, P x w) (hG : G w) : M.wp rely (.promiseAll (items.map slot)) Q w h := by
  refine ⟨fun slots w _ => List.Forall₂ (SlotAt slot P R w) items slots ∧ G w, ⟨?_, ?_⟩, ?_, hG⟩
  · rintro xs op post ys w h ⟨each, hG⟩
    have before := List.forall₂_take_append _ _ _ each
    obtain ⟨x, rest, head, after, eq⟩ :=
      List.forall₂_cons_right_iff.1 (List.forall₂_drop_append _ _ _ each)
    have split := List.take_append_drop xs.length items
    rw [eq] at split
    have mem : x ∈ items := split ▸ by simp
    have distinct : (items.take xs.length ++ x :: rest).Nodup := by rwa [split]
    have apart := (List.nodup_cons.1 (List.perm_middle.nodup_iff.1 distinct)).1
    rcases head with ⟨slotx, holds⟩ | ⟨b, eq', -⟩
    case inr => cases eq'
    refine leads_mono (fun o w' h' post => ⟨fun b res => ?_, fun e res => ?_⟩)
      (step x mem op post slotx.symm w h holds hG)
    · obtain ⟨value, hG, others⟩ := post.1 b res
      have keep : ∀ y ∈ items.take xs.length ++ rest, (P y w → P y w') ∧ ∀ b, R y b w → R y b w' :=
        fun y hy => others y (split ▸ by
          rcases List.mem_append.1 hy with hy | hy <;> simp [hy]) fun eq => apart (eq ▸ hy)
      have before := slotsAt_mono (fun y hy => keep y (List.mem_append_left _ hy)) before
      have after := slotsAt_mono (fun y hy => keep y (List.mem_append_right _ hy)) after
      have done := List.rel_append before (.cons (.inr ⟨b, rfl, value⟩) after)
      dsimp only at done
      exact ⟨split ▸ done, hG⟩
    · exact wp_ofExcept.2 (post.2 e res)
  · rintro slots bs w h ⟨each, hG⟩ res
    exact wp_ofExcept.2 (join bs w h (values_of_results todo each res) hG)
  · exact List.forall₂_map_right_iff.2 (List.forall₂_same.2 fun x mem => .inl ⟨rfl, pre x mem⟩)

/-- Every run of a call meets its weakest precondition. -/
theorem wp_sound {p : Prog S α} {Q : End S W α} {w w' h h' r} (run : M.Runs rely p w h r w' h')
    (hp : M.wp rely p Q w h) : Q r w' h' := by
  induction run with
  | pure => exact hp
  | throw => exact hp
  | call move reply ok _ ih => exact ih (hp _ _ _ move reply ok)
  | fulfil move reply ok res _ ih =>
    obtain ⟨J, kept, hJ⟩ := hp
    exact ih ⟨J, kept, (kept.step hJ _ _ _ move reply ok).1 _ res⟩
  | reject move reply ok res _ ih =>
    obtain ⟨J, kept, hJ⟩ := hp
    exact ih ((kept.step hJ _ _ _ move reply ok).2 _ res)
  | join res _ ih =>
    obtain ⟨J, kept, hJ⟩ := hp
    exact ih (kept.join hJ res)
  | fork _ ih => exact ih hp

/-- The weakest precondition speaks about nothing but the runs. -/
theorem wp_of_runs {p : Prog S α} {Q : End S W α} {w h}
    (post : ∀ r w' h', M.Runs rely p w h r w' h' → Q r w' h') : M.wp rely p Q w h := by
  induction p generalizing w h with
  | pure a => exact post _ _ _ .pure
  | throw e => exact post _ _ _ .throw
  | call op k ih =>
    exact fun w₁ o w₂ move reply ok => ih _ fun r w' h' run => post _ _ _ (.call move reply ok run)
  | all slots k ih =>
    refine ⟨fun slots w h => ∀ r w' h', M.Runs rely (.all slots k) w h r w' h' → Q r w' h',
      ⟨?_, ?_⟩, post⟩
    · intro xs op slot ys w h post w₁ o w₂ move reply ok
      exact ⟨fun b res r w' h' run => post _ _ _ (.fulfil move reply ok res run),
        fun e res => ih _ fun r w' h' run => post _ _ _ (.reject move reply ok res run)⟩
    · exact fun post res => ih _ fun r w' h' run => post _ _ _ (.join res run)
  | fork child next _ ih => exact ih fun r w' h' run => post _ _ _ (.fork run)

/-- Two postconditions are met together. -/
lemma wp_and {p : Prog S α} {Q Q' : End S W α} {w h} (hp : M.wp rely p Q w h)
    (hp' : M.wp rely p Q' w h) : M.wp rely p (fun r w h => Q r w h ∧ Q' r w h) w h :=
  wp_of_runs fun _ _ _ run => ⟨wp_sound run hp, wp_sound run hp'⟩

/-- A run of a sequence is a run of its first half that fails, or one that is followed by a run of the
    second half. -/
theorem runs_bind {p : Prog S α} {f : α → Prog S β} {w w' h h' r}
    (run : M.Runs rely (p >>= f) w h r w' h') :
    (∃ e, r = .error e ∧ M.Runs rely p w h (.error e) w' h') ∨
      ∃ a w₁ h₁, M.Runs rely p w h (.ok a) w₁ h₁ ∧ M.Runs rely (f a) w₁ h₁ r w' h' := by
  refine wp_sound (Q := fun r w' h' => (∃ e, r = .error e ∧ M.Runs rely p w h (.error e) w' h') ∨
    ∃ a w₁ h₁, M.Runs rely p w h (.ok a) w₁ h₁ ∧ M.Runs rely (f a) w₁ h₁ r w' h') run
    (wp_bind (wp_of_runs fun r w₁ h₁ first => ?_))
  cases r with
  | ok a => exact wp_of_runs fun r w' h' second => .inr ⟨a, w₁, h₁, first, second⟩
  | error e => exact .inl ⟨e, rfl, first⟩

/-! ## Evaluation -/

/-- Perform the calls of a `Promise.all` in their order, with the fates chosen for them, where the
    values of those before are known. -/
def playSlots (M : Machine S W) (ok : Hist S → W → Event S → Bool) : List (Fate S.Err) → List β →
    List (Slot S β) → W → Hist S → Option (List (Fate S.Err) × Except S.Err (List β) × W × Hist S)
  | fates, bs, [], w, h => some (fates, .ok bs, w, h)
  | fates, bs, .done b :: slots, w, h => M.playSlots ok fates (bs ++ [b]) slots w h
  | [], _, .todo _ _ :: _, _, _ => none
  | fate :: fates, bs, .todo op post :: slots, w, h =>
    (M.checked ok op w h fate).bind fun r =>
      match post r.1.answer with
      | .ok b => M.playSlots ok fates (bs ++ [b]) slots r.2 (h ++ [⟨op, r.1⟩])
      | .error e => some (fates, .error e, r.2, h ++ [⟨op, r.1⟩])

/-- Run a call while nothing else happens, with the fates chosen for its operations. -/
def play (M : Machine S W) (ok : Hist S → W → Event S → Bool) : Prog S α → List (Fate S.Err) →
    W → Hist S → Option (Except S.Err α × W × Hist S)
  | .pure a, _, w, h => some (.ok a, w, h)
  | .throw e, _, w, h => some (.error e, w, h)
  | .call _ _, [], _, _ => none
  | .call op k, fate :: fates, w, h =>
    (M.checked ok op w h fate).bind fun r =>
      M.play ok (k r.1.answer) fates r.2 (h ++ [⟨op, r.1⟩])
  | .all slots k, fates, w, h =>
    (M.playSlots ok fates [] slots w h).bind fun r => M.play ok (k r.2.1) r.1 r.2.2.1 r.2.2.2
  | .fork _ next, fates, w, h => M.play ok next fates w h

section
variable {ok : Hist S → W → Event S → Bool}

/-- Slots that are done have their results. -/
lemma results_done {bs : List β} : Slot.results (bs.map (.done : β → Slot S β)) = some bs := by
  induction bs with
  | nil => rfl
  | cons b bs ih => simp [Slot.results, ih]

/-- Operations that are played side by side are a run. -/
lemma runs_of_playSlots {k : Except S.Err (List β) → Prog S α} {fates : List (Fate S.Err)}
    {slots : List (Slot S β)} {bs : List β} {w w' h h' r q}
    (allowed : ∀ h w e, ok h w e = true → M.allowed h w e) (refl : ∀ h w, rely h w w)
    (res : M.playSlots ok fates bs slots w h = some q)
    (rest : M.Runs rely (k q.2.1) q.2.2.1 q.2.2.2 r w' h') :
    M.Runs rely (.all (bs.map .done ++ slots) k) w h r w' h' := by
  induction slots generalizing fates bs w h with
  | nil =>
    cases res
    rw [List.append_nil]
    exact .join results_done rest
  | cons slot slots ih =>
    have shift {b : β} : bs.map .done ++ .done b :: slots = (bs ++ [b]).map .done ++ slots := by
      simp
    cases slot with
    | done b =>
      rw [shift]
      exact ih res
    | todo op post =>
      cases fates with
      | nil => cases res
      | cons fate fates =>
        obtain ⟨⟨o, w₁⟩, checked, res⟩ := Option.bind_eq_some_iff.1 res
        obtain ⟨reply, holds⟩ := reply_of_checked allowed checked
        cases answer : post o.answer with
        | ok b =>
          simp only [answer] at res
          exact .fulfil (refl h w) reply holds answer (shift ▸ ih res)
        | error e =>
          simp only [answer] at res
          cases res
          exact .reject (refl h w) reply holds answer rest

/-- What a call is evaluated to is one of its runs. -/
theorem runs_of_play {p : Prog S α} {fates : List (Fate S.Err)} {w w' h h' r}
    (allowed : ∀ h w e, ok h w e = true → M.allowed h w e) (refl : ∀ h w, rely h w w)
    (res : M.play ok p fates w h = some (r, w', h')) : M.Runs rely p w h r w' h' := by
  induction p generalizing fates w h with
  | pure a =>
    cases res
    exact .pure
  | throw e =>
    cases res
    exact .throw
  | call op k ih =>
    cases fates with
    | nil => cases res
    | cons fate fates =>
      obtain ⟨q, checked, res⟩ := Option.bind_eq_some_iff.1 res
      obtain ⟨reply, holds⟩ := reply_of_checked allowed checked
      exact .call (refl h w) reply holds (ih _ res)
  | all slots k ih =>
    obtain ⟨q, played, res⟩ := Option.bind_eq_some_iff.1 res
    have run := runs_of_playSlots allowed refl played (ih _ res)
    rwa [List.map_nil, List.nil_append] at run
  | fork child next _ ih => exact .fork (ih res)

end

end Machine

end AvaSettle.Async
