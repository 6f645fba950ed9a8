import AvaSettle.Async.Sequential

/-!
# Calls until they are complete

The runs of a single call until nothing of it is in flight any more. What a rejected `Promise.all` has
started goes on beside the rest of the call and after its result, and each of its operations may come at
any time. Everything that the call performs is in one history, in the order in which it is performed.

`cwp` is the weakest precondition over these runs. Its assertions are about what is in flight too.
-/

namespace AvaSettle.Async

variable {S : Sig} {W : Type} {M : Machine S W} {rely : Hist S → W → W → Prop} {α β : Type}

/-- A run of a call, `ops` being in flight when it begins, until nothing is in flight. -/
inductive Machine.Completes (M : Machine S W) (rely : Hist S → W → W → Prop) {α : Type} :
    Prog S α → List S.Op → W → Hist S → Except S.Err α → W → Hist S → Prop where
  | pure {a w h} : Completes M rely (.pure a) [] w h (.ok a) w h
  | throw {e w h} : Completes M rely (.throw e) [] w h (.error e) w h
  | left {p op xs ys w w₁ w₂ w' h h' o r} (move : rely h w w₁) (reply : M.Reply op w₁ o w₂)
      (ok : M.allowed h w₁ ⟨op, o⟩)
      (rest : Completes M rely p (xs ++ ys) w₂ (h ++ [⟨op, o⟩]) r w' h') :
      Completes M rely p (xs ++ op :: ys) w h r w' h'
  | call {op k ops w w₁ w₂ w' h h' o r} (move : rely h w w₁) (reply : M.Reply op w₁ o w₂)
      (ok : M.allowed h w₁ ⟨op, o⟩)
      (rest : Completes M rely (k o.answer) ops w₂ (h ++ [⟨op, o⟩]) r w' h') :
      Completes M rely (.call op k) ops w h r w' h'
  | fulfil {β : Type} {op post ops w w₁ w₂ w' h h' o r b xs ys} {k : Except S.Err (List β) → Prog S α}
      (move : rely h w w₁) (reply : M.Reply op w₁ o w₂) (ok : M.allowed h w₁ ⟨op, o⟩)
      (res : post o.answer = .ok b)
      (rest : Completes M rely (.all (xs ++ .done b :: ys) k) ops w₂ (h ++ [⟨op, o⟩]) r w' h') :
      Completes M rely (.all (xs ++ .todo op post :: ys) k) ops w h r w' h'
  | reject {β : Type} {op post ops w w₁ w₂ w' h h' o r e xs ys} {k : Except S.Err (List β) → Prog S α}
      (move : rely h w w₁) (reply : M.Reply op w₁ o w₂) (ok : M.allowed h w₁ ⟨op, o⟩)
      (res : post o.answer = .error e)
      (rest : Completes M rely (k (.error e)) (ops ++ Slot.pending (xs ++ ys)) w₂ (h ++ [⟨op, o⟩])
        r w' h') :
      Completes M rely (.all (xs ++ .todo op post :: ys) k) ops w h r w' h'
  | join {β : Type} {ops w w' h h' r bs slots} {k : Except S.Err (List β) → Prog S α}
      (res : Slot.results slots = some bs) (rest : Completes M rely (k (.ok bs)) ops w h r w' h') :
      Completes M rely (.all slots k) ops w h r w' h'
  | fork {child next ops w w' h h' r} (rest : Completes M rely next ops w h r w' h') :
      Completes M rely (.fork child next) ops w h r w' h'

/-- An assertion about a call that has operations in flight. -/
abbrev Midway (S : Sig) (W : Type) := List S.Op → W → Hist S → Prop

/-- A postcondition that is about what is in flight too. -/
abbrev Ending (S : Sig) (W α : Type) := Except S.Err α → Midway S W

namespace Machine

/-! ## Weakest preconditions -/

/-- The assertion outlasts every operation that is in flight. -/
def Outlasts (M : Machine S W) (rely : Hist S → W → W → Prop) (R : Midway S W) : Prop :=
  ∀ {xs op ys w h}, R (xs ++ op :: ys) w h → M.Leads rely op (fun _ => R (xs ++ ys)) w h

/-- `J` outlasts what is in flight, is kept by every call of a `Promise.all`, and gives `K` when it is
    over. A rejection leaves the other calls in flight. -/
structure Carried (M : Machine S W) (rely : Hist S → W → W → Prop)
    (J : List (Slot S β) → Midway S W) (K : Ending S W (List β)) : Prop where
  /-- Something that is in flight is performed. -/
  left : ∀ slots, M.Outlasts rely (J slots)
  /-- One of the calls is performed. -/
  step : ∀ {xs op post ys ops w h}, J (xs ++ .todo op post :: ys) ops w h →
    M.Leads rely op (fun o w h => (∀ b, post o.answer = .ok b → J (xs ++ .done b :: ys) ops w h) ∧
      ∀ e, post o.answer = .error e → K (.error e) (ops ++ Slot.pending (xs ++ ys)) w h) w h
  /-- All calls have been fulfilled. -/
  join : ∀ {slots bs ops w h}, J slots ops w h → Slot.results slots = some bs → K (.ok bs) ops w h

/-- The weakest precondition of a call that is completed. -/
def cwp (M : Machine S W) (rely : Hist S → W → W → Prop) : Prog S α → Ending S W α → Midway S W
  | .pure a, Q, ops, w, h => Q (.ok a) ops w h
  | .throw e, Q, ops, w, h => Q (.error e) ops w h
  | .call op k, Q, ops, w, h => ∃ R : Midway S W, M.Outlasts rely R ∧ R ops w h ∧
      ∀ ops w h, R ops w h → M.Leads rely op (fun o => M.cwp rely (k o.answer) Q ops) w h
  | .all slots k, Q, ops, w, h =>
    ∃ J, M.Carried rely J (fun r => M.cwp rely (k r) Q) ∧ J slots ops w h
  | .fork _ next, Q, ops, w, h => M.cwp rely next Q ops w h

/-- Slots lead to what is weaker too. -/
lemma carried_mono {J : List (Slot S β) → Midway S W} {K K' : Ending S W (List β)}
    (hK : ∀ r ops w h, K r ops w h → K' r ops w h) (carried : M.Carried rely J K) :
    M.Carried rely J K' where
  left := carried.left
  step hJ := leads_mono (fun _ _ _ post => ⟨post.1, fun e res => hK _ _ _ _ (post.2 e res)⟩)
    (carried.step hJ)
  join hJ res := hK _ _ _ _ (carried.join hJ res)

/-- The rule of consequence. -/
lemma cwp_mono {p : Prog S α} {Q Q' : Ending S W α} {ops w h}
    (hQ : ∀ r ops w h, Q r ops w h → Q' r ops w h) (hp : M.cwp rely p Q ops w h) :
    M.cwp rely p Q' ops w h := by
  induction p generalizing ops w h with
  | pure a => exact hQ _ _ _ _ hp
  | throw e => exact hQ _ _ _ _ hp
  | call op k ih =>
    obtain ⟨R, outlasts, hR, next⟩ := hp
    exact ⟨R, outlasts, hR,
      fun ops w h hR => leads_mono (fun o _ _ => ih o.answer hQ) (next ops w h hR)⟩
  | all slots k ih =>
    obtain ⟨J, carried, hJ⟩ := hp
    exact ⟨J, carried_mono (fun r _ _ _ => ih r hQ) carried, hJ⟩
  | fork child next _ ih => exact ih hQ hp

/-- The rule of sequencing, with a named postcondition of the first half. -/
theorem cwp_bind {p : Prog S α} {f : α → Prog S β} {P : Ending S W α} {Q : Ending S W β} {ops w h}
    (hp : M.cwp rely p P ops w h)
    (ok : ∀ a ops w h, P (.ok a) ops w h → M.cwp rely (f a) Q ops w h)
    (error : ∀ e ops w h, P (.error e) ops w h → Q (.error e) ops w h) :
    M.cwp rely (p >>= f) Q ops w h := by
  change M.cwp rely (p.bind f) Q ops w h
  induction p generalizing ops w h with
  | pure a => exact ok a _ _ _ hp
  | throw e => exact error e _ _ _ hp
  | call op k ih =>
    obtain ⟨R, outlasts, hR, next⟩ := hp
    exact ⟨R, outlasts, hR, fun ops w h hR =>
      leads_mono (fun o _ _ hp => ih o.answer hp ok error) (next ops w h hR)⟩
  | all slots k ih =>
    obtain ⟨J, carried, hJ⟩ := hp
    exact ⟨J, carried_mono (fun r _ _ _ hp => ih r hp ok error) carried, hJ⟩
  | fork child next _ ih => exact ih hp ok error

/-- The rule of `try`/`catch`, with a named postcondition of the body. -/
theorem cwp_tryCatch {p : Prog S α} {f : S.Err → Prog S α} {P Q : Ending S W α} {ops w h}
    (hp : M.cwp rely p P ops w h) (ok : ∀ a ops w h, P (.ok a) ops w h → Q (.ok a) ops w h)
    (error : ∀ e ops w h, P (.error e) ops w h → M.cwp rely (f e) Q ops w h) :
    M.cwp rely (p.tryCatch f) Q ops w h := by
  induction p generalizing ops w h with
  | pure a => exact ok a _ _ _ hp
  | throw e => exact error e _ _ _ hp
  | call op k ih =>
    obtain ⟨R, outlasts, hR, next⟩ := hp
    exact ⟨R, outlasts, hR, fun ops w h hR =>
      leads_mono (fun o _ _ hp => ih o.answer hp ok error) (next ops w h hR)⟩
  | all slots k ih =>
    obtain ⟨J, carried, hJ⟩ := hp
    exact ⟨J, carried_mono (fun r _ _ _ hp => ih r hp ok error) carried, hJ⟩
  | fork child next _ ih => exact ih hp ok error

/-- A computed result meets what holds of it now. -/
lemma cwp_ofExcept {x : Except S.Err α} {Q : Ending S W α} {ops w h} :
    M.cwp rely (.ofExcept x) Q ops w h ↔ Q x ops w h := by
  cases x <;> rfl

/-- An operation meets what it leads to from an assertion that outlasts what is in flight. -/
lemma cwp_await {op : S.Op} {Q : Ending S W (S.Res op)} {R : Midway S W} {ops w h}
    (outlasts : M.Outlasts rely R) (hR : R ops w h)
    (leads : ∀ ops w h, R ops w h → M.Leads rely op (fun o => Q o.answer ops) w h) :
    M.cwp rely (.await op) Q ops w h :=
  ⟨R, outlasts, hR,
    fun ops w h hR => leads_mono (fun _ _ _ post => cwp_ofExcept.2 post) (leads ops w h hR)⟩

/-- A check meets what holds where it passes and where it fails. -/
lemma cwp_require {c : Prop} [Decidable c] {e : S.Err} {Q : Ending S W Unit} {ops w h}
    (pos : c → Q (.ok ()) ops w h) (neg : ¬c → Q (.error e) ops w h) :
    M.cwp rely (.require c e) Q ops w h := by
  unfold Prog.require
  split
  case isTrue hc => exact pos hc
  case isFalse hc => exact neg hc

/-- The rule of `Promise.all`. -/
lemma cwp_promiseAll {slots : List (Slot S β)} {J : List (Slot S β) → Midway S W}
    {Q : Ending S W (List β)} {ops w h} (carried : M.Carried rely J Q) (hJ : J slots ops w h) :
    M.cwp rely (.promiseAll slots) Q ops w h :=
  ⟨J, carried_mono (fun _ _ _ _ post => cwp_ofExcept.2 post) carried, hJ⟩

/-- The rule of a loop of awaits: an invariant kept by the body. -/
lemma cwp_forEach {f : α → Prog S Unit} {Q : Ending S W Unit} {I : List α → Midway S W}
    (body : ∀ b bs ops w h, I (b :: bs) ops w h → M.cwp rely (f b) (fun r => match r with
      | .ok _ => I bs
      | .error e => Q (.error e)) ops w h)
    (last : ∀ ops w h, I [] ops w h → Q (.ok ()) ops w h) {bs : List α} {ops w h}
    (hI : I bs ops w h) : M.cwp rely (.forEach f bs) Q ops w h := by
  induction bs generalizing ops w h with
  | nil => exact last _ _ _ hI
  | cons b bs ih =>
    exact cwp_bind (body _ _ _ _ _ hI) (fun _ _ _ _ hI => ih hI) fun _ _ _ _ post => post

/-- An operation keeps an assertion that holds with the operation in flight. -/
lemma leads_of_outlasts {R : Midway S W} {op : S.Op} {ops w h} (outlasts : M.Outlasts rely R)
    (inFlight : R (ops ++ [op]) w h) : M.Leads rely op (fun _ => R ops) w h := by
  have kept : M.Leads rely op (fun _ => R (ops ++ [])) w h := outlasts inFlight
  rwa [List.append_nil] at kept

/-- A program keeps an assertion that outlasts what is in flight, and to which it does not matter that
    more of the operations which the program uses are in flight. -/
theorem cwp_uses {P : S.Op → Prop} {R : Midway S W} (outlasts : M.Outlasts rely R)
    (more : ∀ ops ops' w h, (∀ op ∈ ops', P op) → R ops w h → R (ops ++ ops') w h)
    {p : Prog S α} (uses : p.Uses P fun _ => True) {ops w h} (hR : R ops w h) :
    M.cwp rely p (fun _ => R) ops w h := by
  have keep {op ops w h} (used : P op) (hR : R ops w h) : M.Leads rely op (fun _ => R ops) w h :=
    leads_of_outlasts outlasts (more ops [op] w h (fun op' mem => List.mem_singleton.1 mem ▸ used) hR)
  induction p generalizing ops w h with
  | pure a => exact hR
  | throw e => exact hR
  | call op k ih =>
    refine ⟨R, outlasts, hR,
      fun ops w h hR => leads_mono (fun o w h hR => ?_) (keep uses.1 hR)⟩
    cases o.answer with
    | ok b => exact ih _ (uses.2.1 b) hR
    | error e => exact ih _ (uses.2.2 e trivial) hR
  | all slots k ih =>
    refine ⟨fun slots ops w h => (∀ s ∈ slots, Prog.SlotUses P (fun _ => True) s) ∧ R ops w h,
      ⟨?_, ?_, ?_⟩, uses.1, hR⟩
    · intro slots xs op ys w h both
      exact leads_mono (fun _ _ _ hR => ⟨both.1, hR⟩) (outlasts both.2)
    · intro xs op post ys ops w h both
      have others : ∀ op' ∈ Slot.pending (xs ++ ys), P op' := by
        intro op' mem
        obtain ⟨s, mem, eq⟩ := List.mem_filterMap.1 mem
        have used := both.1 s (by
          rcases List.mem_append.1 mem with mem | mem
          · exact List.mem_append_left _ mem
          · exact List.mem_append_right _ (List.mem_cons_of_mem _ mem))
        cases s with
        | todo op'' post' =>
          cases eq
          exact used.1
        | done b => cases eq
      exact leads_mono (fun o w h hR => ⟨fun b _ => ⟨Prog.slotUses_fulfil both.1, hR⟩,
        fun e _ => ih _ (uses.2.2 e trivial) (more _ _ _ _ others hR)⟩)
        (keep (both.1 (.todo op post) (by simp)).1 both.2)
    · intro slots bs ops w h both _
      exact ih _ (uses.2.1 bs) both.2
  | fork child next _ _ => exact uses.elim

/-- Where the postcondition outlasts what is in flight, so does the weakest precondition. -/
lemma outlasts_cwp {p : Prog S α} {Q : Ending S W α} (hQ : ∀ r, M.Outlasts rely (Q r)) :
    M.Outlasts rely (M.cwp rely p Q) := by
  intro xs op ys w h hp
  induction p generalizing w h with
  | pure a => exact hQ _ hp
  | throw e => exact hQ _ hp
  | call op' k _ =>
    obtain ⟨R, outlasts, hR, next⟩ := hp
    exact leads_mono (fun _ _ _ hR => ⟨R, outlasts, hR, next⟩) (outlasts hR)
  | all slots k _ =>
    obtain ⟨J, carried, hJ⟩ := hp
    exact leads_mono (fun _ _ _ hJ => ⟨J, carried, hJ⟩) (carried.left slots hJ)
  | fork child next _ ih => exact ih hQ hp

/-- Every run of a call that is completed meets its weakest precondition. -/
theorem cwp_sound {p : Prog S α} {Q : Ending S W α} {ops w w' h h' r}
    (run : M.Completes rely p ops w h r w' h') (hQ : ∀ r, M.Outlasts rely (Q r))
    (hp : M.cwp rely p Q ops w h) : Q r [] w' h' := by
  induction run with
  | pure => exact hp
  | throw => exact hp
  | left move reply ok _ ih => exact ih (outlasts_cwp hQ hp _ _ _ move reply ok)
  | call move reply ok _ ih =>
    obtain ⟨R, -, hR, next⟩ := hp
    exact ih (next _ _ _ hR _ _ _ move reply ok)
  | fulfil move reply ok res _ ih =>
    obtain ⟨J, carried, hJ⟩ := hp
    exact ih ⟨J, carried, (carried.step hJ _ _ _ move reply ok).1 _ res⟩
  | reject move reply ok res _ ih =>
    obtain ⟨J, carried, hJ⟩ := hp
    exact ih ((carried.step hJ _ _ _ move reply ok).2 _ res)
  | join res _ ih =>
    obtain ⟨J, carried, hJ⟩ := hp
    exact ih (carried.join hJ res)
  | fork _ ih => exact ih hp

/-! ## Evaluation -/

/-- Perform what is in flight, in its order, with the fates chosen for it. -/
def playLeft (M : Machine S W) (ok : Hist S → W → Event S → Bool) : List S.Op → List (Fate S.Err) →
    W → Hist S → Option (W × Hist S)
  | [], _, w, h => some (w, h)
  | _ :: _, [], _, _ => none
  | op :: ops, fate :: fates, w, h =>
    (M.checked ok op w h fate).bind fun r => M.playLeft ok ops fates r.2 (h ++ [⟨op, r.1⟩])

/-- Perform the calls of a `Promise.all` in their order, up to the first that is rejected, with what this
    one leaves in flight. -/
def completeSlots (M : Machine S W) (ok : Hist S → W → Event S → Bool) : List (Fate S.Err) → List β →
    List (Slot S β) → W → Hist S →
      Option (List (Fate S.Err) × Except S.Err (List β) × List S.Op × W × Hist S)
  | fates, bs, [], w, h => some (fates, .ok bs, [], w, h)
  | fates, bs, .done b :: slots, w, h => M.completeSlots ok fates (bs ++ [b]) slots w h
  | [], _, .todo _ _ :: _, _, _ => none
  | fate :: fates, bs, .todo op post :: slots, w, h =>
    (M.checked ok op w h fate).bind fun r =>
      match post r.1.answer with
      | .ok b => M.completeSlots ok fates (bs ++ [b]) slots r.2 (h ++ [⟨op, r.1⟩])
      | .error e => some (fates, .error e, Slot.pending slots, r.2, h ++ [⟨op, r.1⟩])

/-- Run a call while nothing else happens, with the fates chosen for its operations, and then what it has
    left in flight. -/
def complete (M : Machine S W) (ok : Hist S → W → Event S → Bool) : Prog S α → List S.Op →
    List (Fate S.Err) → W → Hist S → Option (Except S.Err α × W × Hist S)
  | .pure a, ops, fates, w, h => (M.playLeft ok ops fates w h).map fun q => (.ok a, q)
  | .throw e, ops, fates, w, h => (M.playLeft ok ops fates w h).map fun q => (.error e, q)
  | .call _ _, _, [], _, _ => none
  | .call op k, ops, fate :: fates, w, h =>
    (M.checked ok op w h fate).bind fun r =>
      M.complete ok (k r.1.answer) ops fates r.2 (h ++ [⟨op, r.1⟩])
  | .all slots k, ops, fates, w, h => (M.completeSlots ok fates [] slots w h).bind fun r =>
      M.complete ok (k r.2.1) (ops ++ r.2.2.1) r.1 r.2.2.2.1 r.2.2.2.2
  | .fork _ next, ops, fates, w, h => M.complete ok next ops fates w h

section
variable {ok : Hist S → W → Event S → Bool}

/-- What is in flight at the end is performed. -/
lemma completes_of_playLeft {p : Prog S α} {ops : List S.Op} {fates : List (Fate S.Err)} {w w' h h' r}
    (allowed : ∀ h w e, ok h w e = true → M.allowed h w e) (refl : ∀ h w, rely h w w)
    (last : ∀ w h, M.Completes rely p [] w h r w h) (res : M.playLeft ok ops fates w h = some (w', h')) :
    M.Completes rely p ops w h r w' h' := by
  induction ops generalizing fates w h with
  | nil =>
    cases res
    exact last _ _
  | cons op ops ih =>
    cases fates with
    | nil => cases res
    | cons fate fates =>
      obtain ⟨q, checked, res⟩ := Option.bind_eq_some_iff.1 res
      obtain ⟨reply, holds⟩ := reply_of_checked allowed checked
      have performed : M.Completes rely p ([] ++ op :: ops) w h r w' h' :=
        .left (refl h w) reply holds (ih res)
      exact performed

/-- Operations that are performed side by side are a run. -/
lemma completes_of_completeSlots {k : Except S.Err (List β) → Prog S α} {fates : List (Fate S.Err)}
    {slots : List (Slot S β)} {bs : List β} {ops : List S.Op} {w w' h h' r q}
    (allowed : ∀ h w e, ok h w e = true → M.allowed h w e) (refl : ∀ h w, rely h w w)
    (res : M.completeSlots ok fates bs slots w h = some q)
    (rest : M.Completes rely (k q.2.1) (ops ++ q.2.2.1) q.2.2.2.1 q.2.2.2.2 r w' h') :
    M.Completes rely (.all (bs.map .done ++ slots) k) ops w h r w' h' := by
  induction slots generalizing fates bs w h with
  | nil =>
    cases res
    rw [List.append_nil] at rest ⊢
    exact .join results_done rest
  | cons slot slots ih =>
    have shift {b : β} : bs.map .done ++ .done b :: slots = (bs ++ [b]).map .done ++ slots := by
      simp
    cases slot with
    | done b =>
      rw [shift]
      exact ih res
    | todo op post =>
      cases fates with
      | nil => cases res
      | cons fate fates =>
        obtain ⟨⟨o, w₁⟩, checked, res⟩ := Option.bind_eq_some_iff.1 res
        obtain ⟨reply, holds⟩ := reply_of_checked allowed checked
        cases answer : post o.answer with
        | ok b =>
          simp only [answer] at res
          exact .fulfil (refl h w) reply holds answer (shift ▸ ih res)
        | error e =>
          simp only [answer] at res
          cases res
          refine .reject (refl h w) reply holds answer ?_
          rwa [Slot.pending_append, Slot.pending_of_results results_done, List.nil_append]

/-- What a call is evaluated to is one of its runs. -/
theorem completes_of_complete {p : Prog S α} {ops : List S.Op} {fates : List (Fate S.Err)} {w w' h h' r}
    (allowed : ∀ h w e, ok h w e = true → M.allowed h w e) (refl : ∀ h w, rely h w w)
    (res : M.complete ok p ops fates w h = some (r, w', h')) : M.Completes rely p ops w h r w' h' := by
  induction p generalizing ops fates w h with
  | pure a =>
    obtain ⟨q, played, eq⟩ := Option.map_eq_some_iff.1 res
    cases eq
    exact completes_of_playLeft allowed refl (fun _ _ => .pure) played
  | throw e =>
    obtain ⟨q, played, eq⟩ := Option.map_eq_some_iff.1 res
    cases eq
    exact completes_of_playLeft allowed refl (fun _ _ => .throw) played
  | call op k ih =>
    cases fates with
    | nil => cases res
    | cons fate fates =>
      obtain ⟨q, checked, res⟩ := Option.bind_eq_some_iff.1 res
      obtain ⟨reply, holds⟩ := reply_of_checked allowed checked
      exact .call (refl h w) reply holds (ih _ res)
  | all slots k ih =>
    obtain ⟨q, completed, res⟩ := Option.bind_eq_some_iff.1 res
    have run := completes_of_completeSlots allowed refl completed (ih _ res)
    rwa [List.map_nil, List.nil_append] at run
  | fork child next _ ih => exact .fork (ih res)

end

end Machine

end AvaSettle.Async
