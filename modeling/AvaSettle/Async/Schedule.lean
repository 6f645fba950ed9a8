import AvaSettle.Async.Pool

/-!
# Executable schedules

A schedule names, step by step, which call moves and what becomes of the operation it awaits. It is
run by a function, so that a concrete interleaving can be evaluated, and every run of a legal
schedule is a run of the system. Where the system lets only some operations happen, the run checks
each operation against a decidable condition that implies it.
-/

namespace AvaSettle.Async

variable {S : Sig} {W : Type} {M : Machine S W} {ok : Hist S → W → Event S → Bool}

/-- The fate a schedule chooses for an awaited operation. -/
inductive Fate (ε : Type) : Type where
  | done
  | refused (e : ε)
  | lost (e : ε)

/-- The step a schedule chooses for one call. -/
inductive Act (S : Sig) : Type where
  | call (fate : Fate S.Err)
  | slot (j : Nat) (fate : Fate S.Err)
  | join
  | fork
  | crash

/-- One entry of a schedule. -/
inductive Choice (S : Sig) (W : Type) : Type 1 where
  | enter (p : Prog S Unit)
  | env (f : W → W)
  | run (i : Nat) (act : Act S)

namespace Machine

/-- The outcome of an operation whose fate is chosen. -/
def outcome (M : Machine S W) (op : S.Op) (w : W) :
    Fate S.Err → Option (Outcome S.Err (S.Res op) × W)
  | .done => (M.exec op w).map fun r => (.done r.1, r.2)
  | .refused e => if M.raises op e then some (.refused e, w) else none
  | .lost e => if M.raises op e then (M.exec op w).map fun r => (.lost r.1 e, r.2) else none

/-- The outcome of an operation, where the condition lets it happen. -/
def checked (M : Machine S W) (ok : Hist S → W → Event S → Bool) (op : S.Op) (w : W) (h : Hist S)
    (fate : Fate S.Err) : Option (Outcome S.Err (S.Res op) × W) :=
  (M.outcome op w fate).filter fun r => ok h w ⟨op, r.1⟩

/-- The chosen step of one call. -/
def act (M : Machine S W) (ok : Hist S → W → Event S → Bool) :
    Act S → W → Thread S → Option (W × List (Thread S))
  | .call fate, w, ⟨.call op k, h⟩ =>
    (M.checked ok op w h fate).map fun r => (r.2, [⟨k r.1.answer, h ++ [⟨op, r.1⟩]⟩])
  | .slot j fate, w, ⟨.all slots k, h⟩ =>
    match slots.drop j with
    | .todo op post :: ys =>
      (M.checked ok op w h fate).map fun r =>
        match post r.1.answer with
        | .ok b => (r.2, [⟨.all (slots.take j ++ .done b :: ys) k, h ++ [⟨op, r.1⟩]⟩])
        | .error e => (r.2, ⟨k (.error e), h ++ [⟨op, r.1⟩]⟩ ::
            (Slot.pending (slots.take j ++ ys)).map fun op' =>
              ⟨.detached op', h ++ [⟨op, r.1⟩]⟩)
    | _ => none
  | .join, w, ⟨.all slots k, h⟩ => (Slot.results slots).map fun bs => (w, [⟨k (.ok bs), h⟩])
  | .fork, w, ⟨.fork child next, h⟩ => some (w, [⟨next, h⟩, ⟨child, []⟩])
  | .crash, w, t => some (w, [⟨.pure (), t.hist⟩])
  | _, _, _ => none

/-- The chosen step of the system. -/
def fire (M : Machine S W) (ok : Hist S → W → Event S → Bool) :
    Choice S W → Sys S W → Option (Sys S W)
  | .enter p, s => some ⟨s.world, s.pool ++ [⟨p, []⟩]⟩
  | .env f, s => some ⟨f s.world, s.pool⟩
  | .run i a, s =>
    match s.pool.drop i with
    | t :: r => (M.act ok a s.world t).map fun q => ⟨q.1, s.pool.take i ++ q.2 ++ r⟩
    | [] => none

/-- The state at the end of a schedule. -/
def run (M : Machine S W) (ok : Hist S → W → Event S → Bool) :
    List (Choice S W) → Sys S W → Option (Sys S W)
  | [], s => some s
  | c :: cs, s => (M.fire ok c s).bind (M.run ok cs)

/-- Every operation is let happen. -/
def always : Hist S → W → Event S → Bool := fun _ _ _ => true

end Machine

/-- The entry is one that a run can contain. -/
def Choice.Legal (M : Machine S W) : Choice S W → Prop
  | .enter p => M.entry p
  | .env f => ∀ w, M.env w (f w)
  | .run _ _ => True

/-- A call takes some steps without failures. -/
def Choice.steps (i n : Nat) : List (Choice S W) :=
  .replicate n (.run i (.call .done))

/-- An entry is legal where it is one of the machine. -/
@[simp] lemma Choice.legal_enter {p : Prog S Unit} :
    (Choice.enter p : Choice S W).Legal M ↔ M.entry p := Iff.rfl

/-- A step of a thread is legal. -/
@[simp] lemma Choice.legal_run {i : Nat} {a : Act S} :
    (Choice.run i a : Choice S W).Legal M := trivial

/-- Steps of one thread are legal. -/
lemma Choice.legal_steps {i n : Nat} : ∀ c ∈ (Choice.steps i n : List (Choice S W)), c.Legal M := by
  intro c mem
  obtain rfl := List.eq_of_mem_replicate mem
  trivial

namespace Machine

/-- The outcome that a fate decides is a reply. -/
lemma reply_of_outcome {op : S.Op} {w : W} {fate : Fate S.Err} {r}
    (res : M.outcome op w fate = some r) : M.Reply op w r.1 r.2 := by
  cases fate with
  | done =>
    obtain ⟨⟨b, w'⟩, run, rfl⟩ := Option.map_eq_some_iff.1 res
    exact run
  | refused e =>
    obtain ⟨err, eq⟩ := Option.ite_none_right_eq_some.1 res
    cases eq
    exact ⟨err, rfl⟩
  | lost e =>
    obtain ⟨err, eq⟩ := Option.ite_none_right_eq_some.1 res
    obtain ⟨⟨b, w'⟩, run, rfl⟩ := Option.map_eq_some_iff.1 eq
    exact ⟨run, err⟩

/-- A checked outcome is a reply that the machine allows. -/
lemma reply_of_checked {op : S.Op} {w : W} {h : Hist S} {fate : Fate S.Err} {r}
    (allowed : ∀ h w e, ok h w e = true → M.allowed h w e)
    (res : M.checked ok op w h fate = some r) :
    M.Reply op w r.1 r.2 ∧ M.allowed h w ⟨op, r.1⟩ := by
  obtain ⟨res, holds⟩ := Option.filter_eq_some_iff.1 res
  exact ⟨reply_of_outcome res, allowed _ _ _ holds⟩

/-- What a thread does on a schedule is one of its steps. -/
lemma tstep_of_act {a : Act S} {w : W} {t : Thread S} {q}
    (allowed : ∀ h w e, ok h w e = true → M.allowed h w e) (res : M.act ok a w t = some q) :
    M.TStep w t q.1 q.2 := by
  obtain ⟨p, h⟩ := t
  cases a with
  | call fate =>
    cases p with
    | call op k =>
      obtain ⟨r, run, rfl⟩ := Option.map_eq_some_iff.1 res
      obtain ⟨reply, holds⟩ := reply_of_checked allowed run
      exact .call reply holds
    | _ => cases res
  | slot j fate =>
    cases p with
    | all slots k =>
      simp only [act] at res
      split at res
      case h_1 op post ys eq =>
        obtain ⟨r, run, rfl⟩ := Option.map_eq_some_iff.1 res
        have split : slots = slots.take j ++ .todo op post :: ys := by
          rw [← eq, List.take_append_drop]
        obtain ⟨reply, holds⟩ := reply_of_checked allowed run
        cases post_eq : post r.1.answer with
        | ok b =>
          have step : M.TStep w ⟨.all (slots.take j ++ .todo op post :: ys) k, h⟩ r.2 _ :=
            .fulfil reply holds post_eq
          rwa [← split] at step
        | error e =>
          have step : M.TStep w ⟨.all (slots.take j ++ .todo op post :: ys) k, h⟩ r.2 _ :=
            .reject reply holds post_eq
          rwa [← split] at step
      case h_2 => cases res
    | _ => cases res
  | join =>
    cases p with
    | all slots k =>
      obtain ⟨bs, eq, rfl⟩ := Option.map_eq_some_iff.1 res
      exact .join eq
    | _ => cases res
  | fork =>
    cases p with
    | fork child next =>
      cases res
      exact .fork
    | _ => cases res
  | crash =>
    cases res
    exact .crash

/-- What happens on a schedule is a step of the system. -/
lemma step_of_fire {c : Choice S W} {s s' : Sys S W}
    (allowed : ∀ h w e, ok h w e = true → M.allowed h w e) (legal : c.Legal M)
    (res : M.fire ok c s = some s') : M.Step s s' := by
  obtain ⟨w, pool⟩ := s
  cases c with
  | enter p =>
    cases res
    exact .enter legal
  | env f =>
    cases res
    exact .env (legal w)
  | run i a =>
    simp only [fire] at res
    split at res
    case h_1 t r eq =>
      obtain ⟨q, run, rfl⟩ := Option.map_eq_some_iff.1 res
      have split : pool = pool.take i ++ t :: r := by
        rw [← eq, List.take_append_drop]
      have step := Step.thread (l := pool.take i) (r := r) (tstep_of_act allowed run)
      rwa [← split] at step
    case h_2 => cases res

/-- Every run of a legal schedule is a run of the system. -/
theorem steps_of_run {cs : List (Choice S W)} {s s' : Sys S W}
    (allowed : ∀ h w e, ok h w e = true → M.allowed h w e)
    (legal : ∀ c ∈ cs, c.Legal M) (res : M.run ok cs s = some s') : M.Steps s s' := by
  induction cs generalizing s with
  | nil =>
    cases res
    exact .refl
  | cons c cs ih =>
    obtain ⟨s₁, fire, rest⟩ := Option.bind_eq_some_iff.1 res
    have hd := step_of_fire allowed (legal c List.mem_cons_self) fire
    exact .head hd (ih (fun c' mem => legal c' (List.mem_cons_of_mem _ mem)) rest)

/-- What a legal schedule is evaluated to reach, the system reaches. -/
theorem reachable_of_run (ok : Hist S → W → Event S → Bool) (cs : List (Choice S W)) {w : W}
    (P : Sys S W → Bool) (allowed : ∀ h w e, ok h w e = true → M.allowed h w e) (legal : ∀ c ∈ cs, c.Legal M)
    (res : (M.run ok cs ⟨w, []⟩).any P = true) : ∃ s, M.Reachable w s ∧ P s = true := by
  obtain ⟨s, eq, hP⟩ := (Option.any_eq_true _ _).1 res
  exact ⟨s, steps_of_run allowed legal eq, hP⟩

/-- A schedule in two parts, with what holds in between. -/
theorem reachable_of_runs (ok : Hist S → W → Event S → Bool) (cs cs' : List (Choice S W)) {w : W}
    (P : Sys S W → Sys S W → Bool) (allowed : ∀ h w e, ok h w e = true → M.allowed h w e)
    (legal : ∀ c ∈ cs, c.Legal M) (legal' : ∀ c ∈ cs', c.Legal M)
    (res : ((M.run ok cs ⟨w, []⟩).any fun s => (M.run ok cs' s).any (P s)) = true) :
    ∃ s s', M.Reachable w s ∧ M.Steps s s' ∧ P s s' = true := by
  obtain ⟨s, eq, res⟩ := (Option.any_eq_true _ _).1 res
  obtain ⟨s', eq', hP⟩ := (Option.any_eq_true _ _).1 res
  exact ⟨s, s', steps_of_run allowed legal eq, steps_of_run allowed legal' eq', hP⟩

end Machine

end AvaSettle.Async
