import AvaSettle.Async.Schedule

/-!
# Recorded runs

A run of the system with the operations that are performed in it, in their order: each one with the
world in which it is performed, with what its call has done before and with the other calls there are.
What happens when, and in which order, is read off these records.
-/

namespace AvaSettle.Async

variable {S : Sig} {W : Type}

/-- An operation that is performed in a run. -/
structure Record (S : Sig) (W : Type) where
  /-- The world before the operation. -/
  world : W
  /-- The history of the call before the operation. -/
  hist : Hist S
  /-- The operation, with its outcome. -/
  event : Event S
  /-- The other calls, those that are over among them. -/
  others : List (Thread S)

/-! ## What happens in a history -/

/-- Something happens in a history: an event that stands in `P` to what comes before it. -/
def Happens (P : Hist S → Event S → Prop) (h : Hist S) : Prop :=
  ∃ before e after, h = before ++ e :: after ∧ P before e

section
variable {P : Hist S → Event S → Prop} {h h' : Hist S} {e : Event S}

/-- It has happened with the last event or before it. -/
lemma happens_append : Happens P (h ++ [e]) ↔ Happens P h ∨ P h e := by
  constructor
  · rintro ⟨before, x, after, eq, holds⟩
    rcases List.eq_nil_or_concat after with rfl | ⟨after, y, rfl⟩
    · obtain ⟨rfl, last⟩ := List.append_inj' eq rfl
      obtain ⟨rfl, -⟩ := List.cons.inj last
      exact .inr holds
    · rw [List.concat_eq_append, ← List.cons_append, ← List.append_assoc] at eq
      obtain ⟨rfl, -⟩ := List.append_inj' eq rfl
      exact .inl ⟨before, x, after, rfl, holds⟩
  · rintro (⟨before, x, after, rfl, holds⟩ | holds)
    · exact ⟨before, x, after ++ [e], by simp, holds⟩
    · exact ⟨h, e, [], rfl, holds⟩

/-- What has happened stays. -/
lemma Happens.append (happens : Happens P h) : Happens P (h ++ h') := by
  obtain ⟨before, x, after, rfl, holds⟩ := happens
  exact ⟨before, x, after ++ h', by simp, holds⟩

/-- Whether something happens in the rest of a history. -/
def happensAfter (p : Hist S → Event S → Bool) : Hist S → Hist S → Bool
  | _, [] => false
  | before, e :: after => p before e || happensAfter p (before ++ [e]) after

/-- It happens where an event of the rest stands in `P` to all that comes before it. -/
lemma happensAfter_iff {p : Hist S → Event S → Bool} {before rest : Hist S} :
    happensAfter p before rest = true ↔ ∃ l e r, rest = l ++ e :: r ∧ p (before ++ l) e = true := by
  induction rest generalizing before with
  | nil => simp [happensAfter]
  | cons e rest ih =>
    rw [happensAfter, Bool.or_eq_true, ih]
    constructor
    · rintro (holds | ⟨l, e', r, rfl, holds⟩)
      · exact ⟨[], e, rest, rfl, by simpa using holds⟩
      · exact ⟨e :: l, e', r, rfl, by simpa using holds⟩
    · rintro ⟨l, e', r, eq, holds⟩
      cases l with
      | nil =>
        cases eq
        exact .inl (by simpa using holds)
      | cons a l =>
        cases eq
        exact .inr ⟨l, e', r, rfl, by simpa using holds⟩

instance [∀ h e, Decidable (P h e)] : Decidable (Happens P h) :=
  decidable_of_iff (happensAfter (fun h e => decide (P h e)) [] h = true) (by
    simp [happensAfter_iff, Happens])

end

namespace Machine

variable {M : Machine S W} {s s' s₁ : Sys S W} {r : Record S W} {rs : List (Record S W)}

/-- A step of a call that performs an operation. -/
inductive Performs (M : Machine S W) : Sys S W → Record S W → Sys S W → Prop where
  | intro {w w' l t rest ts e} (step : M.TStep w t w' ts) (goes : ts ≠ [])
      (next : ∀ t' ∈ ts, t'.hist = t.hist ++ [e]) (reply : M.Reply e.op w e.outcome w') :
      Performs M ⟨w, l ++ t :: rest⟩ ⟨w, t.hist, e, l ++ rest⟩ ⟨w', l ++ ts ++ rest⟩

/-- A step that performs no operation. -/
inductive Silent (M : Machine S W) : Sys S W → Sys S W → Prop where
  | enter {w pool p} (entry : M.entry p) : Silent M ⟨w, pool⟩ ⟨w, pool ++ [⟨p, []⟩]⟩
  | env {w w' pool} (move : M.env w w') : Silent M ⟨w, pool⟩ ⟨w', pool⟩
  | thread {w l t rest ts} (step : M.TStep w t w ts)
      (same : (∃ p, ts = [⟨p, t.hist⟩]) ∨ ∃ p child, ts = [⟨p, t.hist⟩, ⟨child, []⟩]) :
      Silent M ⟨w, l ++ t :: rest⟩ ⟨w, l ++ ts ++ rest⟩

/-- A run with the operations that are performed in it. -/
inductive Traces (M : Machine S W) : Sys S W → List (Record S W) → Sys S W → Prop where
  | refl {s : Sys S W} : Traces M s [] s
  | silent {s s₁ s' : Sys S W} {rs : List (Record S W)} (step : M.Silent s s₁)
      (rest : Traces M s₁ rs s') : Traces M s rs s'
  | perform {s s₁ s' : Sys S W} {r : Record S W} {rs : List (Record S W)} (step : M.Performs s r s₁)
      (rest : Traces M s₁ rs s') : Traces M s (r :: rs) s'

/-- A performed operation is a step. -/
lemma Performs.step (performs : M.Performs s r s') : M.Step s s' := by
  cases performs with
  | intro step => exact .thread step

/-- So is a silent one. -/
lemma Silent.step (silent : M.Silent s s') : M.Step s s' := by
  cases silent with
  | enter entry => exact .enter entry
  | env move => exact .env move
  | thread step => exact .thread step

/-- A recorded run is a run. -/
lemma Traces.steps (run : M.Traces s rs s') : M.Steps s s' := by
  induction run with
  | refl => exact .refl
  | silent step _ ih => exact .head step.step ih
  | perform step _ ih => exact .head step.step ih

/-- The operation that a step of a call has added to its history. -/
def added (w : W) (t : Thread S) (others : List (Thread S)) : List (Thread S) → List (Record S W)
  | t' :: _ => (t'.hist.drop t.hist.length).map fun e => ⟨w, t.hist, e, others⟩
  | [] => []

/-- A step of a call performs an operation, or none. -/
lemma traces_of_tstep {w w' : W} {t : Thread S} {l rest ts : List (Thread S)}
    (step : M.TStep w t w' ts) (run : M.Traces ⟨w', l ++ ts ++ rest⟩ rs s') :
    M.Traces ⟨w, l ++ t :: rest⟩ (added w t (l ++ rest) ts ++ rs) s' := by
  cases step with
  | @call _ _ h op k o reply ok =>
    simp only [added, List.drop_left]
    refine .perform (.intro (.call reply ok) (List.cons_ne_nil _ _) (fun t' mem => ?_) reply) run
    rw [List.mem_singleton.1 mem]
  | @fulfil _ _ _ h op post o b xs ys k reply ok res =>
    simp only [added, List.drop_left]
    refine .perform (.intro (.fulfil reply ok res) (List.cons_ne_nil _ _) (fun t' mem => ?_) reply) run
    rw [List.mem_singleton.1 mem]
  | @reject _ _ _ h op post o e xs ys k reply ok res =>
    simp only [added, List.drop_left]
    refine .perform (.intro (.reject reply ok res) (List.cons_ne_nil _ _) (fun t' mem => ?_) reply) run
    rcases List.mem_cons.1 mem with rfl | mem
    · rfl
    · obtain ⟨op', -, rfl⟩ := List.mem_map.1 mem
      rfl
  | join res =>
    simp only [added, List.drop_length]
    exact .silent (.thread (.join res) (.inl ⟨_, rfl⟩)) run
  | fork =>
    simp only [added, List.drop_length]
    exact .silent (.thread .fork (.inr ⟨_, _, rfl⟩)) run
  | crash =>
    simp only [added, List.drop_length]
    exact .silent (.thread .crash (.inl ⟨_, rfl⟩)) run

/-- Every run can be recorded. -/
theorem exists_traces (steps : M.Steps s s') : ∃ rs, M.Traces s rs s' := by
  induction steps using Relation.ReflTransGen.head_induction_on with
  | refl => exact ⟨[], .refl⟩
  | head step _ ih =>
    obtain ⟨rs, rest⟩ := ih
    cases step with
    | enter entry => exact ⟨rs, .silent (.enter entry) rest⟩
    | env move => exact ⟨rs, .silent (.env move) rest⟩
    | thread step => exact ⟨_, traces_of_tstep step rest⟩

/-- In a recorded run two operations are `R`-related, the earlier one first, where every state the run
    passes is `I`, what an operation leaves behind is `G` of it, and `G` lasts until an operation that it
    is `R`-related to. -/
theorem Traces.pairwise {I : Sys S W → Prop} {G : Record S W → Sys S W → Prop}
    {ok : Record S W → Prop} {R : Record S W → Record S W → Prop}
    (silent : ∀ {s s'}, I s → M.Silent s s' → I s' ∧ ∀ r, G r s → G r s')
    (performs : ∀ {s r s'}, I s → ok r → M.Performs s r s' →
      I s' ∧ G r s' ∧ ∀ r₀, G r₀ s → R r₀ r ∧ G r₀ s')
    (run : M.Traces s rs s') (inv : I s) (oks : ∀ r ∈ rs, ok r) :
    rs.Pairwise R := by
  have later {s s' : Sys S W} {rs : List (Record S W)} (run : M.Traces s rs s') :
      I s → (∀ r ∈ rs, ok r) → ∀ r₀, G r₀ s → ∀ r ∈ rs, R r₀ r := by
    induction run with
    | refl => simp
    | silent step _ ih =>
      intro inv oks r₀ holds
      exact ih (silent inv step).1 oks r₀ ((silent inv step).2 r₀ holds)
    | perform step _ ih =>
      intro inv oks r₀ holds
      rw [List.forall_mem_cons] at oks ⊢
      obtain ⟨inv', -, keep⟩ := performs inv oks.1 step
      exact ⟨(keep r₀ holds).1, ih inv' oks.2 r₀ (keep r₀ holds).2⟩
  induction run with
  | refl => exact .nil
  | silent step _ ih => exact ih (silent inv step).1 oks
  | perform step rest ih =>
    rw [List.forall_mem_cons] at oks
    obtain ⟨inv', left, -⟩ := performs inv oks.1 step
    exact .cons (later rest inv' oks.2 _ left) (ih inv' oks.2)

/-! ## Evaluation -/

/-- The operations of a schedule, and the state at its end. -/
def observe (M : Machine S W) (ok : Hist S → W → Event S → Bool) :
    List (Choice S W) → Sys S W → Option (List (Record S W) × Sys S W)
  | [], s => some ([], s)
  | .enter p :: cs, s => M.observe ok cs ⟨s.world, s.pool ++ [⟨p, []⟩]⟩
  | .env f :: cs, s => M.observe ok cs ⟨f s.world, s.pool⟩
  | .run i a :: cs, s =>
    match s.pool.drop i with
    | t :: rest => (M.act ok a s.world t).bind fun q =>
      (M.observe ok cs ⟨q.1, s.pool.take i ++ q.2 ++ rest⟩).map fun o =>
        (added s.world t (s.pool.take i ++ rest) q.2 ++ o.1, o.2)
    | [] => none

/-- What is observed of a legal schedule is a run. -/
theorem traces_of_observe {ok : Hist S → W → Event S → Bool} {cs : List (Choice S W)}
    (allowed : ∀ h w e, ok h w e = true → M.allowed h w e) (legal : ∀ c ∈ cs, c.Legal M)
    (res : M.observe ok cs s = some (rs, s')) : M.Traces s rs s' := by
  induction cs generalizing s rs with
  | nil =>
    cases res
    exact .refl
  | cons c cs ih =>
    have legal' : ∀ c ∈ cs, c.Legal M := fun c' mem => legal c' (List.mem_cons_of_mem _ mem)
    cases c with
    | enter p => exact .silent (.enter (legal _ List.mem_cons_self)) (ih legal' res)
    | env f => exact .silent (.env (legal _ List.mem_cons_self _)) (ih legal' res)
    | run i a =>
      simp only [observe] at res
      split at res
      case h_1 t rest eq =>
        obtain ⟨q, act, res⟩ := Option.bind_eq_some_iff.1 res
        obtain ⟨o, tail, eq'⟩ := Option.map_eq_some_iff.1 res
        cases eq'
        have run := traces_of_tstep (tstep_of_act allowed act) (ih legal' tail)
        rwa [← eq, List.take_append_drop] at run
      case h_2 => cases res

end Machine

end AvaSettle.Async
