import AvaSettle.Async.Logic
import AvaSettle.Async.Schedule

/-!
# One call among others

A call that is watched from its first operation to its result, while the other calls go on beside it.
The logic for pools speaks about its result too: what the call holds is a frame for the others, and
what they hold is a frame for the call.
-/

namespace AvaSettle.Async

variable {S : Sig} {W A : Type} [AddCommMonoid A] {M : Machine S W} {α : Type}

/-- A run of a call that is not in the pool, with its result, the state in which it returns and its
    history. The other calls may take any steps at any time. -/
inductive Machine.Returns (M : Machine S W) {α : Type} :
    Prog S α → Sys S W → Hist S → Except S.Err α → Sys S W → Hist S → Prop where
  | pure {a s h} : Returns M (.pure a) s h (.ok a) s h
  | throw {e s h} : Returns M (.throw e) s h (.error e) s h
  | others {p s s₁ s' h h' r} (steps : M.Steps s s₁) (rest : Returns M p s₁ h r s' h') :
      Returns M p s h r s' h'
  | call {op k s w s' h h' o r} (reply : M.Reply op s.world o w)
      (ok : M.allowed h s.world ⟨op, o⟩)
      (rest : Returns M (k o.answer) ⟨w, s.pool⟩ (h ++ [⟨op, o⟩]) r s' h') :
      Returns M (.call op k) s h r s' h'
  | fulfil {β : Type} {op post s w s' h h' o r b xs ys} {k : Except S.Err (List β) → Prog S α}
      (reply : M.Reply op s.world o w) (ok : M.allowed h s.world ⟨op, o⟩)
      (res : post o.answer = .ok b)
      (rest : Returns M (.all (xs ++ .done b :: ys) k) ⟨w, s.pool⟩ (h ++ [⟨op, o⟩]) r s' h') :
      Returns M (.all (xs ++ .todo op post :: ys) k) s h r s' h'
  | reject {β : Type} {op post s w s' h h' o r e xs ys} {k : Except S.Err (List β) → Prog S α}
      (reply : M.Reply op s.world o w) (ok : M.allowed h s.world ⟨op, o⟩)
      (res : post o.answer = .error e)
      (rest : Returns M (k (.error e)) ⟨w, s.pool ++ (Slot.pending (xs ++ ys)).map fun op' =>
        ⟨.detached op', h ++ [⟨op, o⟩]⟩⟩ (h ++ [⟨op, o⟩]) r s' h') :
      Returns M (.all (xs ++ .todo op post :: ys) k) s h r s' h'
  | join {β : Type} {s s' h h' r bs slots} {k : Except S.Err (List β) → Prog S α}
      (res : Slot.results slots = some bs) (rest : Returns M (k (.ok bs)) s h r s' h') :
      Returns M (.all slots k) s h r s' h'
  | fork {child next s s' h h' r}
      (rest : Returns M next ⟨s.world, s.pool ++ [⟨child, []⟩]⟩ h r s' h') :
      Returns M (.fork child next) s h r s' h'

/-- What happens next while a call is followed: a step of the call, or some steps of the others. -/
inductive Beat (S : Sig) (W : Type) : Type 1 where
  | own (act : Act S)
  | others (cs : List (Choice S W))

namespace Machine

/-- Watch a call while the others wait, with the fates chosen for its operations. -/
def watch (M : Machine S W) (ok : Hist S → W → Event S → Bool) : Prog S α → List (Fate S.Err) →
    Sys S W → Hist S → Option (Except S.Err α × Sys S W × Hist S)
  | .pure a, _, s, h => some (.ok a, s, h)
  | .throw e, _, s, h => some (.error e, s, h)
  | .call op k, fate :: fates, s, h =>
    (M.checked ok op s.world h fate).bind fun r =>
      M.watch ok (k r.1.answer) fates ⟨r.2, s.pool⟩ (h ++ [⟨op, r.1⟩])
  | _, _, _, _ => none

/-- What a call is watched to do is one of its runs. -/
theorem returns_of_watch {ok : Hist S → W → Event S → Bool} {p : Prog S α} {fates : List (Fate S.Err)}
    {s s' h h' r} (allowed : ∀ h w e, ok h w e = true → M.allowed h w e)
    (res : M.watch ok p fates s h = some (r, s', h')) : M.Returns p s h r s' h' := by
  induction p generalizing fates s h with
  | pure a =>
    cases res
    exact .pure
  | throw e =>
    cases res
    exact .throw
  | call op k ih =>
    cases fates with
    | nil => cases res
    | cons fate fates =>
      obtain ⟨q, checked, res⟩ := Option.bind_eq_some_iff.1 res
      obtain ⟨reply, holds⟩ := reply_of_checked allowed checked
      exact .call reply holds (ih _ res)
  | all slots k => cases res
  | fork child next => cases res

/-- Watch a call, with the steps that are chosen for it, and what the others do between them. -/
def follow (M : Machine S W) (ok : Hist S → W → Event S → Bool) :
    List (Beat S W) → Prog S α → Sys S W → Hist S →
      Option (Except S.Err α × Sys S W × Hist S)
  | [], .pure a, s, h => some (.ok a, s, h)
  | [], .throw e, s, h => some (.error e, s, h)
  | .others cs :: turns, p, s, h => (M.run ok cs s).bind fun s' => M.follow ok turns p s' h
  | .own (.call fate) :: turns, .call op k, s, h =>
    (M.checked ok op s.world h fate).bind fun r =>
      M.follow ok turns (k r.1.answer) ⟨r.2, s.pool⟩ (h ++ [⟨op, r.1⟩])
  | .own (.slot j fate) :: turns, .all slots k, s, h =>
    match slots.drop j with
    | .todo op post :: ys =>
      (M.checked ok op s.world h fate).bind fun r =>
        match post r.1.answer with
        | .ok b => M.follow ok turns (.all (slots.take j ++ .done b :: ys) k) ⟨r.2, s.pool⟩
            (h ++ [⟨op, r.1⟩])
        | .error _ => none
    | _ => none
  | .own .join :: turns, .all slots k, s, h =>
    (Slot.results slots).bind fun bs => M.follow ok turns (k (.ok bs)) s h
  | _, _, _, _ => none

/-- A schedule, a call that is watched in the state at its end, and a schedule afterwards. -/
theorem returns_of_run (ok : Hist S → W → Event S → Bool) (p : Prog S α) (cs cs' : List (Choice S W))
    (fates : List (Fate S.Err)) {w : W} (P : Except S.Err α → Sys S W → Sys S W → Bool)
    (allowed : ∀ h w e, ok h w e = true → M.allowed h w e)
    (legal : ∀ c ∈ cs, c.Legal M) (legal' : ∀ c ∈ cs', c.Legal M)
    (res : ((M.run ok cs ⟨w, []⟩).any fun s => (M.watch ok p fates s []).any fun q =>
      (M.run ok cs' q.2.1).any (P q.1 q.2.1)) = true) :
    ∃ s r s' h s'', M.Reachable w s ∧ M.Returns p s [] r s' h ∧ M.Steps s' s'' ∧
      P r s' s'' = true := by
  obtain ⟨s, eq, res⟩ := (Option.any_eq_true _ _).1 res
  obtain ⟨⟨r, s', h⟩, watched, res⟩ := (Option.any_eq_true _ _).1 res
  obtain ⟨s'', eq', hP⟩ := (Option.any_eq_true _ _).1 res
  exact ⟨s, r, s', h, s'', steps_of_run allowed legal eq, returns_of_watch allowed watched,
    steps_of_run allowed legal' eq', hP⟩

end Machine

namespace Spec

variable {σ : Spec M A}

/-- The state of the other calls, next to a call that holds a share. -/
def Beside (σ : Spec M A) (a : A) (s : Sys S W) : Prop := ∃ spent, σ.Holds (a + spent) s

section
variable {s s' : Sys S W} {a a' : A} {h : Hist S}

/-- A call that is let alone keeps its token while others step. -/
lemma Beside.steps (sound : σ.Sound) (beside : σ.Beside a s) (steps : M.Steps s s') :
    σ.Beside a s' ∧ σ.le s.world s'.world := by
  obtain ⟨spent, holds⟩ := beside
  obtain ⟨ps, run⟩ := Machine.Steps.spawns steps
  obtain ⟨holds', le⟩ := holds.spawns sound run
  exact ⟨⟨_, by rwa [← add_assoc]⟩, le⟩

/-- An operation of the call. -/
lemma Beside.op {op : S.Op} {K : Outcome S.Err (S.Res op) → A → W → Hist S → Prop} {w : W}
    {o : Outcome S.Err (S.Res op)} (beside : σ.Beside a s)
    (hop : σ.op op K a s.world h) (reply : M.Reply op s.world o w)
    (ok : M.allowed h s.world ⟨op, o⟩) :
    σ.good (h ++ [⟨op, o⟩]) ∧ ∃ a', σ.Beside a' ⟨w, s.pool⟩ ∧ K o a' w (h ++ [⟨op, o⟩]) := by
  obtain ⟨spent, as, inv, fine⟩ := beside
  rw [add_left_comm] at inv
  obtain ⟨good', a', inv', le', post⟩ := hop _ _ _ _ (σ.le_refl _) inv reply ok
  refine ⟨good', a', ⟨spent, as, ?_, fine.imp fun _ _ fine => fine.le le'⟩, post⟩
  rwa [add_left_comm]

/-- A part of the share goes to new calls, which join the others. -/
lemma Beside.join {ts : List (Thread S)} {as : List A}
    (fine : List.Forall₂ (σ.Fine s.world) ts as) (beside : σ.Beside (a + as.sum) s) :
    σ.Beside a ⟨s.world, s.pool ++ ts⟩ := by
  obtain ⟨spent, bs, inv, others⟩ := beside
  refine ⟨spent, bs ++ as, ?_, List.rel_append others fine⟩
  have eq : (bs ++ as).sum + (a + spent) = bs.sum + (a + as.sum + spent) := by
    rw [List.sum_append, add_assoc, add_assoc, add_left_comm as.sum]
  exact eq ▸ inv

/-- A part of the share has been spent. -/
lemma Beside.spend (beside : σ.Beside (a + a') s) : σ.Beside a s := by
  obtain ⟨spent, holds⟩ := beside
  exact ⟨a' + spent, by rwa [← add_assoc]⟩

/-- Every run of a call among others meets its weakest precondition. -/
theorem Beside.returns {p : Prog S α} {Q : Post S W A α} {r} {h' : Hist S} (sound : σ.Sound)
    (run : M.Returns p s h r s' h') (beside : σ.Beside a s)
    (stays : ∀ r a w w' h, σ.le w w' → Q r a w h → Q r a w' h)
    (hp : σ.wp p Q a s.world h) : ∃ a', σ.Beside a' s' ∧ Q r a' s'.world h' := by
  induction run generalizing a with
  | pure => exact ⟨a, beside, hp⟩
  | throw => exact ⟨a, beside, hp⟩
  | others steps _ ih =>
    obtain ⟨beside', le⟩ := beside.steps sound steps
    exact ih beside' (wp_le stays le hp)
  | call reply ok _ ih =>
    obtain ⟨-, a', beside', post⟩ := beside.op hp reply ok
    exact ih beside' post
  | fulfil reply ok res _ ih =>
    obtain ⟨J, closed, hJ⟩ := hp
    obtain ⟨-, a', beside', post⟩ := beside.op (closed.step hJ) reply ok
    exact ih beside' ⟨J, closed, post.1 _ res⟩
  | reject reply ok res _ ih =>
    obtain ⟨J, closed, hJ⟩ := hp
    obtain ⟨good', a', beside', post⟩ := beside.op (closed.step hJ) reply ok
    obtain ⟨a₁, a₂, rfl, hk, hd⟩ := post.2 _ res
    obtain ⟨as, rfl, fine⟩ := detach_fine good' hd
    exact ih (beside'.join fine) hk
  | join res _ ih =>
    obtain ⟨J, closed, hJ⟩ := hp
    exact ih beside (closed.join hJ res)
  | fork _ ih =>
    obtain ⟨a₁, a₂, rfl, hn, hc⟩ := hp
    have fine : List.Forall₂ (σ.Fine _) [⟨_, []⟩] [a₂] := .cons ⟨σ.good_nil, hc⟩ .nil
    exact ih (Beside.join fine (by simpa using beside.spend)) hn

end

/-- The calls in a reachable state, next to a call that is made there. -/
lemma beside_of_reachable {w : W} {s : Sys S W} (sound : σ.Sound) (init : σ.inv w 0)
    (reach : M.Reachable w s) : σ.Beside 0 s := by
  obtain ⟨⟨spent, holds⟩, -⟩ := Holds.steps sound (Holds.init init) reach
  exact ⟨spent, (zero_add spent).symm ▸ holds⟩

/-- A call that is made in a reachable state returns what its weakest precondition says, and from then
    on the world moves along the order. -/
theorem of_returns {p : Prog S α} {Q : Post S W A α} {w : W} {s s' s'' : Sys S W} {r} {h : Hist S}
    (sound : σ.Sound) (init : σ.inv w 0) (reach : M.Reachable w s) (run : M.Returns p s [] r s' h)
    (later : M.Steps s' s'') (stays : ∀ r a w w' h, σ.le w w' → Q r a w h → Q r a w' h)
    (hp : σ.wp p Q 0 s.world []) :
    (∃ a f, σ.inv s'.world (a + f) ∧ Q r a s'.world h) ∧ σ.le s'.world s''.world := by
  have beside := beside_of_reachable sound init reach
  obtain ⟨a, beside', post⟩ := beside.returns sound run stays hp
  obtain ⟨-, le⟩ := beside'.steps sound later
  obtain ⟨spent', as, inv, -⟩ := beside'
  rw [add_left_comm] at inv
  exact ⟨⟨a, _, inv, post⟩, le⟩

end Spec

end AvaSettle.Async
