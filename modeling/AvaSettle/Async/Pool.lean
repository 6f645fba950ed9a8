import Mathlib.Logic.Relation
import AvaSettle.Async.Prog

/-!
# Pools of calls over a shared world

Calls of a service run side by side, on one or on many instances, over one shared world: the
database, the chain and the outbox. Each awaited operation is atomic. It may be performed and
answered, refused before it had an effect, or performed with its answer lost; a process may stop
between any two operations, and the rest of the world may move at any time. Every call keeps the
history of its operations, which is what the properties of a single call are stated over.
-/

namespace AvaSettle.Async

variable {S : Sig} {W : Type} {α β : Type}

/-- What became of an awaited operation. -/
inductive Outcome (ε β : Type) : Type where
  | done (b : β)
  | refused (e : ε)
  | lost (b : β) (e : ε)

namespace Outcome

/-- What the awaiting program sees. -/
def answer {ε β : Type} : Outcome ε β → Except ε β
  | .done b => .ok b
  | .refused e => .error e
  | .lost _ e => .error e

/-- The result of the operation, when it was performed. -/
def performed {ε β : Type} : Outcome ε β → Option β
  | .done b => some b
  | .refused _ => none
  | .lost b _ => some b

/-- The awaited operation threw. -/
def threw {ε β : Type} : Outcome ε β → Bool
  | .done _ => false
  | .refused _ => true
  | .lost _ _ => true

end Outcome

/-- One operation of a call, with its outcome. -/
structure Event (S : Sig) where
  /-- The operation. -/
  op : S.Op
  /-- What became of it. -/
  outcome : Outcome S.Err (S.Res op)

/-- The operations of a call so far, the oldest first. -/
abbrev Hist (S : Sig) := List (Event S)

/-- A system of calls: what each operation does to the world, the errors an awaited operation can
    throw, how the world moves by itself, the calls that can be made, and the operations that are
    let happen. -/
structure Machine (S : Sig) (W : Type) where
  /-- The effect and the answer of an operation; `none` where the world refuses it. -/
  exec : (op : S.Op) → W → Option (S.Res op × W)
  /-- The errors an operation can throw. -/
  raises : S.Op → S.Err → Bool
  /-- The moves of the world that no call makes. -/
  env : W → W → Prop
  /-- The calls that can be made. -/
  entry : Prog S Unit → Prop
  /-- The operations that are let happen: all of them, unless runs are being restricted. -/
  allowed : Hist S → W → Event S → Prop := fun _ _ _ => True

/-- A call in progress: the rest of its program and its history. -/
structure Thread (S : Sig) where
  /-- What is left to run. -/
  prog : Prog S Unit
  /-- What it has done. -/
  hist : Hist S

/-- The world and the calls in progress. -/
structure Sys (S : Sig) (W : Type) where
  /-- The shared world. -/
  world : W
  /-- The calls in progress, on all instances. -/
  pool : List (Thread S)

namespace Machine

variable {M : Machine S W}

/-- The outcomes of an operation, each with the world it leaves. -/
def Reply (M : Machine S W) (op : S.Op) (w : W) : Outcome S.Err (S.Res op) → W → Prop
  | .done b, w' => M.exec op w = some (b, w')
  | .refused e, w' => M.raises op e = true ∧ w' = w
  | .lost b e, w' => M.exec op w = some (b, w') ∧ M.raises op e = true

/-- What an operation throws is something it can throw. -/
lemma Reply.raises {op : S.Op} {w w' : W} {o : Outcome S.Err (S.Res op)} {e : S.Err}
    (reply : M.Reply op w o w') (threw : o.answer = .error e) : M.raises op e = true := by
  cases o with
  | done b => cases threw
  | refused e' =>
    cases threw
    exact reply.1
  | lost b e' =>
    cases threw
    exact reply.2

/-- A step of one call: the world it leaves and the calls it becomes. -/
inductive TStep (M : Machine S W) : W → Thread S → W → List (Thread S) → Prop where
  | call {w w' h op k o} (reply : M.Reply op w o w') (ok : M.allowed h w ⟨op, o⟩) :
      TStep M w ⟨.call op k, h⟩ w' [⟨k o.answer, h ++ [⟨op, o⟩]⟩]
  | fulfil {β : Type} {w w' h op post o b xs ys} {k : Except S.Err (List β) → Prog S Unit}
      (reply : M.Reply op w o w') (ok : M.allowed h w ⟨op, o⟩) (res : post o.answer = .ok b) :
      TStep M w ⟨.all (xs ++ .todo op post :: ys) k, h⟩ w'
        [⟨.all (xs ++ .done b :: ys) k, h ++ [⟨op, o⟩]⟩]
  | reject {β : Type} {w w' h op post o e xs ys} {k : Except S.Err (List β) → Prog S Unit}
      (reply : M.Reply op w o w') (ok : M.allowed h w ⟨op, o⟩) (res : post o.answer = .error e) :
      TStep M w ⟨.all (xs ++ .todo op post :: ys) k, h⟩ w'
        (⟨k (.error e), h ++ [⟨op, o⟩]⟩ ::
          (Slot.pending (xs ++ ys)).map fun op' => ⟨.detached op', h ++ [⟨op, o⟩]⟩)
  | join {β : Type} {w h bs slots} {k : Except S.Err (List β) → Prog S Unit}
      (res : Slot.results slots = some bs) :
      TStep M w ⟨.all slots k, h⟩ w [⟨k (.ok bs), h⟩]
  | fork {w h child next} : TStep M w ⟨.fork child next, h⟩ w [⟨next, h⟩, ⟨child, []⟩]
  | crash {w t} : TStep M w t w [⟨.pure (), t.hist⟩]

/-- A step of the system: a call is made, the world moves by itself, or a call takes a step. -/
inductive Step (M : Machine S W) : Sys S W → Sys S W → Prop where
  | enter {w pool p} (entry : M.entry p) : Step M ⟨w, pool⟩ ⟨w, pool ++ [⟨p, []⟩]⟩
  | env {w w' pool} (move : M.env w w') : Step M ⟨w, pool⟩ ⟨w', pool⟩
  | thread {w w' l t r ts} (step : M.TStep w t w' ts) :
      Step M ⟨w, l ++ t :: r⟩ ⟨w', l ++ ts ++ r⟩

/-- A run of the system. -/
abbrev Steps (M : Machine S W) : Sys S W → Sys S W → Prop :=
  Relation.ReflTransGen M.Step

/-- The states of the runs that begin in a world with no call in progress. -/
def Reachable (M : Machine S W) (w : W) (s : Sys S W) : Prop :=
  M.Steps ⟨w, []⟩ s

/-! ## Background programs -/

end Machine

/-- The background program that a step of a call has started. -/
def Thread.spawned (t : Thread S) (ts : List (Thread S)) : List (Prog S Unit) :=
  match t.prog, ts with
  | .fork child _, [_, _] => [child]
  | _, _ => []

/-- A thread that goes on alone has started nothing. -/
lemma Thread.spawned_singleton {t t' : Thread S} : t.spawned [t'] = [] := by
  unfold Thread.spawned
  split
  case h_1 eq => cases eq
  case h_2 => rfl

namespace Machine

variable {M : Machine S W}

/-- A run, with the background programs that its calls have started. -/
inductive Spawns (M : Machine S W) : Sys S W → List (Prog S Unit) → Sys S W → Prop where
  | refl {s} : Spawns M s [] s
  | enter {s ps w pool p} (run : Spawns M s ps ⟨w, pool⟩) (entry : M.entry p) :
      Spawns M s ps ⟨w, pool ++ [⟨p, []⟩]⟩
  | env {s ps w w' pool} (run : Spawns M s ps ⟨w, pool⟩) (move : M.env w w') :
      Spawns M s ps ⟨w', pool⟩
  | thread {s ps w w' l t r ts} (run : Spawns M s ps ⟨w, l ++ t :: r⟩) (step : M.TStep w t w' ts) :
      Spawns M s (ps ++ t.spawned ts) ⟨w', l ++ ts ++ r⟩

/-- Every run starts some background programs. -/
lemma Steps.spawns {s s' : Sys S W} (steps : M.Steps s s') : ∃ ps, M.Spawns s ps s' := by
  induction steps with
  | refl => exact ⟨[], .refl⟩
  | tail _ step ih =>
    obtain ⟨ps, run⟩ := ih
    cases step with
    | enter entry => exact ⟨ps, .enter run entry⟩
    | env move => exact ⟨ps, .env run move⟩
    | thread step => exact ⟨_, .thread run step⟩

/-! ## Worlds -/

section
variable {P : W → Prop}

/-- A reply keeps what every operation keeps of the world. -/
lemma Reply.world (exec : ∀ op w b w', M.exec op w = some (b, w') → P w → P w') {op : S.Op}
    {w w' : W} {o : Outcome S.Err (S.Res op)} (reply : M.Reply op w o w') (holds : P w) : P w' := by
  cases o with
  | done b => exact exec op w b w' reply holds
  | refused e => exact reply.2 ▸ holds
  | lost b e => exact exec op w b w' reply.1 holds

/-- A step of a thread keeps what every operation keeps of the world. -/
lemma TStep.world (exec : ∀ op w b w', M.exec op w = some (b, w') → P w → P w') {w w' : W}
    {t : Thread S} {ts : List (Thread S)} (step : M.TStep w t w' ts) (holds : P w) : P w' := by
  cases step with
  | call reply => exact reply.world exec holds
  | fulfil reply => exact reply.world exec holds
  | reject reply => exact reply.world exec holds
  | join => exact holds
  | fork => exact holds
  | crash => exact holds

/-- What the operations and the environment keep holds along every run. -/
theorem world_of_steps (exec : ∀ op w b w', M.exec op w = some (b, w') → P w → P w')
    (env : ∀ w w', M.env w w' → P w → P w') {s s' : Sys S W} (steps : M.Steps s s')
    (holds : P s.world) : P s'.world := by
  induction steps with
  | refl => exact holds
  | tail _ step ih =>
    cases step with
    | enter => exact ih
    | env move => exact env _ _ move ih
    | thread step => exact step.world exec ih

end

end Machine

end AvaSettle.Async
