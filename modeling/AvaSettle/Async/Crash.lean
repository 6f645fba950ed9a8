import AvaSettle.Async.Session

/-!
# Calls that are cut short

The runs of a single call whose process may stop between any two operations. A run has a result where
the call came to its end, and none where it was cut short. `safe` is the weakest precondition over
these runs: its postcondition holds wherever the call stops.
-/

namespace AvaSettle.Async

variable {S : Sig} {W : Type} {M : Machine S W} {rely : Hist S → W → W → Prop} {α β : Type}

/-- A run of a call to its end, or to where it was cut short. -/
inductive Machine.Stops (M : Machine S W) (rely : Hist S → W → W → Prop) {α : Type} :
    Prog S α → W → Hist S → Option (Except S.Err α) → W → Hist S → Prop where
  | crash {p w h} : Stops M rely p w h none w h
  | pure {a w h} : Stops M rely (.pure a) w h (some (.ok a)) w h
  | throw {e w h} : Stops M rely (.throw e) w h (some (.error e)) w h
  | call {op k w w₁ w₂ w' h h' o r} (move : rely h w w₁) (reply : M.Reply op w₁ o w₂)
      (ok : M.allowed h w₁ ⟨op, o⟩) (rest : Stops M rely (k o.answer) w₂ (h ++ [⟨op, o⟩]) r w' h') :
      Stops M rely (.call op k) w h r w' h'
  | fulfil {β : Type} {op post w w₁ w₂ w' h h' o r b xs ys} {k : Except S.Err (List β) → Prog S α}
      (move : rely h w w₁) (reply : M.Reply op w₁ o w₂) (ok : M.allowed h w₁ ⟨op, o⟩)
      (res : post o.answer = .ok b)
      (rest : Stops M rely (.all (xs ++ .done b :: ys) k) w₂ (h ++ [⟨op, o⟩]) r w' h') :
      Stops M rely (.all (xs ++ .todo op post :: ys) k) w h r w' h'
  | reject {β : Type} {op post w w₁ w₂ w' h h' o r e xs ys} {k : Except S.Err (List β) → Prog S α}
      (move : rely h w w₁) (reply : M.Reply op w₁ o w₂) (ok : M.allowed h w₁ ⟨op, o⟩)
      (res : post o.answer = .error e)
      (rest : Stops M rely (k (.error e)) w₂ (h ++ [⟨op, o⟩]) r w' h') :
      Stops M rely (.all (xs ++ .todo op post :: ys) k) w h r w' h'
  | join {β : Type} {w w' h h' r bs slots} {k : Except S.Err (List β) → Prog S α}
      (res : Slot.results slots = some bs) (rest : Stops M rely (k (.ok bs)) w h r w' h') :
      Stops M rely (.all slots k) w h r w' h'
  | fork {child next w w' h h' r} (rest : Stops M rely next w h r w' h') :
      Stops M rely (.fork child next) w h r w' h'

/-- A postcondition of a call that may be cut short. -/
abbrev Stop (S : Sig) (W α : Type) := Option (Except S.Err α) → W → Hist S → Prop

namespace Machine

/-- A run to the end is a run. -/
theorem Runs.stops {p : Prog S α} {w w' h h' r} (run : M.Runs rely p w h r w' h') :
    M.Stops rely p w h (some r) w' h' := by
  induction run with
  | pure => exact .pure
  | throw => exact .throw
  | call move reply ok _ ih => exact .call move reply ok ih
  | fulfil move reply ok res _ ih => exact .fulfil move reply ok res ih
  | reject move reply ok res _ ih => exact .reject move reply ok res ih
  | join res _ ih => exact .join res ih
  | fork _ ih => exact .fork ih

/-- `J` is kept by every call of a `Promise.all`, gives `Q` on the way and `K` when it is over. -/
structure Held (M : Machine S W) (rely : Hist S → W → W → Prop)
    (J : List (Slot S β) → W → Hist S → Prop) (Q : W → Hist S → Prop) (K : End S W (List β)) :
    Prop extends M.Kept rely J K where
  /-- The process may stop here. -/
  here : ∀ {slots w h}, J slots w h → Q w h

/-- The weakest precondition of a call that may be cut short. -/
def safe (M : Machine S W) (rely : Hist S → W → W → Prop) :
    Prog S α → Stop S W α → W → Hist S → Prop
  | .pure a, Q, w, h => Q none w h ∧ Q (some (.ok a)) w h
  | .throw e, Q, w, h => Q none w h ∧ Q (some (.error e)) w h
  | .call op k, Q, w, h => Q none w h ∧ M.Leads rely op (fun o => M.safe rely (k o.answer) Q) w h
  | .all slots k, Q, w, h =>
    ∃ J, M.Held rely J (Q none) (fun r => M.safe rely (k r) Q) ∧ J slots w h
  | .fork _ next, Q, w, h => M.safe rely next Q w h

/-- The process may stop at once. -/
lemma safe_here {p : Prog S α} {Q : Stop S W α} {w h} (hp : M.safe rely p Q w h) : Q none w h := by
  induction p with
  | pure a => exact hp.1
  | throw e => exact hp.1
  | call op k ih => exact hp.1
  | all slots k ih =>
    obtain ⟨J, held, hJ⟩ := hp
    exact held.here hJ
  | fork child next _ ih => exact ih hp

/-- The rule of consequence. -/
lemma safe_mono {p : Prog S α} {Q Q' : Stop S W α} {w h} (hQ : ∀ r w h, Q r w h → Q' r w h)
    (hp : M.safe rely p Q w h) : M.safe rely p Q' w h := by
  induction p generalizing w h with
  | pure a => exact ⟨hQ _ _ _ hp.1, hQ _ _ _ hp.2⟩
  | throw e => exact ⟨hQ _ _ _ hp.1, hQ _ _ _ hp.2⟩
  | call op k ih => exact ⟨hQ _ _ _ hp.1, leads_mono (fun o _ _ => ih o.answer hQ) hp.2⟩
  | all slots k ih =>
    obtain ⟨J, held, hJ⟩ := hp
    exact ⟨J, ⟨kept_mono (fun r _ _ => ih r hQ) held.toKept, fun hJ => hQ _ _ _ (held.here hJ)⟩, hJ⟩
  | fork child next _ ih => exact ih hQ hp

/-- The rule of sequencing. -/
theorem safe_bind {p : Prog S α} {f : α → Prog S β} {Q : Stop S W β} {w h}
    (hp : M.safe rely p (fun r w h => match r with
      | none => Q none w h
      | some (.ok a) => M.safe rely (f a) Q w h
      | some (.error e) => Q (some (.error e)) w h) w h) : M.safe rely (p >>= f) Q w h := by
  change M.safe rely (p.bind f) Q w h
  induction p generalizing w h with
  | pure a => exact hp.2
  | throw e => exact hp
  | call op k ih => exact ⟨hp.1, leads_mono (fun o _ _ => ih o.answer) hp.2⟩
  | all slots k ih =>
    obtain ⟨J, held, hJ⟩ := hp
    exact ⟨J, ⟨kept_mono (fun r _ _ => ih r) held.toKept, fun hJ => held.here hJ⟩, hJ⟩
  | fork child next _ ih => exact ih hp

/-- Sequencing with a named postcondition of the first half. -/
theorem safe_bind_of {p : Prog S α} {f : α → Prog S β} {P : Stop S W α} {Q : Stop S W β} {w h}
    (hp : M.safe rely p P w h) (none : ∀ w h, P none w h → Q none w h)
    (ok : ∀ a w h, P (some (.ok a)) w h → M.safe rely (f a) Q w h)
    (error : ∀ e w h, P (some (.error e)) w h → Q (some (.error e)) w h) :
    M.safe rely (p >>= f) Q w h := by
  refine safe_bind (safe_mono (fun r w h post => ?_) hp)
  match r with
  | .none => exact none w h post
  | some (.ok a) => exact ok a w h post
  | some (.error e) => exact error e w h post

/-- A computed result is reached at once, or the process stops before it. -/
lemma safe_ofExcept {x : Except S.Err α} {Q : Stop S W α} {w h} (here : Q none w h)
    (hQ : Q (some x) w h) : M.safe rely (.ofExcept x) Q w h := by
  cases x with
  | ok a => exact ⟨here, hQ⟩
  | error e => exact ⟨here, hQ⟩

/-- An operation leaves the process stopped or goes on with the answer. -/
lemma safe_await {op : S.Op} {Q : Stop S W (S.Res op)} {w h} (here : Q none w h)
    (leads : M.Leads rely op (fun o w h => Q none w h ∧ Q (some o.answer) w h) w h) :
    M.safe rely (.await op) Q w h :=
  ⟨here, leads_mono (fun _ _ _ post => safe_ofExcept post.1 post.2) leads⟩

/-- A program keeps an assertion that each of the operations it uses keeps. -/
theorem safe_uses {P : S.Op → Prop} {R : W → Hist S → Prop}
    (keep : ∀ o w h, P o → R w h → M.Leads rely o (fun _ => R) w h) {p : Prog S α}
    (uses : p.Uses P fun _ => True) {w h} (hR : R w h) : M.safe rely p (fun _ => R) w h := by
  induction p generalizing w h with
  | pure a => exact ⟨hR, hR⟩
  | throw e => exact ⟨hR, hR⟩
  | call op k ih =>
    refine ⟨hR, leads_mono (fun o w h hR => ?_) (keep op w h uses.1 hR)⟩
    cases o.answer with
    | ok b => exact ih _ (uses.2.1 b) hR
    | error e => exact ih _ (uses.2.2 e trivial) hR
  | all slots k ih =>
    refine ⟨fun slots w h => (∀ s ∈ slots, Prog.SlotUses P (fun _ => True) s) ∧ R w h,
      ⟨⟨?_, ?_⟩, fun hJ => hJ.2⟩, uses.1, hR⟩
    · rintro xs op post ys w h ⟨hP, hR⟩
      have slot := hP (.todo op post) (by simp)
      exact leads_mono (fun o w h hR => ⟨fun b _ => ⟨Prog.slotUses_fulfil hP, hR⟩,
        fun e _ => ih _ (uses.2.2 e trivial) hR⟩) (keep op w h slot.1 hR)
    · rintro slots bs w h ⟨-, hR⟩ -
      exact ih _ (uses.2.1 bs) hR
  | fork child next _ _ => exact uses.elim

/-- Every run of a call, to its end or cut short, meets its weakest precondition. -/
theorem safe_sound {p : Prog S α} {Q : Stop S W α} {w w' h h' r} (run : M.Stops rely p w h r w' h')
    (hp : M.safe rely p Q w h) : Q r w' h' := by
  induction run with
  | crash => exact safe_here hp
  | pure => exact hp.2
  | throw => exact hp.2
  | call move reply ok _ ih => exact ih (hp.2 _ _ _ move reply ok)
  | fulfil move reply ok res _ ih =>
    obtain ⟨J, held, hJ⟩ := hp
    exact ih ⟨J, held, (held.step hJ _ _ _ move reply ok).1 _ res⟩
  | reject move reply ok res _ ih =>
    obtain ⟨J, held, hJ⟩ := hp
    exact ih ((held.step hJ _ _ _ move reply ok).2 _ res)
  | join res _ ih =>
    obtain ⟨J, held, hJ⟩ := hp
    exact ih (held.join hJ res)
  | fork _ ih => exact ih hp

end Machine

end AvaSettle.Async
