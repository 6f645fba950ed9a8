import AvaSettle.Async.Settled

/-!
# What a program may do

The runs of a program that leave the world as it was: operations that only read it, and operations that
are refused. The rules put such runs together along the constructs of a program, where programs side by
side take their turns one after the other.
-/

namespace AvaSettle.Async

variable {S : Sig} {W : Type} {M : Machine S W} {rely : Hist S → W → W → Prop} {α β γ : Type}

namespace Machine

/-! ## Runs of composed programs -/

/-- A run of a program is followed by a run of what comes next. -/
lemma Runs.bind {p : Prog S α} {f : α → Prog S β} {w h a w₁ h₁ r w' h'}
    (first : M.Runs rely p w h (.ok a) w₁ h₁) (second : M.Runs rely (f a) w₁ h₁ r w' h') :
    M.Runs rely (p >>= f) w h r w' h' := by
  generalize eq : (Except.ok a : Except S.Err α) = q at first
  induction first with
  | pure =>
    cases eq
    exact second
  | throw => cases eq
  | call move reply ok _ ih => exact .call move reply ok (ih second eq)
  | fulfil move reply ok res _ ih => exact .fulfil move reply ok res (ih second eq)
  | reject move reply ok res _ ih => exact .reject move reply ok res (ih second eq)
  | join res _ ih => exact .join res (ih second eq)
  | fork _ ih => exact .fork (ih second eq)

/-- A run that throws leaves out what comes next. -/
lemma Runs.bind_error {p : Prog S α} {f : α → Prog S β} {w h e w' h'}
    (first : M.Runs rely p w h (.error e) w' h') : M.Runs rely (p >>= f) w h (.error e) w' h' := by
  generalize eq : (Except.error e : Except S.Err α) = q at first
  induction first with
  | pure => cases eq
  | throw =>
    cases eq
    exact .throw
  | call move reply ok _ ih => exact .call move reply ok (ih eq)
  | fulfil move reply ok res _ ih => exact .fulfil move reply ok res (ih eq)
  | reject move reply ok res _ ih => exact .reject move reply ok res (ih eq)
  | join res _ ih => exact .join res (ih eq)
  | fork _ ih => exact .fork (ih eq)

/-- A run that returns needs no handler. -/
lemma Runs.tryCatch {p : Prog S α} {f : S.Err → Prog S α} {w h a w' h'}
    (body : M.Runs rely p w h (.ok a) w' h') : M.Runs rely (p.tryCatch f) w h (.ok a) w' h' := by
  generalize eq : (Except.ok a : Except S.Err α) = q at body
  induction body with
  | pure =>
    cases eq
    exact .pure
  | throw => cases eq
  | call move reply ok _ ih => exact .call move reply ok (ih eq)
  | fulfil move reply ok res _ ih => exact .fulfil move reply ok res (ih eq)
  | reject move reply ok res _ ih => exact .reject move reply ok res (ih eq)
  | join res _ ih => exact .join res (ih eq)
  | fork _ ih => exact .fork (ih eq)

/-- A run that throws is followed by a run of the handler. -/
lemma Runs.catch {p : Prog S α} {f : S.Err → Prog S α} {w h e w₁ h₁ r w' h'}
    (body : M.Runs rely p w h (.error e) w₁ h₁) (handler : M.Runs rely (f e) w₁ h₁ r w' h') :
    M.Runs rely (p.tryCatch f) w h r w' h' := by
  generalize eq : (Except.error e : Except S.Err α) = q at body
  induction body with
  | pure => cases eq
  | throw =>
    cases eq
    exact handler
  | call move reply ok _ ih => exact .call move reply ok (ih handler eq)
  | fulfil move reply ok res _ ih => exact .fulfil move reply ok res (ih handler eq)
  | reject move reply ok res _ ih => exact .reject move reply ok res (ih handler eq)
  | join res _ ih => exact .join res (ih handler eq)
  | fork _ ih => exact .fork (ih handler eq)

/-- The turns of the first program, as long as it lasts. -/
abbrev firstFirst : Turns := fun _ => true

/-- Where the first goes first, the other is only started when it has come to its end. -/
lemma yielding_firstFirst {own : Turns → Prog S β → Prog S γ} {q : Prog S β}
    {w h b w' h'} (run : M.Runs rely q w h (.ok b) w' h') :
    Prog.yielding own firstFirst q = own firstFirst q := by
  cases q with
  | throw e => cases run
  | _ => rfl

/-- Two programs that take their turns one after the other. -/
lemma Runs.both {p : Prog S α} {q : Prog S β} {w h a w₁ h₁ b w' h'}
    (first : M.Runs rely p w h (.ok a) w₁ h₁) (second : M.Runs rely q w₁ h₁ (.ok b) w' h') :
    M.Runs rely (p.both firstFirst q) w h (.ok (a, b)) w' h' := by
  generalize eq : (Except.ok a : Except S.Err α) = r at first
  induction first with
  | pure =>
    cases eq
    exact Runs.bind second .pure
  | throw => cases eq
  | call move reply ok _ ih =>
    unfold Prog.both
    rw [yielding_firstFirst second]
    exact .call move reply ok (ih second eq)
  | fulfil move reply ok res _ ih =>
    have rest := ih second eq
    unfold Prog.both at rest ⊢
    rw [yielding_firstFirst second] at rest ⊢
    exact .fulfil move reply ok res rest
  | reject move reply ok res _ ih =>
    unfold Prog.both
    rw [yielding_firstFirst second]
    exact .reject move reply ok res (ih second eq)
  | join res _ ih =>
    unfold Prog.both
    rw [yielding_firstFirst second]
    exact .join res (ih second eq)
  | fork _ ih =>
    unfold Prog.both
    rw [yielding_firstFirst second]
    exact .fork (ih second eq)

/-! ## Runs that leave the world -/

/-- The program may end in `R`, and leave the world as it was. -/
def May (M : Machine S W) (rely : Hist S → W → W → Prop) (w : W) (R : Except S.Err α → Prop)
    (p : Prog S α) : Prop :=
  ∀ h, ∃ r h', M.Runs rely p w h r w h' ∧ h <+: h' ∧ R r

/-- The program may return what satisfies `A`. -/
def Returning (A : α → Prop) : Except S.Err α → Prop
  | .ok a => A a
  | .error _ => False

section
variable {w : W} {R R' : Except S.Err α → Prop} {A : α → Prop} {B : β → Prop}

/-- A weaker outcome is possible too. -/
lemma may_mono {p : Prog S α} (weaker : ∀ r, R r → R' r) (may : M.May rely w R p) :
    M.May rely w R' p := fun h =>
  let ⟨r, h', run, before, holds⟩ := may h
  ⟨r, h', run, before, weaker r holds⟩

/-- Returning is possible. -/
lemma may_pure {a : α} (holds : R (.ok a)) : M.May rely w R (.pure a) :=
  fun h => ⟨_, h, .pure, List.prefix_rfl, holds⟩

/-- The result of a computation is possible. -/
lemma may_ofExcept {x : Except S.Err α} (holds : R x) : M.May rely w R (.ofExcept x) := by
  cases x with
  | ok a => exact may_pure holds
  | error e => exact fun h => ⟨_, h, .throw, List.prefix_rfl, holds⟩

/-- An outcome is possible where some result of the first part makes it possible for the second. -/
lemma may_bind {p : Prog S α} {f : α → Prog S β} {R : Except S.Err β → Prop}
    (may : M.May rely w (fun r => match r with
      | .ok a => M.May rely w R (f a)
      | .error e => R (.error e)) p) : M.May rely w R (p >>= f) := by
  intro h
  obtain ⟨r, h₁, first, before, then_⟩ := may h
  cases r with
  | error e => exact ⟨_, h₁, first.bind_error, before, then_⟩
  | ok a =>
    obtain ⟨r, h', second, next, holds⟩ := then_ h₁
    exact ⟨r, h', first.bind second, before.trans next, holds⟩

/-- An outcome is possible where every result of the first part makes it possible for the second. -/
lemma may_bind_of {p : Prog S α} {f : α → Prog S β} {R : Except S.Err β → Prop}
    (may : M.May rely w (Returning A) p) (next : ∀ a, A a → M.May rely w R (f a)) :
    M.May rely w R (p >>= f) := by
  refine may_bind (may_mono (fun r returned => ?_) may)
  cases r with
  | ok a => exact next a returned
  | error e => exact returned.elim

/-- An operation that reads the world. -/
lemma may_await {op : S.Op} {b : S.Res op} {R : Except S.Err (S.Res op) → Prop}
    (refl : ∀ h, rely h w w) (free : ∀ h, M.allowed h w ⟨op, .done b⟩)
    (reads : M.exec op w = some (b, w)) (holds : R (.ok b)) : M.May rely w R (.await op) :=
  fun h => ⟨_, h ++ [⟨op, .done b⟩], .call (o := .done b) (refl h) reads (free _) .pure,
    List.prefix_append _ _, holds⟩

/-- An operation that is refused. -/
lemma may_refuse {op : S.Op} {e : S.Err} {R : Except S.Err (S.Res op) → Prop}
    (refl : ∀ h, rely h w w) (free : ∀ h e, M.allowed h w e) (raises : M.raises op e = true)
    (holds : R (.error e)) : M.May rely w R (.await op) :=
  fun h => ⟨_, h ++ [⟨op, .refused e⟩],
    .call (o := .refused e) (refl h) ⟨raises, rfl⟩ (free _ _) .throw, List.prefix_append _ _, holds⟩

/-- A program whose errors are caught. -/
lemma may_tryCatch {p : Prog S α} {f : S.Err → Prog S α} (may : M.May rely w (fun r => match r with
      | .ok a => R (.ok a)
      | .error e => M.May rely w R (f e)) p) : M.May rely w R (p.tryCatch f) := by
  intro h
  obtain ⟨r, h₁, body, before, then_⟩ := may h
  cases r with
  | ok a => exact ⟨_, h₁, body.tryCatch, before, then_⟩
  | error e =>
    obtain ⟨r, h', handler, next, holds⟩ := then_ h₁
    exact ⟨r, h', body.catch handler, before.trans next, holds⟩

/-- Two programs side by side can return what each can. -/
lemma may_both {p : Prog S α} {q : Prog S β} (mayp : M.May rely w (Returning A) p)
    (mayq : M.May rely w (Returning B) q) :
    M.May rely w (Returning fun r => A r.1 ∧ B r.2) (p.both firstFirst q) := by
  intro h
  obtain ⟨_ | a, h₁, first, before, holds⟩ := mayp h
  · exact holds.elim
  · obtain ⟨_ | b, h', second, next, holds'⟩ := mayq h₁
    · exact holds'.elim
    · exact ⟨_, h', first.both second, before.trans next, holds, holds'⟩

/-- A settled program can return. -/
lemma may_settle {p : Prog S α} (may : M.May rely w R p) :
    M.May rely w (Returning fun _ => True) p.settle := by
  refine may_tryCatch (may_bind (may_mono (fun r _ => ?_) may))
  cases r with
  | ok a => exact may_pure trivial
  | error e => exact may_pure (R := Returning fun _ => True) trivial

/-- Programs that may end leave nothing undone side by side. -/
lemma may_allSettled {ps : List (Prog S α)} (each : ∀ p ∈ ps, M.May rely w (fun _ => True) p) :
    M.May rely w (Returning fun _ => True) (Prog.allSettled ps fun _ => firstFirst) := by
  induction ps with
  | nil => exact may_pure trivial
  | cons p ps ih =>
    have rest := ih fun q mem => each q (List.mem_cons_of_mem _ mem)
    exact may_bind_of (may_both (may_settle (each p List.mem_cons_self)) rest)
      fun _ _ => may_pure trivial

/-- The slot awaits an operation that reads the world. -/
def ReadsSlot (M : Machine S W) (w : W) (s : Slot S β) : Prop :=
  ∃ op post a b, s = .todo op post ∧ M.exec op w = some (a, w) ∧ post (.ok a) = .ok b

/-- Calls that read the world, performed in their order. -/
lemma may_promiseAll {slots : List (Slot S β)} (refl : ∀ h, rely h w w)
    (free : ∀ h op b, M.allowed h w ⟨op, .done b⟩) (each : ∀ s ∈ slots, M.ReadsSlot w s) :
    M.May rely w (Returning fun _ => True) (.promiseAll slots) := by
  suffices ∀ (bs : List β) (h : Hist S), ∃ cs h',
      M.Runs rely (.all (bs.map .done ++ slots) .ofExcept) w h (.ok cs) w h' ∧ h <+: h' by
    intro h
    obtain ⟨cs, h', run, before⟩ := this [] h
    exact ⟨_, h', run, before, trivial⟩
  induction slots with
  | nil =>
    intro bs h
    rw [List.append_nil]
    exact ⟨bs, h, .join results_done .pure, List.prefix_rfl⟩
  | cons s slots ih =>
    intro bs h
    obtain ⟨op, post, a, b, rfl, reads, res⟩ := each _ List.mem_cons_self
    obtain ⟨cs, h', run, before⟩ := ih (fun s mem => each s (List.mem_cons_of_mem _ mem)) (bs ++ [b])
      (h ++ [⟨op, .done a⟩])
    rw [List.map_append, List.append_assoc] at run
    exact ⟨cs, h', .fulfil (o := .done a) (refl h) reads (free _ _ _) res run,
      (List.prefix_append _ _).trans before⟩

end

end Machine

end AvaSettle.Async
