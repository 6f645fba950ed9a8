import AvaSettle.Async.Completion
import AvaSettle.Payouts.Identity
import AvaSettle.Payouts.Trail

/-!
# Payouts that are left behind

An authorization claims its payouts, and records that it has, before its `try` begins, and gives them up
one by one. What the handlers give up is what the call still holds, so that a payout is left in
`authorized` just when something throws where nothing is given up: a claim, once the call holds a payout,
the audit event of the claims, or a write that would give a payout up.
-/

namespace AvaSettle.Payouts.Stranded
open Async
open Blockchain
open Trail (moves Moved throws calls IsPlain moved_append throws_append moves_of_performed
  plain_of_asks plain_toResponse plain_requirePayout payouts_of_audit notConflict_of_raises)

/-! ## What a history says -/

/-- The call has claimed the payout, and has not moved it on. -/
def Holds (id : Uuid) (h : Hist Api) : Prop :=
  Moved id .authorized h ∧ ∀ status, Moved id status h → status = .authorized

/-- The row of the payout is authorized. -/
def Authorized (id : Uuid) (w : World) : Prop :=
  ∃ r, w.payouts.find? id = some r ∧ r.status = .authorized

/-- The payout is still in `authorized`, where the call has left it. -/
def Stuck (id : Uuid) (w : World) (h : Hist Api) : Prop := Holds id h ∧ Authorized id w

/-- The operation throws where nothing is given up: a claim, the audit event of a claim, or a write that
    gives a payout up and is not performed. -/
def strands : Event Api → Bool
  | ⟨.payoutUpdate _ patch _, o⟩ => decide (patch.status = some .authorized) && o.threw ||
      decide (patch.status = some .prepared ∨ patch.status = some .failed) && o.performed.isNone
  | ⟨.auditInsert input, o⟩ => decide (input.type = .payoutAuthorized) && o.threw
  | _ => false

/-- The call has claimed a payout, and something threw where nothing is given up. -/
def Strands (h : Hist Api) : Prop :=
  (∃ id, Moved id .authorized h) ∧ ∃ e ∈ h, strands e = true

/-- Nobody moves a payout that the call holds out of `authorized`. -/
def Undisturbed (h : Hist Api) (w w' : World) : Prop :=
  ∀ id, Holds id h → Authorized id w → Authorized id w'

/-! ## Operations -/

/-- The operation neither writes payouts nor records that one has been authorized. -/
def IsCalm : Call → Prop
  | .payoutUpdate _ _ _ => False
  | .payoutInsert _ => False
  | .auditInsert input => input.type ≠ .payoutAuthorized
  | _ => True

/-- The write that claims a payout. -/
abbrev claim (id : Uuid) (now : Timestamp) : Call := .payoutUpdate id (claimPatch now) (some [.prepared])

/-- The operation is calm, or moves a payout on. -/
def IsOwn (c : Call) : Prop :=
  IsCalm c ∨ ∃ id patch status, c = updateAuthorized id patch ∧ patch.status = some status ∧
    status ≠ .authorized

/-- What may be in flight when the call is over. -/
def IsRest (c : Call) : Prop := IsOwn c ∨ ∃ input, c = .auditInsert input

section
variable {id id' : Uuid} {h : Hist Api} {e : Event Api} {c : Call} {o : Outcome Exception c.Res}
  {status : PayoutStatus} {patch : PayoutPatch} {w w' : World}

/-- A plain operation is calm. -/
lemma calm_of_plain (plain : IsPlain c) : IsCalm c := by
  cases c <;> first | exact plain.elim | trivial

/-- A calm operation moves no row. -/
lemma IsCalm.moves (calm : IsCalm c) : moves id status ⟨c, o⟩ = false := by
  cases c <;> first | exact calm.elim | rfl

/-- A calm operation strands nothing. -/
lemma IsCalm.strands (calm : IsCalm c) : strands ⟨c, o⟩ = false := by
  cases c <;> first | exact calm.elim | rfl | exact Bool.and_eq_false_iff.2 (.inl (decide_eq_false calm))

/-- A calm operation leaves the payouts. -/
lemma IsCalm.writes (calm : IsCalm c) : c.writes ≠ some .payouts := by
  cases c <;> first | exact calm.elim | nofun

/-- The rows after an operation that does not write payouts. -/
lemma payouts_of_reply (writes : c.writes ≠ some .payouts) (reply : calls.Reply c w o w') :
    w'.payouts = w.payouts := by
  cases o with
  | done b => exact (World.exec_frame reply).payouts writes
  | refused e => exact congrArg World.payouts reply.2
  | lost b e => exact (World.exec_frame reply.1).payouts writes

/-- The rows after an update. -/
lemma find?_updatePayout {g : Option (List PayoutStatus)} :
    (w.updatePayout id patch g).2.payouts.find? id' = (w.payouts.find? id').map fun r =>
      if decide (id' = id) && g.all (fun l => decide (r.status ∈ l)) then patch.applyTo w.now r else r :=
  Data.Table.find?_update _ _ _ _ _

/-- An update that is performed, or not. -/
lemma update_cases {g : Option (List PayoutStatus)} {o : Outcome Exception (Option PayoutRecord)}
    (reply : calls.Reply (.payoutUpdate id patch g) w o w') :
    o.performed = none ∧ o.threw = true ∧ w' = w ∨
      o.performed = some (w.updatePayout id patch g).1 ∧ w' = (w.updatePayout id patch g).2 := by
  cases o with
  | done b =>
    obtain ⟨rfl, rfl⟩ := Prod.mk.inj (Option.some.inj reply)
    exact .inr ⟨rfl, rfl⟩
  | refused e => exact .inl ⟨rfl, rfl, reply.2⟩
  | lost b e =>
    obtain ⟨rfl, rfl⟩ := Prod.mk.inj (Option.some.inj reply.1)
    exact .inr ⟨rfl, rfl⟩

/-- An update moves the rows of its payout only. -/
lemma of_moves {g : Option (List PayoutStatus)} {o : Outcome Exception (Option PayoutRecord)}
    (moved : moves id' status ⟨.payoutUpdate id patch g, o⟩ = true) :
    id = id' ∧ patch.status = some status ∧ ∃ r, o.performed = some (some r) := by
  simp only [moves, Bool.and_eq_true, decide_eq_true_eq] at moved
  obtain ⟨⟨key, eq⟩, performed⟩ := moved
  refine ⟨key, eq, ?_⟩
  cases o with
  | refused e => cases performed
  | done b =>
    obtain ⟨r, rfl⟩ := Option.isSome_iff_exists.1 (show b.isSome = true from performed)
    exact ⟨r, rfl⟩
  | lost b e =>
    obtain ⟨r, rfl⟩ := Option.isSome_iff_exists.1 (show b.isSome = true from performed)
    exact ⟨r, rfl⟩

/-- A row of another payout stays authorized. -/
lemma authorized_of_ne {g : Option (List PayoutStatus)} (ne : id' ≠ id) (authorized : Authorized id' w) :
    Authorized id' (w.updatePayout id patch g).2 := by
  obtain ⟨r, row, status⟩ := authorized
  exact ⟨r, by simp [find?_updatePayout, row, ne], status⟩

/-- A guarded write to a row that is authorized finds it. -/
lemma isSome_of_authorized (authorized : Authorized id w) :
    (w.updatePayout id patch (some [.authorized])).1.isSome = true := by
  obtain ⟨r, row, status⟩ := authorized
  change (Data.Table.update _ _ _ _).1.isSome = true
  simp [Data.Table.update, row, status]

/-- A claim does not find a row that is authorized. -/
lemma isNone_of_authorized (authorized : Authorized id w) :
    (w.updatePayout id patch (some [.prepared])).1 = none := by
  obtain ⟨r, row, status⟩ := authorized
  change (Data.Table.update _ _ _ _).1 = none
  simp [Data.Table.update, row, status]

/-! ## Histories -/

/-- What the call holds once one more event has passed. -/
lemma holds_append (still : ∀ status, moves id status e = false) :
    Holds id (h ++ [e]) ↔ Holds id h := by
  simp [Holds, moved_append, still]

/-- What the call holds after an operation that moves no row to `authorized` it held before. -/
lemma holds_of_append (still : moves id .authorized e = false) (holds : Holds id (h ++ [e])) :
    Holds id h := by
  refine ⟨(moved_append.1 holds.1).resolve_right (by simp [still]), fun status moved => ?_⟩
  exact holds.2 status (moved_append.2 (.inl moved))

/-- The payouts that the call holds are authorized. -/
def Kept (w : World) (h : Hist Api) : Prop := ∀ id, Holds id h → Authorized id w

/-- Nothing has thrown where nothing is given up. -/
def Clean (h : Hist Api) : Prop := ∀ e ∈ h, strands e = false

/-- The rest of the world keeps what is held. -/
lemma Kept.rely (kept : Kept w h) (move : Undisturbed h w w') : Kept w' h :=
  fun id holds => move id holds (kept id holds)

/-- A history stays clean with an event that strands nothing. -/
lemma Clean.append (clean : Clean h) (calm : strands e = false) : Clean (h ++ [e]) := by
  intro e' mem
  rcases List.mem_append.1 mem with mem | mem
  · exact clean e' mem
  · exact List.mem_singleton.1 mem ▸ calm

/-- More operations have thrown. -/
lemma throws_le : (throws h).length ≤ (throws (h ++ [e])).length := by
  rw [throws_append]
  exact Nat.le_add_right _ _

/-- One more operation has thrown. -/
lemma throws_of_threw (threw : e.outcome.threw = true) :
    (throws (h ++ [e])).length = (throws h).length + 1 := by
  rw [throws_append, if_pos threw]

/-- An update whose answer is lost, or that is answered, strands nothing where it claims nothing. -/
lemma strands_of_performed {g : Option (List PayoutStatus)}
    {o : Outcome Exception (Option PayoutRecord)} (eq : patch.status = some status)
    (ne : status ≠ .authorized) (performed : o.performed.isSome = true) :
    strands ⟨.payoutUpdate id patch g, o⟩ = false := by
  obtain ⟨b, found⟩ := Option.isSome_iff_exists.1 performed
  simp [strands, eq, ne, found]

/-- A payout is not held any more once its write has been performed. -/
lemma released {o : Outcome Exception (Option PayoutRecord)} (kept : Kept w h)
    (eq : patch.status = some status) (ne : status ≠ .authorized)
    (reply : calls.Reply (updateAuthorized id patch) w o w') (performed : o.performed.isSome = true) :
    ¬Holds id (h ++ [⟨updateAuthorized id patch, o⟩]) := by
  intro holds
  have still : moves id .authorized ⟨updateAuthorized id patch, o⟩ = false :=
    Bool.eq_false_iff.2 fun moved => ne (Option.some.inj (eq.symm.trans (of_moves moved).2.1))
  rcases update_cases reply with ⟨refused, -, -⟩ | ⟨found, -⟩
  · rw [refused] at performed
    cases performed
  · -- The row is authorized, so that the write finds it.
    obtain ⟨r, row⟩ : ∃ r, (w.updatePayout id patch (some [.authorized])).1 = some r :=
      Option.isSome_iff_exists.1 (isSome_of_authorized (kept id (holds_of_append still holds)))
    have moved : moves id status ⟨updateAuthorized id patch, o⟩ = true :=
      moves_of_performed eq (found.trans (congrArg some row))
    exact ne (holds.2 status (moved_append.2 (.inr moved)))

/-- What one of the call's own operations does to what it holds. -/
lemma own_step (own : IsOwn c) (kept : Kept w h) (reply : calls.Reply c w o w') :
    Kept w' (h ++ [⟨c, o⟩]) ∧ (∀ id, Holds id (h ++ [⟨c, o⟩]) → Holds id h) ∧
      (o.threw = false → strands ⟨c, o⟩ = false) := by
  rcases own with calm | ⟨id, patch, status, rfl, eq, ne⟩
  · have still {id status} : moves id status ⟨c, o⟩ = false := calm.moves
    refine ⟨fun id holds => ?_, fun id => (holds_append fun _ => still).1, fun _ => calm.strands⟩
    rw [Authorized, payouts_of_reply calm.writes reply]
    exact kept id ((holds_append fun _ => still).1 holds)
  · have before (id') : Holds id' (h ++ [⟨updateAuthorized id patch, o⟩]) → Holds id' h :=
      holds_of_append (Bool.eq_false_iff.2 fun moved =>
        ne (Option.some.inj (eq.symm.trans (of_moves moved).2.1)))
    refine ⟨fun id' holds => ?_, before, fun answered => strands_of_performed eq ne ?_⟩
    · have authorized := kept id' (before id' holds)
      rcases update_cases reply with ⟨-, -, rfl⟩ | ⟨performed, rfl⟩
      · exact authorized
      · refine authorized_of_ne (fun same => ?_) authorized
        subst same
        exact released kept eq ne reply (by rw [performed]; rfl) holds
    · cases o with
      | done b => rfl
      | refused e => cases answered
      | lost b e => cases answered

/-- What a calm operation does to what the call holds. -/
lemma calm_step (calm : IsCalm c) (kept : Kept w h) (reply : calls.Reply c w o w') :
    Kept w' (h ++ [⟨c, o⟩]) ∧ (∀ id, Holds id (h ++ [⟨c, o⟩]) ↔ Holds id h) ∧
      strands ⟨c, o⟩ = false :=
  ⟨(own_step (.inl calm) kept reply).1, fun _ => holds_append fun _ => calm.moves, calm.strands⟩

end

/-! ## Where a call is -/

/-- The call has claimed the payouts `ids` and given up none of them. -/
structure Owns (ids : List Uuid) (ops : List Call) (w : World) (h : Hist Api) : Prop where
  calm : ∀ op ∈ ops, IsCalm op
  kept : Kept w h
  moved : ∀ id, Moved id .authorized h ↔ id ∈ ids
  only : ∀ id status, Moved id status h → status = .authorized
  clean : Clean h

/-- The call holds none but the payouts `ids`. -/
structure Past (ids : List Uuid) (ops : List Call) (w : World) (h : Hist Api) : Prop where
  own : ∀ op ∈ ops, IsOwn op
  kept : Kept w h
  held : ∀ id, Holds id h → id ∈ ids
  clean : Clean h

/-- The call holds the payouts `ids`, and none of its writes is in flight. -/
structure Holding (ids : List Uuid) (ops : List Call) (w : World) (h : Hist Api) : Prop where
  past : Past ids ops w h
  calm : ∀ op ∈ ops, IsCalm op
  nodup : ids.Nodup
  all : ∀ id ∈ ids, Holds id h

/-- The payouts that are still to be given up are among `ids`. -/
inductive Releasing (ids : List Uuid) (ops : List Call) (w : World) (h : Hist Api) : Prop where
  | many (twice : 2 ≤ (throws h).length)
  | past (past : Past ids ops w h) (thrown : 1 ≤ (throws h).length)
  | holding (holding : Holding ids ops w h)

/-- The call has claimed nothing, and will not. -/
structure Unclaimed (ops : List Call) (h : Hist Api) : Prop where
  rest : ∀ op ∈ ops, IsRest op
  unmoved : ∀ id, ¬Moved id .authorized h

/-- The call has left a payout behind. -/
structure Left (ops : List Call) (w : World) (h : Hist Api) : Prop where
  kept : Kept w h
  strands : ∃ e ∈ h, strands e = true
  holds : ∃ id, Holds id h ∧ ∀ op ∈ ops, IsRest op ∧ ∀ patch, op ≠ updateAuthorized id patch

/-- What the call still holds is given up by what is in flight. -/
structure Moving (ops : List Call) (w : World) (h : Hist Api) : Prop where
  own : ∀ op ∈ ops, IsOwn op
  kept : Kept w h
  clean : Clean h
  thrown : 1 ≤ (throws h).length ∨ ∀ op ∈ ops, IsCalm op
  covered : ∀ id, Holds id h → ∃ patch status, patch.status = some status ∧ status ≠ .authorized ∧
    updateAuthorized id patch ∈ ops

/-- Whatever else happens, the call leaves a payout behind just when something has thrown where nothing is
    given up. -/
inductive Final (ops : List Call) (w : World) (h : Hist Api) : Prop where
  | many (twice : 2 ≤ (throws h).length)
  | unclaimed (unclaimed : Unclaimed ops h)
  | left (left : Left ops w h)
  | moving (moving : Moving ops w h)

/-- An assertion outlasts what is in flight, and does not mind calm operations in flight. -/
structure Lasting (R : Midway Api World) : Prop where
  outlasts : calls.Outlasts Undisturbed R
  more : ∀ {ops ops' w h}, (∀ op ∈ ops', IsCalm op) → R ops w h → R (ops ++ ops') w h

section
variable {id : Uuid} {ids l : List Uuid} {ops ops' : List Call} {w w' : World} {h : Hist Api} {c : Call}
  {o : Outcome Exception c.Res} {R : Midway Api World}

/-- A payout in flight is another one once an operation has been performed. -/
lemma mem_of_left {xs ys : List Call} {op op' : Call} (mem : op' ∈ xs ++ ys) :
    op' ∈ xs ++ op :: ys := by
  simp only [List.mem_append, List.mem_cons] at mem ⊢
  exact mem.imp_right .inr

/-- What is left of a list of operations keeps what all of them have. -/
lemma forall_left {P : Call → Prop} {xs ys : List Call} {op : Call}
    (all : ∀ op' ∈ xs ++ op :: ys, P op') : P op ∧ ∀ op' ∈ xs ++ ys, P op' :=
  ⟨all op (by simp), fun op' mem => all op' (mem_of_left mem)⟩

/-- What holds of two lists of operations holds of both together. -/
lemma forall_more {P : Call → Prop} (all : ∀ op ∈ ops, P op) (more : ∀ op ∈ ops', P op) :
    ∀ op ∈ ops ++ ops', P op :=
  List.forall_mem_append.2 ⟨all, more⟩

/-- What may be in flight at the end claims nothing. -/
lemma IsRest.still (rest : IsRest c) : moves id .authorized ⟨c, o⟩ = false := by
  rcases rest with (calm | ⟨id', patch, status, rfl, eq, ne⟩) | ⟨input, rfl⟩
  · exact calm.moves
  · exact Bool.eq_false_iff.2 fun moved => ne (Option.some.inj (eq.symm.trans (of_moves moved).2.1))
  · rfl

/-- It keeps what the call holds. -/
lemma IsRest.kept (rest : IsRest c) (kept : Kept w h) (reply : calls.Reply c w o w') :
    Kept w' (h ++ [⟨c, o⟩]) := by
  rcases rest with own | ⟨input, rfl⟩
  · exact (own_step own kept reply).1
  · intro id holds
    rw [Authorized, payouts_of_audit reply]
    exact kept id ((holds_append fun _ => rfl).1 holds)

/-- It moves no other payout than the one that it writes. -/
lemma IsRest.still_of_ne {status : PayoutStatus} (rest : IsRest c)
    (other : ∀ patch, c ≠ updateAuthorized id patch) : moves id status ⟨c, o⟩ = false := by
  rcases rest with (calm | ⟨id', patch, status', rfl, -, -⟩) | ⟨input, rfl⟩
  · exact calm.moves
  · refine Bool.eq_false_iff.2 fun moved => other patch ?_
    rw [(of_moves moved).1]
  · rfl

/-- What the call owns outlasts calm operations. -/
lemma lasting_owns : Lasting (Owns ids) where
  more calm owns := ⟨forall_more owns.calm calm, owns.kept, owns.moved, owns.only, owns.clean⟩
  outlasts := by
    intro xs op ys w h owns w₁ o w₂ move reply _
    obtain ⟨calm, others⟩ := forall_left owns.calm
    obtain ⟨kept, -, still⟩ := calm_step calm (owns.kept.rely move) reply
    have same {id status} : Moved id status (h ++ [⟨op, o⟩]) ↔ Moved id status h := by
      rw [moved_append, calm.moves]
      simp
    exact ⟨others, kept, fun id => same.trans (owns.moved id),
      fun id status moved => owns.only id status (same.1 moved), owns.clean.append still⟩

/-- A call that holds payouts does so after calm operations. -/
lemma lasting_holding : Lasting (Holding ids) where
  more calm holding := ⟨⟨forall_more holding.past.own fun op mem => .inl (calm op mem),
    holding.past.kept, holding.past.held, holding.past.clean⟩, forall_more holding.calm calm,
    holding.nodup, holding.all⟩
  outlasts := by
    intro xs op ys w h holding w₁ o w₂ move reply _
    obtain ⟨calm, others⟩ := forall_left holding.calm
    obtain ⟨kept, same, still⟩ := calm_step calm (holding.past.kept.rely move) reply
    exact ⟨⟨fun op' mem => .inl (others op' mem), kept, fun id holds => holding.past.held id
      ((same id).1 holds), holding.past.clean.append still⟩, others, holding.nodup,
      fun id mem => (same id).2 (holding.all id mem)⟩

/-- Once something has thrown, the call's own operations keep what it holds, or something throws again. -/
lemma Past.step (past : Past ids ops w h) (thrown : 1 ≤ (throws h).length) (move : Undisturbed h w w')
    {w₂ : World} (own : IsOwn c) (reply : calls.Reply c w' o w₂) :
    2 ≤ (throws (h ++ [⟨c, o⟩])).length ∨
      Past ids ops w₂ (h ++ [⟨c, o⟩]) ∧ 1 ≤ (throws (h ++ [⟨c, o⟩])).length := by
  obtain ⟨kept, before, still⟩ := own_step own (past.kept.rely move) reply
  cases threw : o.threw with
  | true =>
    left
    rw [throws_of_threw threw]
    omega
  | false => exact .inr ⟨⟨past.own, kept, fun id holds => past.held id (before id holds),
      past.clean.append (still threw)⟩, thrown.trans throws_le⟩

/-- So it is with what a call gives up. -/
lemma lasting_releasing : Lasting (Releasing ids) where
  more calm := by
    rintro (many | ⟨past, thrown⟩ | holding)
    · exact .many many
    · exact .past ⟨forall_more past.own fun op mem => .inl (calm op mem), past.kept, past.held,
        past.clean⟩ thrown
    · exact .holding (lasting_holding.more calm holding)
  outlasts := by
    rintro xs op ys w h (many | ⟨past, thrown⟩ | holding) w₁ o w₂ move reply ok
    · exact .many (many.trans throws_le)
    · obtain ⟨own, others⟩ := forall_left past.own
      rcases past.step thrown move own reply with many | ⟨past, thrown⟩
      · exact .many many
      · exact .past ⟨others, past.kept, past.held, past.clean⟩ thrown
    · exact .holding (lasting_holding.outlasts holding w₁ o w₂ move reply ok)

/-- What is in flight gives up what the call still holds, or something throws again. -/
lemma outlasts_moving {xs ys : List Call} {op : Call} (moving : Moving (xs ++ op :: ys) w h) :
    calls.Leads Undisturbed op (fun _ w h => 2 ≤ (throws h).length ∨ Moving (xs ++ ys) w h) w h := by
  intro w₁ o w₂ move reply _
  obtain ⟨own, others⟩ := forall_left moving.own
  obtain ⟨kept, before, still⟩ := own_step own (moving.kept.rely move) reply
  have covered (answered : o.threw = false ∨ IsCalm op) (id) (holds : Holds id (h ++ [⟨op, o⟩])) :
      ∃ patch status, patch.status = some status ∧ status ≠ .authorized ∧
        updateAuthorized id patch ∈ xs ++ ys := by
    obtain ⟨patch, status, eq, ne, mem⟩ := moving.covered id (before id holds)
    refine ⟨patch, status, eq, ne, ?_⟩
    rcases List.mem_append.1 mem with mem | mem
    · exact List.mem_append_left _ mem
    · rcases List.mem_cons.1 mem with rfl | mem
      · rcases answered with answered | calm
        · refine absurd holds (released (moving.kept.rely move) eq ne reply ?_)
          cases o with
          | done b => rfl
          | refused e => cases answered
          | lost b e => cases answered
        · exact calm.elim
      · exact List.mem_append_right _ mem
  cases threw : o.threw with
  | false => exact .inr ⟨others, kept, moving.clean.append (still threw),
      moving.thrown.imp (·.trans throws_le) fun calm => (forall_left calm).2, covered (.inl threw)⟩
  | true =>
    rcases moving.thrown with thrown | calm
    · left
      rw [throws_of_threw threw]
      omega
    · obtain ⟨calm, others'⟩ := forall_left calm
      exact .inr ⟨others, kept, moving.clean.append calm.strands, .inr others', covered (.inr calm)⟩

/-- What is final stays so. -/
lemma lasting_final : Lasting Final where
  more calm := by
    have rest : ∀ op ∈ _, IsRest op := fun op mem => .inl (.inl (calm op mem))
    rintro (many | unclaimed | left | moving)
    · exact .many many
    · exact .unclaimed ⟨forall_more unclaimed.rest rest, unclaimed.unmoved⟩
    · obtain ⟨id, holds, others⟩ := left.holds
      refine .left ⟨left.kept, left.strands, id, holds, forall_more others fun op mem =>
        ⟨rest op mem, ?_⟩⟩
      rintro patch rfl
      exact (calm _ mem).elim
    · refine .moving ⟨forall_more moving.own fun op mem => .inl (calm op mem), moving.kept,
        moving.clean, moving.thrown.imp_right (forall_more · calm), fun id holds => ?_⟩
      obtain ⟨patch, status, eq, ne, mem⟩ := moving.covered id holds
      exact ⟨patch, status, eq, ne, List.mem_append_left _ mem⟩
  outlasts := by
    rintro xs op ys w h (many | unclaimed | left | moving) w₁ o w₂ move reply ok
    · exact .many (many.trans throws_le)
    · obtain ⟨rest, others⟩ := forall_left unclaimed.rest
      refine .unclaimed ⟨others, fun id moved => ?_⟩
      rcases moved_append.1 moved with moved | moved
      · exact unclaimed.unmoved id moved
      · rw [rest.still] at moved
        cases moved
    · obtain ⟨kept, ⟨e, mem, strands⟩, id, holds, all⟩ := left
      obtain ⟨⟨rest, other⟩, others⟩ := forall_left all
      exact .left ⟨rest.kept (kept.rely move) reply, ⟨e, List.mem_append_left _ mem, strands⟩, id,
        (holds_append fun _ => rest.still_of_ne other).2 holds, others⟩
    · rcases outlasts_moving moving w₁ o w₂ move reply ok with many | moving
      · exact .many many
      · exact .moving moving

/-- A calm operation keeps what lasts. -/
lemma Lasting.keeps (lasting : Lasting R) (calm : IsCalm c) (hR : R ops w h) :
    calls.Leads Undisturbed c (fun _ => R ops) w h :=
  Machine.leads_of_outlasts lasting.outlasts
    (lasting.more (fun _ mem => List.mem_singleton.1 mem ▸ calm) hR)

/-- A calm program keeps what lasts. -/
lemma cwp_calm {α : Type} {p : Method α} (uses : p.Uses IsCalm fun _ => True) (lasting : Lasting R)
    (hR : R ops w h) : calls.cwp Undisturbed p (fun _ => R) ops w h :=
  Machine.cwp_uses lasting.outlasts (fun _ _ _ _ => lasting.more) uses hR

end

/-! ## The rules -/

section
variable {id id' : Uuid} {ids l r : List Uuid} {ops ops' : List Call} {w w' : World} {h : Hist Api}
  {patch : PayoutPatch} {status : PayoutStatus} {now : Timestamp}

/-- The call owns what it holds. -/
lemma Owns.holds (owns : Owns ids ops w h) : Holds id h ↔ id ∈ ids :=
  ⟨fun holds => (owns.moved id).1 holds.1, fun mem => ⟨(owns.moved id).2 mem, owns.only id⟩⟩

/-- It does not matter in which order the payouts are named. -/
lemma Owns.congr (owns : Owns l ops w h) (same : ∀ id, id ∈ l ↔ id ∈ ids) : Owns ids ops w h :=
  ⟨owns.calm, owns.kept, fun id => (owns.moved id).trans (same id), owns.only, owns.clean⟩

/-- A call that owns payouts holds them. -/
lemma Owns.holding (owns : Owns ids ops w h) (nodup : ids.Nodup) : Holding ids ops w h :=
  ⟨⟨fun op mem => .inl (owns.calm op mem), owns.kept, fun _ => owns.holds.1, owns.clean⟩, owns.calm,
    nodup, fun _ => owns.holds.2⟩

/-- A call that owns nothing may end. -/
lemma Owns.final (owns : Owns [] ops w h) : Final ops w h :=
  .unclaimed ⟨fun op mem => .inl (.inl (owns.calm op mem)), fun id moved => by
    cases (owns.moved id).1 moved⟩

/-- A call that has given up everything may end. -/
lemma Releasing.final (releasing : Releasing [] ops w h) : Final ops w h := by
  rcases releasing with many | ⟨past, thrown⟩ | holding
  · exact .many many
  · exact .moving ⟨past.own, past.kept, past.clean, .inl thrown, fun id holds => by
      cases past.held id holds⟩
  · exact .moving ⟨holding.past.own, holding.past.kept, holding.past.clean, .inr holding.calm,
      fun id holds => by cases holding.past.held id holds⟩

/-- A call may hold fewer payouts than it is said to. -/
lemma Past.mono (past : Past l ops w h) (sub : l ⊆ ids) : Past ids ops w h :=
  ⟨past.own, past.kept, fun id holds => sub (past.held id holds), past.clean⟩

/-- A row that is authorized stays so when a payout is claimed. -/
lemma authorized_of_claim {o : Outcome Exception (Option PayoutRecord)}
    (reply : calls.Reply (claim id now) w o w') (authorized : Authorized id' w) : Authorized id' w' := by
  rcases update_cases reply with ⟨-, -, rfl⟩ | ⟨-, rfl⟩
  · exact authorized
  · by_cases same : id' = id
    · subst same
      obtain ⟨r, row, status⟩ := authorized
      exact ⟨r, by rw [find?_updatePayout, row]; simp [status], status⟩
    · exact authorized_of_ne same authorized

/-- A claim that finds a row makes it authorized, which it has not been. -/
lemma claimed_of_performed {o : Outcome Exception (Option PayoutRecord)} {a : PayoutRecord}
    (reply : calls.Reply (claim id now) w o w') (performed : o.performed = some (some a)) :
    a.id = id ∧ ¬Authorized id w ∧ Authorized id w' := by
  rcases update_cases reply with ⟨none, -, -⟩ | ⟨found, rfl⟩
  · rw [none] at performed
    cases performed
  · have found : (w.updatePayout id (claimPatch now) (some [.prepared])).1 = some a :=
      Option.some.inj (found.symm.trans performed)
    obtain ⟨r, row, holds, rfl⟩ :=
      Data.Table.of_update (show (Data.Table.update _ _ _ _).1 = _ from found)
    refine ⟨(Data.Table.key_of_find? row : r.id = id), fun authorized => ?_, ?_⟩
    · rw [isNone_of_authorized authorized] at found
      cases found
    · refine ⟨(claimPatch now).applyTo w.now r, ?_, rfl⟩
      rw [find?_updatePayout, row]
      simpa using fun ne => absurd (by simpa using holds) ne

/-- A claim moves no row to another status. -/
lemma other_of_claim {o : Outcome Exception (Option PayoutRecord)} (ne : status ≠ .authorized) :
    moves id' status ⟨claim id now, o⟩ = false :=
  Bool.eq_false_iff.2 fun moved => ne (Option.some.inj (of_moves moved).2.1).symm

/-- After a claim the call has moved its payouts to `authorized` only. -/
lemma Owns.only_claim {o : Outcome Exception (Option PayoutRecord)} (owns : Owns ids ops w h)
    (moved : Moved id' status (h ++ [⟨claim id now, o⟩])) : status = .authorized := by
  by_contra ne
  rcases moved_append.1 moved with moved | moved
  · exact ne (owns.only id' status moved)
  · rw [other_of_claim ne] at moved
    cases moved

/-- After a claim the payouts that the call holds are authorized. -/
lemma Owns.kept_claim {o : Outcome Exception (Option PayoutRecord)} (owns : Owns ids ops w h)
    (reply : calls.Reply (claim id now) w o w') : Kept w' (h ++ [⟨claim id now, o⟩]) := by
  intro id' holds
  rcases moved_append.1 holds.1 with moved | moved
  · exact authorized_of_claim reply (owns.kept id' (owns.holds.2 ((owns.moved id').1 moved)))
  · obtain ⟨rfl, -, r, performed⟩ := of_moves moved
    exact (claimed_of_performed reply performed).2.2

/-- What the call owns after a claim that has found no row. -/
lemma Owns.unfound (owns : Owns ids ops w h) (reply : calls.Reply (claim id now) w (.done none) w') :
    Owns ids ops w' (h ++ [⟨claim id now, .done none⟩]) := by
  refine ⟨owns.calm, owns.kept_claim reply, fun id' => ?_, fun id' status => owns.only_claim,
    owns.clean.append (by simp [strands, claimPatch, Outcome.threw])⟩
  rw [moved_append, owns.moved]
  refine or_iff_left fun moved => ?_
  obtain ⟨-, -, r, performed⟩ := of_moves moved
  cases performed

/-- What the call owns after a claim that has found a row. -/
lemma Owns.found {a : PayoutRecord} (owns : Owns ids ops w h)
    (reply : calls.Reply (claim id now) w (.done (some a)) w') :
    a.id = id ∧ id ∉ ids ∧ Owns (id :: ids) ops w' (h ++ [⟨claim id now, .done (some a)⟩]) := by
  obtain ⟨key, fresh, -⟩ := claimed_of_performed reply rfl
  refine ⟨key, fun mem => fresh (owns.kept id (owns.holds.2 mem)), owns.calm, owns.kept_claim reply,
    fun id' => ?_, fun id' status => owns.only_claim,
    owns.clean.append (by simp [strands, claimPatch, Outcome.threw])⟩
  rw [moved_append, owns.moved, List.mem_cons, or_comm]
  refine or_congr_left ⟨fun moved => (of_moves moved).1.symm, ?_⟩
  rintro rfl
  exact moves_of_performed rfl rfl

/-- A claim that throws leaves what the call has claimed. -/
lemma Owns.threw {o : Outcome Exception (Option PayoutRecord)} (owns : Owns ids ops w h)
    (reply : calls.Reply (claim id now) w o w') (threw : o.threw = true) :
    Final ops w' (h ++ [⟨claim id now, o⟩]) := by
  by_cases some : ∃ id', Moved id' .authorized (h ++ [⟨claim id now, o⟩])
  · obtain ⟨id', moved⟩ := some
    refine .left ⟨owns.kept_claim reply, ⟨_, List.mem_append_right _ (List.mem_singleton_self _), ?_⟩,
      id', ⟨moved, fun status => owns.only_claim⟩, fun op mem => ⟨.inl (.inl (owns.calm op mem)), ?_⟩⟩
    · simp [strands, claimPatch, threw]
    · rintro patch rfl
      exact (owns.calm _ mem).elim
  · exact .unclaimed ⟨fun op mem => .inl (.inl (owns.calm op mem)), not_exists.1 some⟩

/-- What a call owns outlasts the rest of the world. -/
lemma Owns.rely (owns : Owns ids ops w h) (move : Undisturbed h w w') : Owns ids ops w' h :=
  ⟨owns.calm, owns.kept.rely move, owns.moved, owns.only, owns.clean⟩

/-- What the claim of a payout leaves. -/
def Claiming (ids : List Uuid) (id : Uuid) : Ending Api World (Option PayoutRecord)
  | .ok none => Owns ids
  | .ok (some a) => fun ops w h => a.id = id ∧ id ∉ ids ∧ Owns (id :: ids) ops w h
  | .error _ => Final

/-- The claim of a payout. -/
lemma cwp_claim (owns : Owns ids ops w h) :
    calls.cwp Undisturbed (request (claim id now)) (Claiming ids id) ops w h := by
  refine Machine.cwp_await lasting_owns.outlasts owns fun ops w h owns w₁ o w₂ move reply _ => ?_
  have owns₁ := owns.rely move
  cases o with
  | refused e => exact owns₁.threw reply rfl
  | lost b e => exact owns₁.threw reply rfl
  | done b =>
    cases b with
    | none => exact owns₁.unfound reply
    | some a => exact owns₁.found reply

/-- The audit event of a claim. -/
lemma leads_audit {input : AuditInput} (type : input.type = .payoutAuthorized) (owns : Owns ids ops w h)
    (mem : id ∈ ids) : calls.Leads Undisturbed (.auditInsert input)
      (fun o w h => (∀ u, o.answer = .ok u → Owns ids ops w h) ∧ ∀ e, o.answer = .error e →
        ∀ more : List Call, (∀ op ∈ more, ∃ input, op = .auditInsert input) →
          Final (ops ++ more) w h) w h := by
  intro w₁ o w₂ move reply _
  have same {id status} : Moved id status (h ++ [⟨.auditInsert input, o⟩]) ↔ Moved id status h := by
    rw [moved_append]
    exact or_iff_left nofun
  have holds {id} : Holds id (h ++ [⟨.auditInsert input, o⟩]) ↔ Holds id h :=
    holds_append fun _ => rfl
  have kept := IsRest.kept (.inr ⟨input, rfl⟩) (owns.kept.rely move) reply
  refine ⟨fun u answer => ?_, fun e answer more audits => ?_⟩
  · obtain rfl := Outcome.eq_done_of_answer answer
    exact ⟨owns.calm, kept, fun id => same.trans (owns.moved id),
      fun id status moved => owns.only id status (same.1 moved),
      owns.clean.append (Bool.and_eq_false_iff.2 (.inr rfl))⟩
  · have threw := Outcome.threw_of_answer answer
    refine .left ⟨kept, ⟨_, List.mem_append_right _ (List.mem_singleton_self _), ?_⟩, id,
      holds.2 (owns.holds.2 mem), forall_more (fun op mem => ⟨.inl (.inl (owns.calm op mem)), ?_⟩)
        fun op mem => ⟨.inr (audits op mem), ?_⟩⟩
    · simp [strands, type, threw]
    · rintro patch rfl
      exact (owns.calm _ mem).elim
    · rintro patch rfl
      obtain ⟨input, eq⟩ := audits _ mem
      cases eq

/-- A write that moves a payout on, where the call holds it. -/
lemma leads_write {K : Outcome Exception (Option PayoutRecord) → World → Hist Api → Prop}
    (eq : patch.status = some status) (ne : status ≠ .authorized)
    (holding : Holding (l ++ id :: r) ops w h)
    (done : ∀ a w h, Holding (l ++ r) ops w h → K (.done (some a)) w h)
    (lost : ∀ b e w h, Past (l ++ r) ops w h → 1 ≤ (throws h).length → e.isConflict = false →
      K (.lost b e) w h)
    (refused : ∀ e w, Kept w (h ++ [⟨updateAuthorized id patch, .refused e⟩]) →
      (∀ id', Holds id' (h ++ [⟨updateAuthorized id patch, .refused e⟩]) ↔ Holds id' h) →
      e.isConflict = false → K (.refused e) w (h ++ [⟨updateAuthorized id patch, .refused e⟩])) :
    calls.Leads Undisturbed (updateAuthorized id patch) K w h := by
  intro w₁ o w₂ move reply _
  have kept₁ := holding.past.kept.rely move
  have own : IsOwn (updateAuthorized id patch) := .inr ⟨id, patch, status, rfl, eq, ne⟩
  obtain ⟨kept, before, still⟩ := own_step own kept₁ reply
  have middle := List.perm_middle.nodup_iff.1 holding.nodup
  -- Where the write is performed, the call does not hold the payout any more.
  have past (performed : o.performed.isSome = true) :
      Past (l ++ r) ops w₂ (h ++ [⟨updateAuthorized id patch, o⟩]) := by
    refine ⟨holding.past.own, kept, fun id' holds => ?_,
      holding.past.clean.append (strands_of_performed eq ne performed)⟩
    have mem := holding.past.held id' (before id' holds)
    rcases List.mem_cons.1 (List.perm_middle.mem_iff.1 mem) with rfl | mem
    · exact absurd holds (released kept₁ eq ne reply performed)
    · exact mem
  cases o with
  | refused e =>
    refine refused e w₂ kept (fun id' => holds_append fun status => Bool.eq_false_iff.2 fun moved => ?_)
      (notConflict_of_raises (c := updateAuthorized id patch) reply.1)
    obtain ⟨-, -, a, performed⟩ := of_moves moved
    cases performed
  | lost b e =>
    exact lost b e w₂ _ (past rfl) ((Nat.le_add_left 1 _).trans_eq (throws_of_threw rfl).symm)
      (notConflict_of_raises (c := updateAuthorized id patch) reply.2)
  | done b =>
    have found : b.isSome = true := by
      obtain ⟨eq', -⟩ := Prod.mk.inj (Option.some.inj reply)
      rw [← eq']
      exact isSome_of_authorized (kept₁ id (holding.all id (by simp)))
    obtain ⟨a, rfl⟩ := Option.isSome_iff_exists.1 found
    refine done a w₂ _ ⟨past rfl, holding.calm, (List.nodup_cons.1 middle).2, fun id' mem => ?_⟩
    refine (holds_append fun status => Bool.eq_false_iff.2 fun moved => ?_).2
      (holding.all id' (List.perm_middle.mem_iff.2 (List.mem_cons_of_mem _ mem)))
    exact (List.nodup_cons.1 middle).1 ((of_moves moved).1 ▸ mem)

/-- The writes that are still to come. -/
abbrev writes (patch : PayoutPatch) (ids : List Uuid) : List Call :=
  ids.map fun id => updateAuthorized id patch

/-- Writes that move payouts on are the call's own. -/
lemma own_writes (eq : patch.status = some status) (ne : status ≠ .authorized) :
    ∀ op ∈ writes patch ids, IsOwn op := by
  intro op mem
  obtain ⟨id, -, rfl⟩ := List.mem_map.1 mem
  exact .inr ⟨id, patch, status, rfl, eq, ne⟩

/-- A write that gives a payout up. -/
lemma leads_giveUp (eq : patch.status = some status) (gives : status = .prepared ∨ status = .failed)
    (releasing : Releasing (l ++ id :: r) ops w h) :
    calls.Leads Undisturbed (updateAuthorized id patch) (fun o w h =>
      (∀ b, o.answer = .ok b → Releasing (l ++ r) ops w h) ∧
        ∀ e, o.answer = .error e → Final (ops ++ writes patch (l ++ r)) w h) w h := by
  have ne : status ≠ .authorized := by rcases gives with rfl | rfl <;> nofun
  rcases releasing with many | ⟨past, thrown⟩ | holding
  · exact fun _ _ _ _ _ _ =>
      ⟨fun _ _ => .many (many.trans throws_le), fun _ _ => .many (many.trans throws_le)⟩
  · intro w₁ o w₂ move reply _
    have own : IsOwn (updateAuthorized id patch) := .inr ⟨id, patch, status, rfl, eq, ne⟩
    refine ⟨fun b answer => ?_, fun e answer => .many ?_⟩
    · obtain rfl := Outcome.eq_done_of_answer answer
      rcases past.step thrown move own reply with many | ⟨past', thrown'⟩
      · exact .many many
      · refine .past ⟨past'.own, past'.kept, fun id' holds => ?_, past'.clean⟩ thrown'
        rcases List.mem_cons.1 (List.perm_middle.mem_iff.1 (past'.held id' holds)) with rfl | mem
        · exact absurd holds (released (past.kept.rely move) eq ne reply rfl)
        · exact mem
    · rw [throws_of_threw (Outcome.threw_of_answer answer)]
      omega
  · refine leads_write eq ne holding (fun a w h holding => ?_) (fun b e w h past thrown _ => ?_)
      fun e w kept same _ => ?_
    · exact ⟨fun _ _ => .holding holding, fun e answer => by cases answer⟩
    · refine ⟨fun b answer => (by cases answer), fun _ _ => .moving ⟨forall_more past.own
        (own_writes eq ne), past.kept, past.clean, .inl thrown, fun id' holds => ?_⟩⟩
      exact ⟨patch, status, eq, ne, List.mem_append_right _ (List.mem_map_of_mem (past.held id' holds))⟩
    · refine ⟨fun b answer => (by cases answer), fun _ _ => .left
        ⟨kept, ⟨_, List.mem_append_right _ (List.mem_singleton_self _), ?_⟩, id,
          (same id).2 (holding.all id (by simp)), forall_more (fun op mem => ?_) fun op mem => ?_⟩⟩
      · rcases gives with rfl | rfl <;> simp [strands, updateAuthorized, eq, Outcome.performed]
      · refine ⟨.inl (holding.past.own op mem), ?_⟩
        rintro patch rfl
        exact (holding.calm _ mem).elim
      · refine ⟨.inl (own_writes eq ne op mem), ?_⟩
        rintro patch' rfl
        obtain ⟨id', mem, same⟩ := List.mem_map.1 mem
        injection same with same
        exact (List.nodup_cons.1 (List.perm_middle.nodup_iff.1 holding.nodup)).1 (same ▸ mem)

/-- What giving payouts up leaves. -/
def GivenUp {α : Type} : Ending Api World α
  | .ok _ => Releasing []
  | .error _ => Final

/-- The payouts are given up side by side. -/
lemma cwp_giveUpAll {claimed : List PayoutRecord} (eq : patch.status = some status)
    (gives : status = .prepared ∨ status = .failed)
    (releasing : Releasing (claimed.map PayoutRecord.id) ops w h) :
    calls.cwp Undisturbed (.promiseAll (claimed.map (batchFailSlot patch))) GivenUp ops w h := by
  refine Machine.cwp_promiseAll (J := fun slots ops w h =>
    (∀ s ∈ slots, (∃ b, s = .done b) ∨ ∃ c, s = batchFailSlot patch c) ∧
      ∃ ids, Slot.pending slots = writes patch ids ∧ Releasing ids ops w h) ⟨?_, ?_, ?_⟩
    ⟨fun s mem => ?_, _, ?_, releasing⟩
  · rintro slots xs op ys w h ⟨each, ids, pending, releasing⟩
    exact Machine.leads_mono (fun _ _ _ releasing => ⟨each, ids, pending, releasing⟩)
      (lasting_releasing.outlasts releasing)
  · rintro xs op post ys ops w h ⟨each, ids, pending, releasing⟩
    rw [Slot.pending_append, Slot.pending_todo] at pending
    obtain ⟨l, r, rfl, left, right⟩ := List.append_eq_map_iff.1 pending
    obtain ⟨id, r, rfl, rfl, right'⟩ := List.map_eq_cons_iff.1 right
    have rest : Slot.pending (xs ++ ys) = writes patch (l ++ r) := by
      rw [Slot.pending_append, writes, List.map_append, left, right']
    obtain rfl : post = fun r => r.map fun _ => () := by
      rcases each (.todo _ post) (by simp) with ⟨b, eq⟩ | ⟨c, eq⟩
      · cases eq
      · injection eq
    refine Machine.leads_mono (fun o w h after =>
      ⟨fun b res => ⟨Slot.forall_fulfil each (.inl ⟨b, rfl⟩), l ++ r, by simpa using rest, ?_⟩,
        fun e res => rest ▸ ?_⟩) (leads_giveUp eq gives releasing)
    · cases answer : o.answer with
      | ok b => exact after.1 b answer
      | error e => simp [answer, Except.map] at res
    · cases answer : o.answer with
      | ok b => simp [answer, Except.map] at res
      | error e => exact after.2 e answer
  · rintro slots bs ops w h ⟨-, ids, pending, releasing⟩ res
    obtain rfl := List.map_eq_nil_iff.1 (pending.symm.trans (Slot.pending_of_results res))
    exact releasing
  · obtain ⟨c, -, rfl⟩ := List.mem_map.1 mem
    exact .inr ⟨c, rfl⟩
  · rw [writes, List.map_map]
    exact Slot.pending_map fun _ => rfl

/-- The write of the outcome of a transfer. -/
lemma leads_record {exec : TransferExecution} (holding : Holding (l ++ id :: r) ops w h) :
    calls.Leads Undisturbed (updateAuthorized id (recordPatch exec now)) (fun o w h =>
      (∀ b, o.answer = .ok b → b.isSome = true ∧ Holding (l ++ r) ops w h) ∧ ∀ e, o.answer = .error e →
        e.isConflict = false ∧ Past (l ++ id :: r) ops w h ∧ 1 ≤ (throws h).length) w h := by
  have ne : statusOf exec.status ≠ .authorized := by cases exec.status <;> nofun
  have sub : l ++ r ⊆ l ++ id :: r := fun x mem => List.perm_middle.mem_iff.2 (List.mem_cons_of_mem _ mem)
  refine leads_write rfl ne holding (fun a w h holding => ?_) (fun b e w h past thrown other => ?_)
    fun e w kept same other => ?_
  · refine ⟨fun b answer => ?_, fun e answer => by cases answer⟩
    cases answer
    exact ⟨rfl, holding⟩
  · refine ⟨fun b answer => (by cases answer), fun e' answer => ?_⟩
    cases answer
    exact ⟨other, past.mono sub, thrown⟩
  · refine ⟨fun b answer => (by cases answer), fun e' answer => ?_⟩
    cases answer
    refine ⟨other, ⟨holding.past.own, kept, fun id' holds => holding.past.held id' ((same id').1 holds),
      holding.past.clean.append ?_⟩, (Nat.le_add_left 1 _).trans_eq (throws_of_threw rfl).symm⟩
    cases status : exec.status <;> simp [strands, updateAuthorized, recordPatch, statusOf, status]

/-- What the ledger writes of a batch leave. -/
def RecordedAll (ids : List Uuid) : Ending Api World (List (Option PayoutRecord))
  | .ok updated => fun ops w h => (∀ u ∈ updated, u.isSome = true) ∧ Releasing [] ops w h
  | .error e => fun ops w h => e.isConflict = false ∧ Past ids ops w h ∧ 1 ≤ (throws h).length

/-- What the ledger write of a single payout leaves. -/
def RecordedOne (id : Uuid) : Ending Api World (Option PayoutRecord)
  | .ok updated => fun ops w h => updated.isSome = true ∧ Releasing [] ops w h
  | .error e => fun ops w h => e.isConflict = false ∧ Past [id] ops w h ∧ 1 ≤ (throws h).length

/-- The outcome is written to the rows of a batch. -/
lemma cwp_recordAll {exec : TransferExecution} {claimed : List PayoutRecord}
    (holding : Holding (claimed.map PayoutRecord.id) ops w h) :
    calls.cwp Undisturbed (.promiseAll (claimed.map (batchRecordSlot exec now)))
      (RecordedAll (claimed.map PayoutRecord.id)) ops w h := by
  have ne : statusOf exec.status ≠ .authorized := by cases exec.status <;> nofun
  refine Machine.cwp_promiseAll (J := fun slots ops w h =>
    (∀ s ∈ slots, (∃ b, s = .done b ∧ b.isSome = true) ∨ ∃ c, s = batchRecordSlot exec now c) ∧
      ∃ ids, ids ⊆ claimed.map PayoutRecord.id ∧ Slot.pending slots = writes (recordPatch exec now) ids ∧
        Holding ids ops w h) ⟨?_, ?_, ?_⟩ ⟨fun s mem => ?_, _, List.Subset.refl _, ?_, holding⟩
  · rintro slots xs op ys w h ⟨each, ids, sub, pending, holding⟩
    exact Machine.leads_mono (fun _ _ _ holding => ⟨each, ids, sub, pending, holding⟩)
      (lasting_holding.outlasts holding)
  · rintro xs op post ys ops w h ⟨each, ids, sub, pending, holding⟩
    rw [Slot.pending_append, Slot.pending_todo] at pending
    obtain ⟨l, r, rfl, left, right⟩ := List.append_eq_map_iff.1 pending
    obtain ⟨id, r, rfl, rfl, right'⟩ := List.map_eq_cons_iff.1 right
    have rest : Slot.pending (xs ++ ys) = writes (recordPatch exec now) (l ++ r) := by
      rw [Slot.pending_append, writes, List.map_append, left, right']
    have sub' : l ++ r ⊆ claimed.map PayoutRecord.id :=
      fun x mem => sub (List.perm_middle.mem_iff.2 (List.mem_cons_of_mem _ mem))
    obtain rfl : post = fun r => r := by
      rcases each (.todo _ post) (by simp) with ⟨b, eq, -⟩ | ⟨c, eq⟩
      · cases eq
      · injection eq
    refine Machine.leads_mono (fun o w h after => ⟨fun b res => ?_, fun e res => ?_⟩)
      (leads_record holding)
    · obtain ⟨isRow, holding⟩ := after.1 b res
      exact ⟨Slot.forall_fulfil each (.inl ⟨b, rfl, isRow⟩), l ++ r, sub', by simpa using rest,
        holding⟩
    · obtain ⟨other, past, thrown⟩ := after.2 e res
      have past := past.mono sub
      exact ⟨other, ⟨forall_more past.own (rest ▸ own_writes rfl ne), past.kept, past.held, past.clean⟩,
        thrown⟩
  · rintro slots bs ops w h ⟨each, ids, -, pending, holding⟩ res
    obtain rfl := List.map_eq_nil_iff.1 (pending.symm.trans (Slot.pending_of_results res))
    refine ⟨fun u mem => ?_, .holding holding⟩
    rcases each _ (Slot.mem_of_results res mem) with ⟨b, eq, isRow⟩ | ⟨c, eq⟩
    · cases eq
      exact isRow
    · cases eq
  · obtain ⟨c, -, rfl⟩ := List.mem_map.1 mem
    exact .inr ⟨c, rfl⟩
  · rw [writes, List.map_map]
    exact Slot.pending_map fun _ => rfl

/-- What the audit events of the claims leave. -/
def Audited (ids : List Uuid) {α : Type} : Ending Api World α
  | .ok _ => Owns ids
  | .error _ => Final

/-- The audit events of the claims of a batch. -/
lemma cwp_auditAll {dto : AuthorizePayoutDto} {context : RequestContext} {claimed : List PayoutRecord}
    (owns : Owns ids ops w h) (all : ∀ c ∈ claimed, c.id ∈ ids) :
    calls.cwp Undisturbed (.promiseAll (claimed.map (batchAuthorizedSlot dto context))) (Audited ids)
      ops w h := by
  refine Machine.cwp_promiseAll (J := fun slots ops w h =>
    (∀ s ∈ slots, (∃ b, s = .done b) ∨ ∃ c ∈ claimed, s = batchAuthorizedSlot dto context c) ∧
      Owns ids ops w h) ⟨?_, ?_, ?_⟩ ⟨fun s mem => ?_, owns⟩
  · rintro slots xs op ys w h ⟨each, owns⟩
    exact Machine.leads_mono (fun _ _ _ owns => ⟨each, owns⟩) (lasting_owns.outlasts owns)
  · rintro xs op post ys ops w h ⟨each, owns⟩
    obtain ⟨c, claims, eq⟩ := (each (.todo op post) (by simp)).resolve_left (by rintro ⟨b, ⟨⟩⟩)
    cases eq
    have audits : ∀ op ∈ Slot.pending (xs ++ ys), ∃ input, op = .auditInsert input := by
      intro op mem
      obtain ⟨s, mem, eq⟩ := List.mem_filterMap.1 mem
      have slot := each s (by
        simp only [List.mem_append, List.mem_cons] at mem ⊢
        exact mem.imp_right .inr)
      rcases slot with ⟨b, rfl⟩ | ⟨c, -, rfl⟩
      · cases eq
      · cases eq
        exact ⟨_, rfl⟩
    exact Machine.leads_mono (fun o w h after => ⟨fun b res =>
      ⟨Slot.forall_fulfil each (.inl ⟨b, rfl⟩), after.1 b res⟩, fun e res => after.2 e res _ audits⟩)
      (leads_audit rfl owns (all c claims))
  · rintro slots bs ops w h ⟨-, owns⟩ -
    exact owns
  · obtain ⟨c, claims, rfl⟩ := List.mem_map.1 mem
    exact .inr ⟨c, claims, rfl⟩

end

/-! ## The calls -/

section
variable {d : Deployment} {id : Uuid} {ids : List Uuid} {ops : List Call} {w : World} {h : Hist Api}
  {dto : AuthorizePayoutDto} {context : RequestContext} {now : Timestamp}

/-- What the body of a `try` leaves. -/
def Tried (ids : List Uuid) {α : Type} : Ending Api World α
  | .ok _ => Final
  | .error _ => Releasing ids

/-- A question to the chain is calm. -/
lemma calm_of_asks {c : Call} (asks : Asks c) : IsCalm c := calm_of_plain (plain_of_asks asks)

/-- Reading the balance is calm. -/
lemma calm_getAssetBalance {asset : SettlementAsset} :
    (getAssetBalance d asset).Uses IsCalm fun _ => True :=
  Prog.uses_mono (fun _ => calm_of_asks) asks_getAssetBalance

/-- The transfer of a batch is calm. -/
lemma calm_vaultPayoutBatch {asset : SettlementAsset} {batchRef : Hex} {recipients : List Hex}
    {amountsAtomic : List Nat} :
    (vaultPayoutBatch d asset batchRef recipients amountsAtomic ids).Uses IsCalm fun _ => True :=
  uses_vaultPayoutBatch (fun _ => trivial) (fun _ _ => trivial) fun _ => calm_of_asks

/-- A response is calm. -/
lemma calm_toResponse {r : PayoutRecord} {b : Bool} : (toResponse r b).Uses IsCalm fun _ => True :=
  Prog.uses_mono (fun _ => calm_of_plain) plain_toResponse

/-- Reading the row is calm. -/
lemma calm_requirePayout : (requirePayout id context).Uses IsCalm fun _ => True :=
  Prog.uses_mono (fun _ => calm_of_plain) plain_requirePayout

/-- What the announcement of a transfer leaves: something has thrown, or nothing is held. -/
def Announced (ids : List Uuid) {α : Type} : Ending Api World α
  | .ok _ => Releasing []
  | .error _ => Releasing ids

/-- An audit event of another kind, once nothing is held. -/
lemma cwp_announce {input : AuditInput} (ids : List Uuid) (other : input.type ≠ .payoutAuthorized)
    (releasing : Releasing [] ops w h) :
    calls.cwp Undisturbed (request (.auditInsert input)) (Announced ids) ops w h := by
  refine Machine.cwp_await lasting_releasing.outlasts releasing
    fun ops w h releasing w₁ o w₂ move reply ok => ?_
  have calm : IsCalm (.auditInsert input) := other
  dsimp only
  cases answer : o.answer with
  | ok u => exact lasting_releasing.keeps calm releasing w₁ o w₂ move reply ok
  | error e =>
    change Releasing ids ops w₂ _
    have thrown := throws_of_threw (h := h) (e := ⟨.auditInsert input, o⟩)
      (Outcome.threw_of_answer answer)
    have past (past : Past [] ops w h) : Past ids ops w₂ (h ++ [⟨.auditInsert input, o⟩]) ∧
        1 ≤ (throws (h ++ [⟨.auditInsert input, o⟩])).length := by
      obtain ⟨kept, same, still⟩ := calm_step calm (past.kept.rely move) reply
      refine ⟨⟨past.own, kept, fun id holds => ?_, past.clean.append still⟩, by omega⟩
      cases past.held id ((same id).1 holds)
    rcases releasing with many | ⟨before, -⟩ | holding
    · exact .many (many.trans throws_le)
    · exact .past (past before).1 (past before).2
    · exact .past (past holding.past).1 (past holding.past).2

/-- The webhook of a transfer whose row has been written. -/
lemma cwp_announceConfirmed {status : TransferStatus} {updated : Option PayoutRecord}
    (ids : List Uuid) (isRow : updated.isSome = true) (releasing : Releasing [] ops w h) :
    calls.cwp Undisturbed (announceConfirmed status updated) (Announced ids) ops w h := by
  unfold announceConfirmed
  split
  case isFalse => exact releasing
  case isTrue =>
    obtain ⟨u, rfl⟩ := Option.isSome_iff_exists.1 isRow
    change calls.cwp Undisturbed (enqueue u.clientId "payout.confirmed" (confirmedPayload u)) _ ops w h
    unfold enqueue
    split
    case h_1 => exact releasing
    case h_2 c =>
      refine ⟨Releasing [], lasting_releasing.outlasts, releasing, fun ops w h releasing => ?_⟩
      refine Machine.leads_mono (fun o w h kept => ?_)
        (lasting_releasing.keeps (c := .outboxInsert _ _ _) trivial releasing)
      cases o.answer with
      | ok u => exact kept
      | error e => exact kept

/-- The body of the `try` of a single authorization. -/
lemma cwp_executePayout {authorized : PayoutRecord} (owns : Owns [id] ops w h) :
    calls.cwp Undisturbed (executePayout d id now dto context authorized) (Tried [id]) ops w h := by
  have failed {ops w h} (owns : Owns [id] ops w h) : Releasing [id] ops w h :=
    .holding (owns.holding (List.nodup_singleton id))
  have next {α β : Type} {p : Method α} {k : α → Method β} {ops w h}
      (uses : p.Uses IsCalm fun _ => True) (owns : Owns [id] ops w h)
      (rest : ∀ a ops w h, Owns [id] ops w h → calls.cwp Undisturbed (k a) (Tried [id]) ops w h) :
      calls.cwp Undisturbed (p >>= k) (Tried [id]) ops w h :=
    Machine.cwp_bind (cwp_calm uses lasting_owns owns) rest fun _ _ _ _ owns => failed owns
  refine next calm_getAssetBalance owns fun balance ops w h owns => ?_
  refine next (Prog.uses_require fun _ => trivial) owns fun _ ops w h owns => ?_
  refine next (uses_transferPayout (fun _ => trivial) (fun _ _ => trivial) (fun _ => calm_of_asks) rfl)
    owns fun transfer ops w h owns => ?_
  refine Machine.cwp_bind (P := RecordedOne id) (Machine.cwp_await lasting_holding.outlasts
    (owns.holding (List.nodup_singleton id)) fun ops w h holding => ?_) (fun updated ops w h recorded => ?_)
    fun e ops w h failed => .past failed.2.1 failed.2.2
  · refine Machine.leads_mono (fun o w h after => ?_) (leads_record (l := []) (r := []) holding)
    cases answer : o.answer with
    | ok b => exact ⟨(after.1 b answer).1, .holding (after.1 b answer).2⟩
    | error e => exact after.2 e answer
  · obtain ⟨isRow, releasing⟩ := recorded
    refine Machine.cwp_bind (cwp_announce [id] ?_ releasing) (fun _ ops w h releasing => ?_)
      fun _ _ _ _ failed => failed
    · cases transfer.status <;> nofun
    · exact Machine.cwp_bind (cwp_announceConfirmed [id] isRow releasing)
        (fun _ _ _ _ releasing => releasing.final) fun _ _ _ _ failed => failed

/-- The write that gives a single payout up. -/
lemma cwp_giveUp {patch : PayoutPatch} {status : PayoutStatus} (eq : patch.status = some status)
    (gives : status = .prepared ∨ status = .failed) (releasing : Releasing [id] ops w h) :
    calls.cwp Undisturbed (request (updateAuthorized id patch)) (fun _ => Final) ops w h := by
  refine Machine.cwp_await lasting_releasing.outlasts releasing fun ops w h releasing => ?_
  refine Machine.leads_mono (fun o w h after => ?_) (leads_giveUp (l := []) (r := []) eq gives releasing)
  cases answer : o.answer with
  | ok b => exact (after.1 b answer).final
  | error e => simpa using after.2 e answer

/-- A calm program ends what is final. -/
lemma cwp_final {α : Type} {p : Method α} (uses : p.Uses IsCalm fun _ => True) (final : Final ops w h) :
    calls.cwp Undisturbed p (fun _ => Final) ops w h :=
  cwp_calm uses lasting_final final

/-- The `catch` of a single authorization. -/
lemma cwp_handlePayoutError {error : Exception} (releasing : Releasing [id] ops w h) :
    calls.cwp Undisturbed (handlePayoutError id dto context error) (fun _ => Final) ops w h := by
  unfold handlePayoutError
  split
  case h_1 message =>
    exact Machine.cwp_bind (cwp_giveUp rfl (.inl rfl) releasing) (fun _ _ _ _ final => final)
      fun _ _ _ _ final => final
  case h_2 =>
    refine Machine.cwp_bind (cwp_giveUp rfl (.inr rfl) releasing)
      (fun _ ops w h final => cwp_final ?_ final) fun _ _ _ _ final => final
    have audit : IsCalm (.auditInsert ⟨.payoutFailed, id, toAuditActor context dto.approvedBy, .obj
      [("failureReason", .str (error.messageOr "Unknown broadcast failure."))]⟩) := nofun
    exact Prog.uses_bind (Prog.uses_await (S := Api) audit) fun _ =>
      Prog.uses_bind (Prog.uses_orThrow trivial) fun _ =>
        Prog.uses_bind calm_toResponse fun _ => Prog.uses_throw trivial

/-- The audit event of the claim of a single payout. -/
lemma cwp_audit {actor : AuditActor} {payload : List (String × Json)} (owns : Owns [id] ops w h) :
    calls.cwp Undisturbed (recordAudit .payoutAuthorized id actor payload) (Audited [id]) ops w h := by
  refine Machine.cwp_await lasting_owns.outlasts owns fun ops w h owns => ?_
  refine Machine.leads_mono (fun o w h after => ?_)
    (leads_audit rfl owns (List.mem_singleton_self id))
  cases answer : o.answer with
  | ok u => exact after.1 u answer
  | error e =>
    have final := after.2 e answer [] (List.forall_mem_nil _)
    rwa [List.append_nil] at final

/-- A program that comes before anything is claimed. -/
lemma cwp_before {α β : Type} {p : Method α} {k : α → Method β} (uses : p.Uses IsCalm fun _ => True)
    (owns : Owns [] ops w h)
    (rest : ∀ a ops w h, Owns [] ops w h → calls.cwp Undisturbed (k a) (fun _ => Final) ops w h) :
    calls.cwp Undisturbed (p >>= k) (fun _ => Final) ops w h :=
  Machine.cwp_bind (cwp_calm uses lasting_owns owns) rest fun _ _ _ _ owns => owns.final

/-- A single authorization. -/
lemma cwp_authorizePayout (owns : Owns [] ops w h) :
    calls.cwp Undisturbed (authorizePayout d id dto context) (fun _ => Final) ops w h := by
  refine cwp_before calm_requirePayout owns fun payout ops w h owns => ?_
  split
  case isTrue => exact cwp_final calm_toResponse owns.final
  case isFalse =>
    refine cwp_before (Prog.uses_await (S := Api) (show IsCalm .clock from trivial)) owns
      fun now ops w h owns => ?_
    refine Machine.cwp_bind (cwp_claim owns) (fun claimed ops w h claiming => ?_) fun _ _ _ _ final => final
    cases claimed with
    | none =>
      refine cwp_final (Prog.uses_bind calm_requirePayout fun current => ?_) (Owns.final claiming)
      split
      case isTrue => exact calm_toResponse
      case isFalse => exact Prog.uses_throw trivial
    | some authorized =>
      obtain ⟨rfl, -, owns⟩ := claiming
      refine Machine.cwp_bind (cwp_audit owns) (fun _ ops w h owns => ?_) fun _ _ _ _ final => final
      refine Machine.cwp_bind (P := fun _ => Final) (Machine.cwp_tryCatch (cwp_executePayout owns)
        (fun _ _ _ _ final => final) fun _ _ _ _ releasing => cwp_handlePayoutError releasing)
        (fun updated ops w h final => ?_) fun _ _ _ _ final => final
      exact cwp_final (Prog.uses_bind (Prog.uses_orThrow trivial) fun _ => calm_toResponse) final

/-! ### Batches -/

/-- What the claims of a batch leave. -/
def ClaimedAll : Ending Api World (List PayoutRecord)
  | .ok claimed => fun ops w h => (claimed.map PayoutRecord.id).Nodup ∧
      Owns (claimed.map PayoutRecord.id) ops w h
  | .error _ => Final

/-- The claims of a batch. -/
lemma cwp_claimBatch {payouts claimed : List PayoutRecord} (nodup : (claimed.map PayoutRecord.id).Nodup)
    (owns : Owns (claimed.map PayoutRecord.id) ops w h) :
    calls.cwp Undisturbed (claimBatch now payouts claimed) ClaimedAll ops w h := by
  induction payouts generalizing claimed ops w h with
  | nil => exact ⟨nodup, owns⟩
  | cons payout payouts ih =>
    refine Machine.cwp_bind (cwp_claim owns) (fun found ops w h claiming => ?_) fun _ _ _ _ final => final
    cases found with
    | none =>
      refine Machine.cwp_bind (cwp_giveUpAll rfl (.inl rfl) (.holding (Owns.holding claiming nodup)))
        (fun _ ops w h releasing => ?_) fun _ _ _ _ final => final
      exact Releasing.final releasing
    | some authorized =>
      obtain ⟨key, fresh, owns⟩ := claiming
      refine ih ?_ (owns.congr fun id => ?_)
      · rw [List.map_append, List.nodup_append_comm]
        exact List.nodup_cons.2 ⟨key ▸ fresh, nodup⟩
      · simp [key, or_comm]

/-- What the legs of a batch are announced with. -/
lemma cwp_announceLegs {exec : TransferExecution} {updated : List (Option PayoutRecord)}
    (rows : ∀ u ∈ updated, u.isSome = true) (releasing : Releasing [] ops w h) :
    calls.cwp Undisturbed (Prog.forEach (announceLeg dto context exec) updated) (Announced ids) ops w h := by
  refine Machine.cwp_forEach
    (I := fun bs ops w h => (∀ u ∈ bs, u.isSome = true) ∧ Releasing [] ops w h)
    (fun u us ops w h both => ?_) (fun _ _ _ both => both.2) ⟨rows, releasing⟩
  obtain ⟨⟨isRow, others⟩, releasing⟩ := both.imp_left List.forall_mem_cons.1
  obtain ⟨u, rfl⟩ := Option.isSome_iff_exists.1 isRow
  have other : eventOf exec.status ≠ .payoutAuthorized := by cases exec.status <;> nofun
  change calls.cwp Undisturbed (recordAudit _ _ _ _ >>= fun _ => announceConfirmed exec.status (some u)) _
    ops w h
  refine Machine.cwp_bind (cwp_announce ids other releasing) (fun _ ops w h releasing => ?_)
    fun _ _ _ _ failed => failed
  refine Machine.cwp_mono (fun r ops w h announced => ?_) (cwp_announceConfirmed ids rfl releasing)
  cases r with
  | ok u => exact ⟨others, announced⟩
  | error e => exact announced

/-- The body of the `try` of a batch. -/
lemma cwp_executeBatch {asset : SettlementAsset} {claimed : List PayoutRecord}
    (holding : Holding (claimed.map PayoutRecord.id) ops w h) :
    calls.cwp Undisturbed (executeBatch d asset now dto context claimed)
      (Tried (claimed.map PayoutRecord.id)) ops w h := by
  refine Machine.cwp_bind (cwp_calm calm_vaultPayoutBatch lasting_holding holding)
    (fun exec ops w h holding => ?_) fun _ _ _ _ holding => .holding holding
  refine Machine.cwp_bind (cwp_recordAll holding) (fun updated ops w h recorded => ?_)
    fun e ops w h failed => .past failed.2.1 failed.2.2
  exact Machine.cwp_bind (cwp_announceLegs recorded.1 recorded.2)
    (fun _ _ _ _ releasing => Releasing.final releasing) fun _ _ _ _ failed => failed

/-- The `catch` of a batch. -/
lemma cwp_handleBatchError {claimed : List PayoutRecord} {error : Exception}
    (releasing : Releasing (claimed.map PayoutRecord.id) ops w h) :
    calls.cwp Undisturbed (handleBatchError dto context claimed error) (fun _ => Final) ops w h := by
  unfold handleBatchError
  dsimp only
  split
  case isTrue =>
    exact Machine.cwp_bind (cwp_giveUpAll rfl (.inl rfl) releasing)
      (fun _ _ _ _ releasing => Releasing.final releasing) fun _ _ _ _ final => final
  case isFalse =>
    refine Machine.cwp_bind (cwp_giveUpAll rfl (.inr rfl) releasing) (fun _ ops w h releasing => ?_)
      fun _ _ _ _ final => final
    refine cwp_final (Prog.uses_bind (Prog.uses_promiseAll fun s mem => ?_) fun _ =>
      Prog.uses_throw trivial) (Releasing.final releasing)
    obtain ⟨c, -, rfl⟩ := List.mem_map.1 mem
    exact ⟨nofun, fun _ _ _ _ => trivial⟩

/-- The settlement of a batch. -/
lemma cwp_settleBatch {asset : SettlementAsset} {claimed : List PayoutRecord}
    (nodup : (claimed.map PayoutRecord.id).Nodup) (owns : Owns (claimed.map PayoutRecord.id) ops w h) :
    calls.cwp Undisturbed (settleBatch d asset now dto context claimed) (fun _ => Final) ops w h := by
  refine Machine.cwp_bind (cwp_auditAll owns fun c mem => List.mem_map_of_mem mem)
    (fun _ ops w h owns => ?_) fun _ _ _ _ final => final
  refine Machine.cwp_bind (P := fun _ => Final) (Machine.cwp_tryCatch
    (cwp_executeBatch (Owns.holding owns nodup)) (fun _ _ _ _ final => final)
    fun _ _ _ _ releasing => cwp_handleBatchError releasing) (fun updated ops w h final => ?_)
    fun _ _ _ _ final => final
  refine cwp_final (Prog.uses_promiseAll fun s mem => ?_) final
  obtain ⟨c, -, rfl⟩ := List.mem_map.1 mem
  exact ⟨trivial, fun _ _ _ _ => trivial⟩

/-- A batch. -/
lemma cwp_authorizePayoutBatch {payoutIds : List Uuid} (owns : Owns [] ops w h) :
    calls.cwp Undisturbed (authorizePayoutBatch d payoutIds dto context) (fun _ => Final) ops w h := by
  refine cwp_before (Prog.uses_require fun _ => trivial) owns fun _ ops w h owns => ?_
  split
  case h_1 => exact owns.final
  case h_2 =>
    refine cwp_before (Prog.uses_promiseAll fun s mem => ?_) owns fun payouts ops w h owns => ?_
    · obtain ⟨id, -, rfl⟩ := List.mem_map.1 mem
      exact ⟨trivial, fun _ _ _ _ => trivial⟩
    refine cwp_before (Prog.uses_orThrow trivial) owns fun first ops w h owns => ?_
    refine cwp_before (Prog.uses_require fun _ => trivial) owns fun _ ops w h owns => ?_
    refine cwp_before (Prog.uses_require fun _ => trivial) owns fun _ ops w h owns => ?_
    refine cwp_before calm_getAssetBalance owns fun balance ops w h owns => ?_
    refine cwp_before (Prog.uses_require fun _ => trivial) owns fun _ ops w h owns => ?_
    refine cwp_before (Prog.uses_await (S := Api) (show IsCalm .clock from trivial)) owns
      fun now ops w h owns => ?_
    exact Machine.cwp_bind (cwp_claimBatch .nil owns) (fun claimed ops w h claims =>
      cwp_settleBatch claims.1 claims.2) fun _ _ _ _ final => final

/-! ## What is left behind -/

/-- An authorization of a payout, or of a batch. -/
inductive Authorizes (d : Deployment) : Method Unit → Prop where
  | payout {id : Uuid} {dto : AuthorizePayoutDto} {context : RequestContext} :
    Authorizes d (authorizePayout d id dto context).discard
  | batch {payoutIds : List Uuid} {dto : AuthorizePayoutDto} {context : RequestContext} :
    Authorizes d (authorizePayoutBatch d payoutIds dto context).discard

/-- An authorization from its beginning. -/
lemma cwp_authorizes {p : Method Unit} (authorizes : Authorizes d p) :
    calls.cwp Undisturbed p (fun _ => Final) [] w [] := by
  have owns : Owns [] [] w [] := by
    refine ⟨List.forall_mem_nil _, ?_, fun id => ⟨?_, fun no => by cases no⟩, ?_, List.forall_mem_nil _⟩
    · rintro id ⟨⟨e, no, -⟩, -⟩
      cases no
    · rintro ⟨e, no, -⟩
      cases no
    · rintro id status ⟨e, no, -⟩
      cases no
  have discarded {α : Type} {p : Method α} (hp : calls.cwp Undisturbed p (fun _ => Final) [] w []) :
      calls.cwp Undisturbed p.discard (fun _ => Final) [] w [] :=
    Machine.cwp_bind hp (fun _ _ _ _ final => cwp_final (Prog.uses_pure _) final) fun _ _ _ _ final => final
  cases authorizes with
  | payout => exact discarded (cwp_authorizePayout owns)
  | batch => exact discarded (cwp_authorizePayoutBatch owns)

/-- Where an authorization is complete and at most one of its operations has thrown, none of the payouts
    that it has claimed is left in `authorized` just when nothing has thrown where nothing is given up. -/
theorem unstuck_iff {p : Method Unit} {w' : World} {r : Except Exception Unit} (authorizes : Authorizes d p)
    (run : calls.Completes Undisturbed p [] w [] r w' h) (single : (throws h).length ≤ 1) :
    (∀ id, ¬Stuck id w' h) ↔ ¬Strands h := by
  rcases Machine.cwp_sound run (fun _ => lasting_final.outlasts) (cwp_authorizes authorizes) with
    many | unclaimed | left | moving
  · omega
  · refine iff_of_true (fun id stuck => unclaimed.unmoved id stuck.1.1) ?_
    rintro ⟨⟨id, moved⟩, -⟩
    exact unclaimed.unmoved id moved
  · obtain ⟨id, holds, -⟩ := left.holds
    exact iff_of_false (fun unstuck => unstuck id ⟨holds, left.kept id holds⟩)
      fun unstranded => unstranded ⟨⟨id, holds.1⟩, left.strands⟩
  · refine iff_of_true (fun id stuck => ?_) ?_
    · obtain ⟨patch, status, -, -, mem⟩ := moving.covered id stuck.1
      cases mem
    · rintro ⟨-, e, mem, strands⟩
      rw [moving.clean e mem] at strands
      cases strands

end

/-! ## Concrete calls -/

/-- The ledger with two prepared payouts, over a chain on which the vault has no allowance. -/
def twoPrepared : World :=
  { World.sample with
    payouts := ⟨[newPayout vaultDeployment (orderDto secondAddress) .sample World.sampleId 0 400000,
      { newPayout vaultDeployment (orderDto sampleAddress) .sample secondId 0 600000 with
        externalId := "inv-2" }], by decide⟩ }

/-- A call that is evaluated until it is complete. -/
lemma exists_complete {p : Method Unit} {w : World} (fates : List (Fate Exception))
    (P : World → Hist Api → Bool)
    (res : ((calls.complete (fun _ _ _ => true) p [] fates w []).any fun q => P q.2.1 q.2.2) = true) :
    ∃ r w' h, calls.Completes Undisturbed p [] w [] r w' h ∧ P w' h = true := by
  obtain ⟨⟨r, w', h⟩, completed, holds⟩ := (Option.any_eq_true _ _).1 res
  exact ⟨r, w', h, Machine.completes_of_complete (fun _ _ _ _ => trivial) (fun _ _ _ _ row => row)
    completed, holds⟩

/-- The funder has not approved the vault, so that a batch gives its legs up again, and the write that
    gives up the first one is refused: the second one is given up all the same. -/
theorem unstuck_iff_of_batch : ∃ r w' h, calls.Completes Undisturbed
      (authorizePayoutBatch vaultDeployment [World.sampleId, secondId] {} .sample).discard [] twoPrepared []
      r w' h ∧
    Moved World.sampleId .authorized h ∧ Moved secondId .authorized h ∧ Moved secondId .prepared h ∧
      ((∀ id, ¬Stuck id w' h) ↔ ¬Strands h) := by
  obtain ⟨r, w', h, run, holds⟩ := exists_complete
    (p := (authorizePayoutBatch vaultDeployment [World.sampleId, secondId] {} .sample).discard)
    (w := twoPrepared) (.replicate 10 .done ++ [.refused .unknown, .done])
    (fun _ h => decide ((throws h).length ≤ 1) && h.any (moves World.sampleId .authorized) &&
      h.any (moves secondId .authorized) && h.any (moves secondId .prepared)) (by decide +kernel)
  simp only [Bool.and_eq_true, decide_eq_true_eq, List.any_eq_true] at holds
  obtain ⟨⟨⟨single, first⟩, second⟩, given⟩ := holds
  exact ⟨r, w', h, run, first, second, given, unstuck_iff .batch run single⟩

/-- The payout is stuck, as it can be computed. -/
def isStuck (id : Uuid) (w : World) (h : Hist Api) : Bool :=
  h.any (moves id .authorized) && (w.payouts.find? id).any (fun r => decide (r.status = .authorized)) &&
    h.all fun e => !(moves id .prepared e || moves id .broadcasted e || moves id .confirmed e ||
      moves id .failed e)

/-- What is computed to be stuck is stuck. -/
lemma stuck_of_isStuck {id : Uuid} {w : World} {h : Hist Api} (stuck : isStuck id w h = true) :
    Stuck id w h := by
  simp only [isStuck, Bool.and_eq_true, List.any_eq_true, List.all_eq_true, Bool.not_eq_true',
    Bool.or_eq_false_iff, Option.any_eq_true, decide_eq_true_eq] at stuck
  obtain ⟨⟨moved, row⟩, others⟩ := stuck
  refine ⟨⟨moved, ?_⟩, row⟩
  rintro status ⟨e, mem, eq⟩
  obtain ⟨⟨⟨prepared, broadcasted⟩, confirmed⟩, failed⟩ := others e mem
  cases status with
  | authorized => rfl
  | prepared => exact absurd eq (by simp [prepared])
  | broadcasted => exact absurd eq (by simp [broadcasted])
  | confirmed => exact absurd eq (by simp [confirmed])
  | failed => exact absurd eq (by simp [failed])

/-- The payout is left in `authorized`, something has thrown once, and nothing has been submitted. -/
def leftAuthorized (w : World) (h : Hist Api) : Bool :=
  decide ((throws h).length = 1) && decide (w.paid = []) && isStuck World.sampleId w h

/-- The audit event of the authorization cannot be inserted. -/
def auditRefused : List (Fate Exception) := .replicate 3 .done ++ [.refused .unknown]

/-- The payout is created, and the audit event of its authorization cannot be inserted: nothing has been
    submitted, and the payout is left in `authorized`. -/
theorem stuck_of_audit : ∃ s r w' h, (anyLedger Eq).Reachable .sample s ∧
    calls.Completes Undisturbed (authorizePayout asyncDeployment World.sampleId {} .sample).discard []
      s.world [] r w' h ∧
    (throws h).length = 1 ∧ w'.paid = [] ∧ Stuck World.sampleId w' h := by
  obtain ⟨s, reach, res⟩ := Machine.reachable_of_run (M := anyLedger Eq) (w := .sample) Machine.always
    Trail.prepares (fun s => (calls.complete (fun _ _ _ => true)
      (authorizePayout asyncDeployment World.sampleId {} .sample).discard [] auditRefused s.world []).any
        fun q : Except Exception Unit × World × Hist Api => leftAuthorized q.2.1 q.2.2)
    (fun _ _ _ _ => trivial) Trail.legal_prepares (by decide +kernel)
  obtain ⟨r, w', h, run, holds⟩ := exists_complete auditRefused leftAuthorized res
  simp only [leftAuthorized, Bool.and_eq_true, decide_eq_true_eq] at holds
  obtain ⟨⟨single, unpaid⟩, stuck⟩ := holds
  exact ⟨s, r, w', h, reach, run, single, unpaid, stuck_of_isStuck stuck⟩

end AvaSettle.Payouts.Stranded
