import AvaSettle.Async.Emits
import AvaSettle.Model.Frame
import AvaSettle.Payouts.Walk
import AvaSettle.Payouts.Runs

/-!
# The audit trail of an authorization

An authorization writes the outcome of the transfer to the row first and to the audit trail next, in one
`try`. Its `catch` marks the payout failed, where it is still authorized, and records the failure whether
or not the row was. So the trail contradicts the ledger just when something throws once the row has the
outcome: the write itself, whose answer is lost, or the audit event after it.
-/

namespace AvaSettle.Payouts.Trail
open Async
open Blockchain

/-! ## What a history says -/

/-- The event is recorded for the payout. -/
def records (id : Uuid) (type : AuditEventType) : Event Api → Bool
  | ⟨.auditInsert input, o⟩ => decide (input.type = type ∧ input.subjectId = id) && o.performed.isSome
  | _ => false

/-- The row of the payout is moved to the status. -/
def moves (id : Uuid) (status : PayoutStatus) : Event Api → Bool
  | ⟨.payoutUpdate id' patch _, o⟩ =>
    decide (id' = id ∧ patch.status = some status) && (o.performed.map Option.isSome).getD false
  | _ => false

/-- The operation throws when the row has the outcome of the transfer: the write of the outcome, which
    takes effect, or the audit event about it. -/
def late (id : Uuid) : Event Api → Bool
  | ⟨.payoutUpdate id' patch _, o⟩ => decide (id' = id) && patch.transactionHash.isSome && o.threw &&
      (o.performed.map Option.isSome).getD false
  | ⟨.auditInsert input, o⟩ =>
    decide (input.type = .payoutConfirmed ∨ input.type = .payoutBroadcasted) && o.threw
  | _ => false

/-- The call recorded the event for the payout. -/
def Recorded (id : Uuid) (type : AuditEventType) (h : Hist Api) : Prop := ∃ e ∈ h, records id type e = true

/-- The call moved the row of the payout to the status. -/
def Moved (id : Uuid) (status : PayoutStatus) (h : Hist Api) : Prop := ∃ e ∈ h, moves id status e = true

/-- Something threw when the row had the outcome of the transfer. -/
def Late (id : Uuid) (h : Hist Api) : Prop := ∃ e ∈ h, late id e = true

/-- The operations that threw. -/
def throws (h : Hist Api) : List (Event Api) := h.filter fun e => e.outcome.threw

/-- What the call recorded of the payout is what it did to its row. -/
structure Agrees (id : Uuid) (h : Hist Api) : Prop where
  failed : Recorded id .payoutFailed h → Moved id .failed h
  broadcasted : Recorded id .payoutBroadcasted h → Moved id .broadcasted h
  confirmed : Recorded id .payoutConfirmed h → Moved id .confirmed h

/-- Where at most one operation throws, the trail agrees with the ledger unless it threw late. -/
def Verdict (id : Uuid) (h : Hist Api) : Prop :=
  (throws h).length ≤ 1 → (Agrees id h ↔ ¬Late id h)

/-! ## The rest of the world -/

/-- The calls of the payout services, over any chain. -/
abbrev calls : Machine Api World := anyLedger fun _ _ => True

/-- Once the call has claimed the payout, nobody else writes its row while it is authorized, or makes it
    authorized again. -/
def Undisturbed (id : Uuid) (h : Hist Api) (w w' : World) : Prop :=
  Moved id .authorized h → ∀ r, w.payouts.find? id = some r →
    (r.status = .authorized → w'.payouts.find? id = some r) ∧
      (r.status ≠ .authorized → ∃ r', w'.payouts.find? id = some r' ∧ r'.status ≠ .authorized)

/-! ## Events that do not count -/

/-- Neither an event for the payout, nor a move of its row, nor a late throw. -/
structure Quiet (id : Uuid) (e : Event Api) : Prop where
  records : ∀ type, type = .payoutFailed ∨ type = .payoutBroadcasted ∨ type = .payoutConfirmed →
    records id type e = false
  moves : ∀ status, status = .failed ∨ status = .broadcasted ∨ status = .confirmed →
    moves id status e = false
  late : late id e = false

/-- The call has neither recorded, nor moved, nor thrown late anything that counts. -/
def Blank (id : Uuid) (h : Hist Api) : Prop := ∀ e ∈ h, Quiet id e

section
variable {id : Uuid} {h : Hist Api} {e : Event Api} {type : AuditEventType} {status : PayoutStatus}
  {w w' : World}

/-- What the trail has once one more event has passed. -/
lemma recorded_append : Recorded id type (h ++ [e]) ↔ Recorded id type h ∨ records id type e = true := by
  simp [Recorded, or_and_right, exists_or]

/-- Where the row has moved once one more event has passed. -/
lemma moved_append : Moved id status (h ++ [e]) ↔ Moved id status h ∨ moves id status e = true := by
  simp [Moved, or_and_right, exists_or]

/-- What has thrown late once one more event has passed. -/
lemma late_append : Late id (h ++ [e]) ↔ Late id h ∨ late id e = true := by
  simp [Late, or_and_right, exists_or]

/-- How often something has thrown once one more event has passed. -/
lemma throws_append : (throws (h ++ [e])).length = (throws h).length + if e.outcome.threw then 1 else 0 := by
  rw [throws, List.filter_append, List.length_append, ← throws]
  cases threw : e.outcome.threw <;> simp [threw]

/-- A history stays blank with a quiet event. -/
lemma Blank.append (blank : Blank id h) (quiet : Quiet id e) : Blank id (h ++ [e]) := by
  intro e' mem
  rcases List.mem_append.1 mem with mem | mem
  · exact blank e' mem
  · exact List.mem_singleton.1 mem ▸ quiet

/-- A blank history has no record of the transfer. -/
lemma Blank.recorded (blank : Blank id h)
    (counts : type = .payoutFailed ∨ type = .payoutBroadcasted ∨ type = .payoutConfirmed) :
    ¬Recorded id type h := by
  rintro ⟨e, mem, recorded⟩
  simp [(blank e mem).records type counts] at recorded

/-- A blank history has no move of the row. -/
lemma Blank.moved (blank : Blank id h)
    (counts : status = .failed ∨ status = .broadcasted ∨ status = .confirmed) : ¬Moved id status h := by
  rintro ⟨e, mem, moved⟩
  simp [(blank e mem).moves status counts] at moved

/-- A blank history has no late throw. -/
lemma Blank.late (blank : Blank id h) : ¬Late id h := by
  rintro ⟨e, mem, late⟩
  simp [(blank e mem).late] at late

/-- The trail agrees, and nothing threw late. -/
lemma verdict_of_agrees (agrees : Agrees id h) (early : ¬Late id h) : Verdict id h :=
  fun _ => iff_of_true agrees early

/-- A blank trail agrees with the moves. -/
lemma Blank.agrees (blank : Blank id h) : Agrees id h :=
  ⟨fun r => absurd r (blank.recorded (by simp)), fun r => absurd r (blank.recorded (by simp)),
    fun r => absurd r (blank.recorded (by simp))⟩

/-- A blank history gives no cause for complaint. -/
lemma Blank.verdict (blank : Blank id h) : Verdict id h := verdict_of_agrees blank.agrees blank.late

/-- An event that does not count leaves the verdict. -/
lemma Verdict.append (verdict : Verdict id h) (quiet : Quiet id e) : Verdict id (h ++ [e]) := by
  intro single
  rw [throws_append] at single
  have iff := verdict (by omega)
  have recorded {type} (counts : type = .payoutFailed ∨ type = .payoutBroadcasted ∨
      type = .payoutConfirmed) : Recorded id type (h ++ [e]) ↔ Recorded id type h := by
    rw [recorded_append, quiet.records type counts]
    simp
  have moved {status} (counts : status = .failed ∨ status = .broadcasted ∨ status = .confirmed) :
      Moved id status (h ++ [e]) ↔ Moved id status h := by
    rw [moved_append, quiet.moves status counts]
    simp
  rw [late_append, quiet.late]
  simp only [Bool.false_eq_true, or_false]
  rw [← iff]
  constructor
  · intro agrees
    exact ⟨fun r => (moved (by simp)).1 (agrees.failed ((recorded (by simp)).2 r)),
      fun r => (moved (by simp)).1 (agrees.broadcasted ((recorded (by simp)).2 r)),
      fun r => (moved (by simp)).1 (agrees.confirmed ((recorded (by simp)).2 r))⟩
  · intro agrees
    exact ⟨fun r => (moved (by simp)).2 (agrees.failed ((recorded (by simp)).1 r)),
      fun r => (moved (by simp)).2 (agrees.broadcasted ((recorded (by simp)).1 r)),
      fun r => (moved (by simp)).2 (agrees.confirmed ((recorded (by simp)).1 r))⟩

/-- The operation neither writes payouts nor records audit events. -/
def IsPlain : Call → Prop
  | .payoutUpdate _ _ _ => False
  | .payoutInsert _ => False
  | .auditInsert _ => False
  | _ => True

/-- A plain operation is quiet. -/
lemma quiet_of_plain {c : Call} (plain : IsPlain c) {o : Outcome Exception c.Res} : Quiet id ⟨c, o⟩ := by
  cases c <;> first | exact plain.elim | exact ⟨fun _ _ => rfl, fun _ _ => rfl, rfl⟩

/-- A plain operation writes elsewhere. -/
lemma writes_of_plain {c : Call} (plain : IsPlain c) : c.writes ≠ some .payouts := by
  cases c <;> first | exact plain.elim | nofun

end

/-! ## Where a call is -/

/-- The call has claimed the row, and it is authorized. -/
def Held (id : Uuid) (w : World) (h : Hist Api) : Prop :=
  Moved id .authorized h ∧ ∃ r, w.payouts.find? id = some r ∧ r.status = .authorized

/-- The call has claimed the row, and it is not authorized any more. -/
def Sealed (id : Uuid) (w : World) (h : Hist Api) : Prop :=
  Moved id .authorized h ∧ ∃ r, w.payouts.find? id = some r ∧ r.status ≠ .authorized

/-- The row has the outcome of the transfer, and something has thrown since. -/
structure Lost (id : Uuid) (w : World) (h : Hist Api) : Prop where
  sealed : Sealed id w h
  late : Late id h
  thrown : 1 ≤ (throws h).length
  unmoved : ¬Moved id .failed h

/-- The row has the outcome of the transfer, with the status `status`. -/
structure Settled (id : Uuid) (status : PayoutStatus) (w : World) (h : Hist Api) : Prop where
  sealed : Sealed id w h
  moved : Moved id status h
  early : ¬Late id h
  unmoved : ¬Moved id .failed h
  unrecorded : ∀ type, type = .payoutFailed ∨ type = .payoutBroadcasted ∨ type = .payoutConfirmed →
    ¬Recorded id type h

/-- An assertion that the rest of the world and plain operations leave alone. -/
structure Stable (id : Uuid) (R : World → Hist Api → Prop) : Prop where
  rely : ∀ {w w' h}, Undisturbed id h w w' → R w h → R w' h
  same : ∀ {w w' h}, w'.payouts = w.payouts → R w h → R w' h
  append : ∀ {w h e}, Quiet id e → R w h → R w (h ++ [e])

section
variable {id : Uuid} {h : Hist Api} {e : Event Api} {w w' : World} {R : World → Hist Api → Prop}

/-- The row that is held outlasts whatever happens beside the call. -/
lemma Held.rely (move : Undisturbed id h w w') (held : Held id w h) : Held id w' h := by
  obtain ⟨claimed, r, row, status⟩ := held
  exact ⟨claimed, r, (move claimed r row).1 status, status⟩

/-- So does the row that is sealed. -/
lemma Sealed.rely (move : Undisturbed id h w w') (row : Sealed id w h) : Sealed id w' h := by
  obtain ⟨claimed, r, row, status⟩ := row
  exact ⟨claimed, (move claimed r row).2 status⟩

/-- Holding a row with a blank history is stable. -/
lemma stable_held : Stable id fun w h => Held id w h ∧ Blank id h where
  rely move both := ⟨both.1.rely move, both.2⟩
  same eq both := ⟨⟨both.1.1, eq ▸ both.1.2⟩, both.2⟩
  append quiet both := ⟨⟨moved_append.2 (.inl both.1.1), both.1.2⟩, both.2.append quiet⟩

/-- An assertion of the history is stable that quiet events keep. -/
lemma stable_of_hist {P : Hist Api → Prop} (append : ∀ {h e}, Quiet id e → P h → P (h ++ [e])) :
    Stable id fun _ h => P h :=
  ⟨fun _ holds => holds, fun _ holds => holds, append⟩

/-- The verdict is stable. -/
lemma stable_verdict : Stable id fun _ h => Verdict id h := stable_of_hist fun quiet verdict => verdict.append quiet

/-- A blank history is stable. -/
lemma stable_blank : Stable id fun _ h => Blank id h := stable_of_hist fun quiet blank => blank.append quiet

/-- A plain operation keeps every stable assertion. -/
lemma leads_plain {c : Call} (plain : IsPlain c) (stable : Stable id R) (hR : R w h) :
    calls.Leads (Undisturbed id) c (fun _ => R) w h := by
  intro w₁ o w₂ move reply _
  refine stable.append (quiet_of_plain plain) (stable.same ?_ (stable.rely move hR))
  cases o with
  | done b => exact (World.exec_frame reply).payouts (writes_of_plain plain)
  | refused e => exact congrArg World.payouts reply.2
  | lost b e => exact (World.exec_frame reply.1).payouts (writes_of_plain plain)

/-- A program of plain operations. -/
lemma wp_plain {α : Type} {p : Method α} (uses : p.Uses IsPlain fun _ => True) (stable : Stable id R)
    (hR : R w h) : calls.wp (Undisturbed id) p (fun _ => R) w h :=
  Machine.wp_uses (fun _ _ _ plain hR => leads_plain plain stable hR) uses hR

/-- The audit event of something else. -/
lemma quiet_of_audit {input : AuditInput} {o : Outcome Exception Unit}
    (other : input.type ≠ .payoutFailed ∧ input.type ≠ .payoutBroadcasted ∧
      input.type ≠ .payoutConfirmed) : Quiet id ⟨.auditInsert input, o⟩ := by
  refine ⟨fun type counts => ?_, fun _ _ => rfl, ?_⟩
  · rcases counts with rfl | rfl | rfl <;> simp [records, other]
  · simp [late, other]

/-- An update to some other status, or one that has no effect. -/
lemma quiet_of_update {id' : Uuid} {patch : PayoutPatch} {g : Option (List PayoutStatus)}
    {o : Outcome Exception (Option PayoutRecord)}
    (other : (∀ status, status = .failed ∨ status = .broadcasted ∨ status = .confirmed →
      patch.status ≠ some status) ∧ patch.transactionHash = none ∨
        (o.performed.map Option.isSome).getD false = false) :
    Quiet id ⟨.payoutUpdate id' patch g, o⟩ := by
  refine ⟨fun _ _ => rfl, fun status counts => ?_, ?_⟩
  · rcases other with ⟨other, -⟩ | none
    · simp [moves, other status counts]
    · simp [moves, none]
  · rcases other with ⟨-, none⟩ | none
    · simp [late, none]
    · simp [late, none]

/-- A write that is performed moves its row. -/
lemma moves_of_performed {patch : PayoutPatch} {g : Option (List PayoutStatus)} {r : PayoutRecord}
    {status : PayoutStatus} {o : Outcome Exception (Option PayoutRecord)}
    (eq : patch.status = some status) (performed : o.performed = some (some r)) :
    moves id status ⟨.payoutUpdate id patch g, o⟩ = true := by
  simp [moves, eq, performed]

/-- A write of the hash that throws all the same throws late. -/
lemma late_of_threw {patch : PayoutPatch} {g : Option (List PayoutStatus)} {r : PayoutRecord}
    {o : Outcome Exception (Option PayoutRecord)} (hash : patch.transactionHash.isSome = true)
    (performed : o.performed = some (some r)) (threw : o.threw = true) :
    late id ⟨.payoutUpdate id patch g, o⟩ = true := by
  simp [late, hash, performed, threw]

/-! ## The rules -/

/-- A guarded write to a row that is authorized. -/
lemma reply_of_held {patch : PayoutPatch} {o : Outcome Exception (Option PayoutRecord)}
    (held : Held id w h) (reply : calls.Reply (updateAuthorized id patch) w o w') :
    (∃ e, o = .refused e ∧ w' = w) ∨ ∃ r r', o.performed = some (some r') ∧
      w.payouts.find? id = some r ∧ w'.payouts.find? id = some (patch.applyTo w.now r) := by
  obtain ⟨-, r, row, status⟩ := held
  have found : (w.updatePayout id patch (some [.authorized])).1 = some (patch.applyTo w.now r) := by
    change (Data.Table.update _ _ _ _).1 = _
    simp [Data.Table.update, row, status, PayoutPatch.toPatch]
  have after : (w.updatePayout id patch (some [.authorized])).2.payouts.find? id =
      some (patch.applyTo w.now r) := by
    change (Data.Table.update _ _ _ _).2.find? id = _
    rw [Data.Table.find?_update, row]
    simp [status, PayoutPatch.toPatch]
  cases o with
  | done b =>
    obtain ⟨rfl, rfl⟩ := Prod.mk.inj (Option.some.inj reply)
    exact .inr ⟨r, _, congrArg some found, row, after⟩
  | refused e => exact .inl ⟨e, rfl, reply.2⟩
  | lost b e =>
    obtain ⟨rfl, rfl⟩ := Prod.mk.inj (Option.some.inj reply.1)
    exact .inr ⟨r, _, congrArg some found, row, after⟩

/-- A guarded write to a row that is not authorized any more. -/
lemma reply_of_sealed {patch : PayoutPatch} {o : Outcome Exception (Option PayoutRecord)}
    (row : Sealed id w h) (reply : calls.Reply (updateAuthorized id patch) w o w') :
    (o.performed.map Option.isSome).getD false = false := by
  obtain ⟨-, r, row, status⟩ := row
  have none : (w.updatePayout id patch (some [.authorized])).1 = none := by
    change (Data.Table.update _ _ _ _).1 = _
    simp [Data.Table.update, row, status]
  cases o with
  | done b =>
    have eq : b = Option.none := (congrArg Prod.fst (Option.some.inj reply)).symm.trans none
    rw [eq]
    rfl
  | refused e => rfl
  | lost b e =>
    have eq : b = Option.none := (congrArg Prod.fst (Option.some.inj reply.1)).symm.trans none
    rw [eq]
    rfl

end

/-! ## The call -/

/-- The event was recorded and nothing threw late. -/
def Fair (id : Uuid) (h : Hist Api) : Prop := Agrees id h ∧ ¬Late id h

/-- What the body of the `try` leaves. -/
def Left (id : Uuid) : End Api World (Option PayoutRecord)
  | .ok _, _, h => Fair id h
  | .error e, w, h => (Held id w h ∧ Blank id h) ∨ (Lost id w h ∧ e.isConflict = false)

section
variable {d : Deployment} {id : Uuid} {h : Hist Api} {e : Event Api} {w w' : World}
  {dto : AuthorizePayoutDto} {context : RequestContext} {now : Timestamp} {exec : TransferExecution}

/-- The conflict of the guard is no error of an operation. -/
lemma notConflict_of_raises {c : Call} {e : Exception} (raises : Call.raises c e = true) :
    e.isConflict = false := by
  have foreign : e.isForeign = true := by
    cases c <;> first | exact raises | cases raises
  cases e <;> first | rfl | cases foreign

/-- A history stays fair with a quiet event. -/
lemma Fair.append (fair : Fair id h) (quiet : Quiet id e) : Fair id (h ++ [e]) := by
  have mono {status} : Moved id status h → Moved id status (h ++ [e]) := fun m => moved_append.2 (.inl m)
  have recorded {type} (counts : type = .payoutFailed ∨ type = .payoutBroadcasted ∨
      type = .payoutConfirmed) (r : Recorded id type (h ++ [e])) : Recorded id type h := by
    rcases recorded_append.1 r with r | r
    · exact r
    · simp [quiet.records type counts] at r
  refine ⟨⟨fun r => mono (fair.1.failed (recorded (by simp) r)),
    fun r => mono (fair.1.broadcasted (recorded (by simp) r)),
    fun r => mono (fair.1.confirmed (recorded (by simp) r))⟩, ?_⟩
  rw [late_append, quiet.late]
  simpa using fair.2

/-- A fair history is stable. -/
lemma stable_fair : Stable id fun _ h => Fair id h := stable_of_hist fun quiet fair => fair.append quiet

/-- The write of the outcome. -/
lemma leads_record : Held id w h → Blank id h →
    calls.Leads (Undisturbed id) (updateAuthorized id (recordPatch exec now))
      (fun o w h => (∀ updated, o.answer = .ok updated →
          updated.isSome = true ∧ Settled id (statusOf exec.status) w h) ∧
        ∀ e, o.answer = .error e → (Held id w h ∧ Blank id h) ∨ (Lost id w h ∧ e.isConflict = false)) w h := by
  intro held blank w₁ o w₂ move reply _
  have held₁ := held.rely move
  rcases reply_of_held held₁ reply with ⟨e, rfl, same⟩ | ⟨r, r', performed, row, row'⟩
  · have quiet : Quiet id ⟨updateAuthorized id (recordPatch exec now), .refused e⟩ :=
      quiet_of_update (.inr rfl)
    refine ⟨fun _ answer => (by cases answer), fun _ _ => .inl (stable_held.append quiet ⟨?_, blank⟩)⟩
    rwa [same]
  · have status : statusOf exec.status ≠ .failed ∧ statusOf exec.status ≠ .authorized := by
      cases exec.status <;> exact ⟨nofun, nofun⟩
    have isRow : ∃ r, w₂.payouts.find? id = some r ∧ r.status ≠ .authorized := ⟨_, row', status.2⟩
    have sealed' : Sealed id w₂ (h ++ [⟨updateAuthorized id (recordPatch exec now), o⟩]) :=
      ⟨moved_append.2 (.inl held₁.1), isRow⟩
    have unmoved : ¬Moved id .failed (h ++ [⟨updateAuthorized id (recordPatch exec now), o⟩]) := by
      rw [moved_append, not_or]
      refine ⟨blank.moved (by simp), ?_⟩
      simp [moves, updateAuthorized, recordPatch, status.1]
    constructor
    · intro updated answer
      obtain rfl := Outcome.eq_done_of_answer answer
      refine ⟨?_, sealed', moved_append.2 (.inr (moves_of_performed rfl performed)), ?_, unmoved,
        fun type counts recorded => ?_⟩
      · obtain rfl := Option.some.inj performed
        rfl
      · rw [late_append, not_or]
        exact ⟨blank.late, by simp [late, updateAuthorized, Outcome.threw]⟩
      · rcases recorded_append.1 recorded with recorded | recorded
        · exact blank.recorded counts recorded
        · cases recorded
    · intro e answer
      have threw := Outcome.threw_of_answer answer
      refine .inr ⟨⟨sealed', late_append.2 (.inr (late_of_threw rfl performed threw)), ?_, unmoved⟩,
        notConflict_of_raises (c := updateAuthorized id (recordPatch exec now)) (reply.raises answer)⟩
      rw [throws_append, if_pos threw]
      omega

/-- The audit leaves the payouts. -/
lemma payouts_of_audit {input : AuditInput} {o : Outcome Exception Unit}
    (reply : calls.Reply (.auditInsert input) w o w') : w'.payouts = w.payouts := by
  cases o with
  | done b => exact (World.exec_frame (c := .auditInsert input) reply).payouts nofun
  | refused e => exact congrArg World.payouts reply.2
  | lost b e => exact (World.exec_frame (c := .auditInsert input) reply.1).payouts nofun

/-- The audit event of the outcome. -/
lemma leads_announce {input : AuditInput} (type : input.type = eventOf exec.status)
    (row : Settled id (statusOf exec.status) w h) :
    calls.Leads (Undisturbed id) (.auditInsert input)
      (fun o w h => (∀ u, o.answer = .ok u → Fair id h) ∧
        ∀ e, o.answer = .error e → Lost id w h ∧ e.isConflict = false) w h := by
  intro w₁ o w₂ move reply _
  have counts : eventOf exec.status = .payoutConfirmed ∨ eventOf exec.status = .payoutBroadcasted := by
    cases exec.status <;> simp [eventOf]
  constructor
  · intro u answer
    obtain rfl := Outcome.eq_done_of_answer answer
    have same {status} : Moved id status h → Moved id status (h ++ [⟨.auditInsert input, .done u⟩]) :=
      fun m => moved_append.2 (.inl m)
    have only {type'} (counts : type' = .payoutFailed ∨ type' = .payoutBroadcasted ∨
        type' = .payoutConfirmed) (r : Recorded id type' (h ++ [⟨.auditInsert input, .done u⟩])) :
        type' = eventOf exec.status := by
      rcases recorded_append.1 r with r | r
      · exact absurd r (row.unrecorded type' counts)
      · simp only [records, Bool.and_eq_true, decide_eq_true_eq] at r
        exact r.1.1.symm.trans type
    refine ⟨⟨fun r => ?_, fun r => ?_, fun r => ?_⟩, ?_⟩
    · have eq := only (by simp) r
      rcases counts with h | h <;> cases eq.trans h
    · have eq := only (by simp) r
      have status : exec.status = .broadcasted := by
        cases status : exec.status <;> simp [status, eventOf] at eq ⊢
      have moved := row.moved
      rw [status] at moved
      exact same moved
    · have eq := only (by simp) r
      have status : exec.status = .confirmed := by
        cases status : exec.status <;> simp [status, eventOf] at eq ⊢
      have moved := row.moved
      rw [status] at moved
      exact same moved
    · rw [late_append, not_or]
      exact ⟨row.early, by simp [late, Outcome.threw]⟩
  · intro e answer
    have threw := Outcome.threw_of_answer answer
    have payouts := payouts_of_audit reply
    have row₁ := row.sealed.rely move
    refine ⟨⟨⟨moved_append.2 (.inl row₁.1), payouts ▸ row₁.2⟩, late_append.2 (.inr ?_), ?_, ?_⟩,
      notConflict_of_raises (c := .auditInsert input) (reply.raises answer)⟩
    · simp [late, type, counts, threw]
    · rw [throws_append, if_pos threw]
      omega
    · rw [moved_append, not_or]
      exact ⟨row.unmoved, by simp [moves]⟩

/-- A question to the chain is plain. -/
lemma plain_of_asks {c : Call} (asks : Asks c) : IsPlain c := by
  cases c <;> trivial

/-- The webhook of a recorded transfer is not awaited to succeed. -/
lemma wp_announceConfirmed {status : TransferStatus} {updated : Option PayoutRecord}
    (isRow : updated.isSome = true) (fair : Fair id h) :
    calls.wp (Undisturbed id) (announceConfirmed status updated)
      (fun r _ h => (∃ u, r = .ok u) ∧ Fair id h) w h := by
  unfold announceConfirmed
  split
  case isFalse => exact ⟨⟨_, rfl⟩, fair⟩
  case isTrue =>
    obtain ⟨u, rfl⟩ := Option.isSome_iff_exists.1 isRow
    change calls.wp _ (enqueue u.clientId "payout.confirmed" (confirmedPayload u)) _ w h
    unfold enqueue
    split
    case h_1 => exact ⟨⟨_, rfl⟩, fair⟩
    case h_2 c =>
      refine Machine.leads_mono (fun o w h fair => ?_) (leads_plain (c := .outboxInsert _ _ _) trivial
        stable_fair fair)
      cases o.answer with
      | ok u => exact ⟨⟨_, rfl⟩, fair⟩
      | error e => exact ⟨⟨_, rfl⟩, fair⟩

/-- The body of the `try`. -/
lemma wp_executePayout {authorized : PayoutRecord} (held : Held id w h) (blank : Blank id h) :
    calls.wp (Undisturbed id) (executePayout d id now dto context authorized) (Left id) w h := by
  have plain {α β : Type} {p : Method α} {k : α → Method β} {Q : End Api World β} {w h}
      (uses : p.Uses IsPlain fun _ => True) (both : Held id w h ∧ Blank id h)
      (rest : ∀ a w h, Held id w h ∧ Blank id h → calls.wp (Undisturbed id) (k a) Q w h)
      (error : ∀ e w h, Held id w h ∧ Blank id h → Q (.error e) w h) :
      calls.wp (Undisturbed id) (p >>= k) Q w h :=
    Machine.wp_bind_of (wp_plain uses stable_held both) rest error
  refine plain (Prog.uses_mono (fun _ => plain_of_asks) asks_getAssetBalance) ⟨held, blank⟩
    (fun balance w h both => ?_) fun _ _ _ both => .inl both
  refine plain (Prog.uses_require fun _ => trivial) both (fun _ w h both => ?_) fun _ _ _ both => .inl both
  refine plain (uses_transferPayout (fun _ => trivial) (fun _ _ => trivial) (fun _ => plain_of_asks) rfl)
    both (fun transfer w h both => ?_) fun _ _ _ both => .inl both
  refine Machine.wp_bind (Machine.wp_await (Machine.leads_mono (fun o w h post => ?_)
    (leads_record both.1 both.2)))
  cases answer : o.answer with
  | error e => exact post.2 e answer
  | ok updated =>
    obtain ⟨isRow, row⟩ := post.1 updated answer
    refine Machine.wp_bind (Machine.wp_await (Machine.leads_mono (fun o w h post => ?_)
      (leads_announce rfl row)))
    cases answer : o.answer with
    | error e => exact .inr (post.2 e answer)
    | ok u =>
      refine Machine.wp_bind (Machine.wp_mono (fun r w h post => ?_)
        (wp_announceConfirmed isRow (post.1 u answer)))
      obtain ⟨⟨u, rfl⟩, fair⟩ := post
      exact fair

/-- A response is plain. -/
lemma plain_toResponse {r : PayoutRecord} {b : Bool} : (toResponse r b).Uses IsPlain fun _ => True :=
  Prog.uses_bind (Prog.uses_await (S := Api) (show IsPlain (.auditListBySubject _) from trivial)) fun _ =>
    Prog.uses_pure _

/-- Reading the row is plain. -/
lemma plain_requirePayout : (requirePayout id context).Uses IsPlain fun _ => True :=
  Prog.uses_bind (Prog.uses_await (S := Api) (show IsPlain (.payoutFindById _ _) from trivial)) fun _ =>
    Prog.uses_ofExcept fun _ _ => trivial

/-- The end of the `catch`. -/
lemma wp_report {failed : Option PayoutRecord} (verdict : Verdict id h) :
    calls.wp (Undisturbed id) (do
      let failed ← Prog.orThrow (.error "Cannot read properties of null (reading 'id')") failed
      let payout ← toResponse failed
      throw (.badGateway "Failed to broadcast payout on Avalanche." (some payout) none) :
        Method (Option PayoutRecord)) (fun _ _ h => Verdict id h) w h :=
  wp_plain (Prog.uses_bind (Prog.uses_orThrow trivial) fun _ => Prog.uses_bind plain_toResponse fun _ =>
    Prog.uses_throw trivial) stable_verdict verdict

/-- The call has moved the row to `failed`, and recorded no other outcome. -/
structure Marked (id : Uuid) (h : Hist Api) : Prop where
  moved : Moved id .failed h
  early : ¬Late id h
  unrecorded : ¬Recorded id .payoutBroadcasted h ∧ ¬Recorded id .payoutConfirmed h

/-- A history that has marked its row gives the verdict. -/
lemma Marked.verdict (marked : Marked id h) : Verdict id h :=
  verdict_of_agrees ⟨fun _ => marked.moved, fun r => absurd r marked.unrecorded.1,
    fun r => absurd r marked.unrecorded.2⟩ marked.early

/-- The failure is recorded. -/
lemma Marked.fail {actor : AuditActor} {payload : Json} {o : Outcome Exception Unit}
    (marked : Marked id h) :
    Marked id (h ++ [⟨.auditInsert ⟨.payoutFailed, id, actor, payload⟩, o⟩]) := by
  refine ⟨moved_append.2 (.inl marked.moved), ?_, ?_, ?_⟩
  · rw [late_append, not_or]
    exact ⟨marked.early, by simp [late]⟩
  · rw [recorded_append, not_or]
    exact ⟨marked.unrecorded.1, by simp [records]⟩
  · rw [recorded_append, not_or]
    exact ⟨marked.unrecorded.2, by simp [records]⟩

/-- A history in which two operations have thrown gives the verdict. -/
lemma verdict_of_throws (many : 2 ≤ (throws h).length) : Verdict id h := fun single => by omega

/-- The `catch` where the row is still authorized: it is marked failed, if anything is recorded. -/
lemma wp_handle_held {error : Exception} (held : Held id w h) (blank : Blank id h) :
    calls.wp (Undisturbed id) (handlePayoutError id dto context error) (fun _ _ h => Verdict id h) w h := by
  unfold handlePayoutError
  split
  case h_1 message =>
    refine Machine.wp_bind (Machine.wp_await fun w₁ o w₂ _ _ _ => ?_)
    have quiet : Quiet id ⟨updateAuthorized id (releasePatch message), o⟩ :=
      quiet_of_update (.inl ⟨fun status counts => by rcases counts with rfl | rfl | rfl <;> simp [releasePatch],
        rfl⟩)
    have verdict := (blank.append quiet).verdict
    dsimp only
    cases o.answer with
    | ok _ => exact verdict
    | error _ => exact verdict
  case h_2 =>
    refine Machine.wp_bind (Machine.wp_await fun w₁ o w₂ move reply _ => ?_)
    dsimp only
    generalize error.messageOr "Unknown broadcast failure." = message at o reply ⊢
    rcases reply_of_held (held.rely move) reply with ⟨e, rfl, -⟩ | ⟨r, r', performed, -, -⟩
    · exact (blank.append (quiet_of_update (.inr rfl))).verdict
    · have marked : Marked id (h ++ [⟨updateAuthorized id (failPatch message), o⟩]) := by
        refine ⟨moved_append.2 (.inr (moves_of_performed rfl performed)), ?_, ?_, ?_⟩
        · rw [late_append, not_or]
          exact ⟨blank.late, by simp [late, updateAuthorized, failPatch]⟩
        all_goals
          rw [recorded_append, not_or]
          exact ⟨blank.recorded (by simp), by simp [records, updateAuthorized]⟩
      cases o.answer with
      | error e => exact marked.verdict
      | ok failed =>
        refine Machine.wp_bind (Machine.wp_await fun w₁ o w₂ _ _ _ => ?_)
        dsimp only
        cases o.answer with
        | error e => exact (marked.fail).verdict
        | ok u => exact wp_report (marked.fail).verdict

/-- The `catch` where the row has the outcome: a failure is recorded that the row does not have. -/
lemma wp_handle_lost {error : Exception} (lost : Lost id w h) (other : error.isConflict = false) :
    calls.wp (Undisturbed id) (handlePayoutError id dto context error) (fun _ _ h => Verdict id h) w h := by
  unfold handlePayoutError
  split
  case h_1 message => cases other
  case h_2 =>
    refine Machine.wp_bind (Machine.wp_await fun w₁ o w₂ move reply _ => ?_)
    dsimp only
    generalize error.messageOr "Unknown broadcast failure." = message at o reply ⊢
    have quiet : Quiet id ⟨updateAuthorized id (failPatch message), o⟩ :=
      quiet_of_update (.inr (reply_of_sealed (lost.sealed.rely move) reply))
    have unmoved : ¬Moved id .failed (h ++ [⟨updateAuthorized id (failPatch message), o⟩]) := by
      rw [moved_append, quiet.moves _ (by simp)]
      simpa using lost.unmoved
    have late : Late id (h ++ [⟨updateAuthorized id (failPatch message), o⟩]) :=
      late_append.2 (.inl lost.late)
    have thrown := lost.thrown
    cases answer : o.answer with
    | error e =>
      refine verdict_of_throws ?_
      rw [throws_append, if_pos (Outcome.threw_of_answer answer)]
      omega
    | ok failed =>
      refine Machine.wp_bind (Machine.wp_await fun w₁ o' w₂ _ _ _ => ?_)
      dsimp only
      cases answer' : o'.answer with
      | error e =>
        refine verdict_of_throws ?_
        rw [throws_append, throws_append, if_pos (Outcome.threw_of_answer answer')]
        omega
      | ok u =>
        -- The failure is recorded, and the row has the outcome of the transfer.
        obtain rfl := Outcome.eq_done_of_answer answer'
        refine wp_report fun _ => iff_of_false (fun agrees => ?_) fun early => early (late_append.2 (.inl late))
        have recorded : records id .payoutFailed ⟨.auditInsert ⟨.payoutFailed, id,
            toAuditActor context dto.approvedBy, .obj [("failureReason", .str message)]⟩, .done u⟩ = true := by
          simp [records, Outcome.performed]
        rcases moved_append.1 (agrees.failed (recorded_append.2 (.inr recorded))) with moved | moved
        · exact unmoved moved
        · cases moved

/-- What a call knows after its claim. -/
def Claimed (id : Uuid) : End Api World (Option PayoutRecord)
  | .ok (some _), w, h => Held id w h ∧ Blank id h
  | _, _, h => Blank id h

/-- A row that is claimed is authorized. -/
lemma authorized_of_claimed {g : Option (List PayoutStatus)} {r : PayoutRecord}
    (found : (w.updatePayout id (claimPatch now) g).1 = some r) :
    ∃ r, (w.updatePayout id (claimPatch now) g).2.payouts.find? id = some r ∧ r.status = .authorized := by
  change (Data.Table.update _ _ _ _).1 = _ at found
  change ∃ r, (Data.Table.update _ _ _ _).2.find? id = some r ∧ _
  rw [Data.Table.find?_update]
  cases row : w.payouts.find? id with
  | none => simp [Data.Table.update, row] at found
  | some r₀ =>
    by_cases holds : g.all fun l => decide (r₀.status ∈ l)
    · exact ⟨_, rfl, by simp [holds, PayoutPatch.toPatch, PayoutPatch.applyTo, claimPatch]⟩
    · simp [Data.Table.update, row, holds] at found

/-- The claim of the payout. -/
lemma leads_claim (blank : Blank id h) :
    calls.Leads (Undisturbed id) (.payoutUpdate id (claimPatch now) (some [.prepared]))
      (fun o => Claimed id o.answer) w h := by
  intro w₁ o w₂ _ reply _
  have blank' : Blank id (h ++ [⟨.payoutUpdate id (claimPatch now) (some [.prepared]), o⟩]) :=
    blank.append (quiet_of_update (.inl
      ⟨fun status counts => by rcases counts with rfl | rfl | rfl <;> nofun, rfl⟩))
  cases o with
  | refused e => exact blank'
  | lost b e => exact blank'
  | done b =>
    cases b with
    | none => exact blank'
    | some r =>
      refine ⟨⟨moved_append.2 (.inr (moves_of_performed rfl rfl)), ?_⟩, blank'⟩
      obtain ⟨found, rfl⟩ := Prod.mk.inj (Option.some.inj reply)
      exact authorized_of_claimed found

/-- A call from its beginning. -/
lemma wp_authorizePayout (blank : Blank id h) :
    calls.wp (Undisturbed id) (authorizePayout d id dto context) (fun _ _ h => Verdict id h) w h := by
  have plain {α β : Type} {p : Method α} {k : α → Method β} {w h}
      (uses : p.Uses IsPlain fun _ => True) (blank : Blank id h)
      (rest : ∀ a w h, Blank id h → calls.wp (Undisturbed id) (k a) (fun _ _ h => Verdict id h) w h) :
      calls.wp (Undisturbed id) (p >>= k) (fun _ _ h => Verdict id h) w h :=
    Machine.wp_bind_of (wp_plain uses stable_blank blank) rest fun _ _ _ blank => blank.verdict
  have respond {r b w h} (blank : Blank id h) :
      calls.wp (Undisturbed id) (toResponse r b) (fun _ _ h => Verdict id h) w h :=
    Machine.wp_mono (fun _ _ _ blank => blank.verdict) (wp_plain plain_toResponse stable_blank blank)
  refine plain plain_requirePayout blank fun payout w h blank => ?_
  split
  case isTrue => exact respond blank
  case isFalse =>
    refine plain (Prog.uses_await (S := Api) (show IsPlain .clock from trivial)) blank fun now w h blank => ?_
    refine Machine.wp_bind_of (P := Claimed id) (Machine.wp_await (leads_claim blank)) (fun claimed w h claim => ?_)
      fun _ _ _ blank => Blank.verdict blank
    cases claimed with
    | none =>
      refine plain plain_requirePayout claim fun current w h blank => ?_
      split
      case isTrue => exact respond blank
      case isFalse => exact blank.verdict
    | some authorized =>
      refine Machine.wp_bind_of (P := fun _ w h => Held id w h ∧ Blank id h)
        (Machine.wp_await fun w₁ o w₂ move reply _ => ?_) (fun _ w h both => ?_)
        fun _ _ _ both => both.2.verdict
      · have payouts : w₂.payouts = w₁.payouts := payouts_of_audit reply
        exact stable_held.append (quiet_of_audit ⟨nofun, nofun, nofun⟩)
          (stable_held.same payouts (stable_held.rely move claim))
      · refine Machine.wp_bind_of (P := fun _ _ h => Verdict id h)
          (Machine.wp_tryCatch_of (wp_executePayout both.1 both.2) (fun _ _ _ fair => ?_)
            fun e w h left => ?_) (fun updated w h verdict => ?_) fun _ _ _ verdict => verdict
        · exact verdict_of_agrees fair.1 fair.2
        · rcases left with ⟨held, blank⟩ | ⟨lost, other⟩
          · exact wp_handle_held held blank
          · exact wp_handle_lost lost other
        · exact wp_plain (Prog.uses_bind (Prog.uses_orThrow trivial) fun _ => plain_toResponse)
            stable_verdict verdict

/-- Where at most one operation of an authorization throws, its trail agrees with the ledger just when
    the throw is not late. -/
theorem trail_agrees_iff {r : Except Exception PayoutResponse}
    (run : calls.Runs (Undisturbed id) (authorizePayout d id dto context) w [] r w' h)
    (single : (throws h).length ≤ 1) : Agrees id h ↔ ¬Late id h :=
  Machine.wp_sound run (wp_authorizePayout fun _ => nofun) single

end

/-! ## Concrete calls -/

/-- The payout of the concrete runs, which is not executed at once. -/
def preparedDto : CreatePayoutDto := { sampleDto with executeImmediately := false }

/-- The schedule on which it is created. -/
def prepares : List (Choice Api World) :=
  .enter (createPayout asyncDeployment preparedDto .sample).discard :: Choice.steps 0 5

/-- The schedule is a legal one. -/
lemma legal_prepares : ∀ c ∈ prepares, c.Legal (anyLedger Eq) := by
  simp only [prepares, List.forall_mem_cons]
  exact ⟨.createPayout trivial, Choice.legal_steps⟩

/-- An authorization of the payout, with the fates of its operations. -/
def authorizes (fates : List (Fate Exception)) (w : World) :
    Option (Except Exception PayoutResponse × World × Hist Api) :=
  calls.play (fun _ _ _ => true) (authorizePayout asyncDeployment World.sampleId {} .sample) fates w []

/-- The payout is created, and its authorization leaves a history of the kind. -/
lemma exists_authorization (fates : List (Fate Exception)) (P : Hist Api → Bool)
    (res : (((anyLedger Eq).run Machine.always prepares ⟨.sample, []⟩).any fun s =>
      (authorizes fates s.world).any fun q => P q.2.2) = true) :
    ∃ s r w' h, (anyLedger Eq).Reachable .sample s ∧
      calls.Runs (Undisturbed World.sampleId) (authorizePayout asyncDeployment World.sampleId {} .sample)
        s.world [] r w' h ∧ P h = true := by
  obtain ⟨s, ran, res⟩ := (Option.any_eq_true _ _).1 res
  obtain ⟨⟨r, w', h⟩, played, holds⟩ := (Option.any_eq_true _ _).1 res
  have reach : (anyLedger Eq).Reachable .sample s :=
    Machine.steps_of_run (fun _ _ _ _ => trivial) legal_prepares ran
  have alone (h : Hist Api) (w : World) : Undisturbed World.sampleId h w w :=
    fun _ r row => ⟨fun _ => row, fun status => ⟨r, row, status⟩⟩
  exact ⟨s, r, w', h, reach, Machine.runs_of_play (fun _ _ _ _ => trivial) alone played, holds⟩

/-- Every operation is answered. -/
theorem trail_agrees_of_answered : ∃ s r w' h, (anyLedger Eq).Reachable .sample s ∧
    calls.Runs (Undisturbed World.sampleId) (authorizePayout asyncDeployment World.sampleId {} .sample)
      s.world [] r w' h ∧
    Recorded World.sampleId .payoutBroadcasted h ∧
    (Agrees World.sampleId h ↔ ¬Late World.sampleId h) := by
  obtain ⟨s, r, w', h, reach, run, holds⟩ := exists_authorization (.replicate 10 .done)
    (fun h => decide ((throws h).length ≤ 1) && h.any (records World.sampleId .payoutBroadcasted))
    (by decide +kernel)
  obtain ⟨single, recorded⟩ := Bool.and_eq_true_iff.1 holds
  exact ⟨s, r, w', h, reach, run, List.any_eq_true.1 recorded,
    trail_agrees_iff run (of_decide_eq_true single)⟩

/-- The audit event of a broadcast cannot be inserted: the payout is broadcast, and the trail says that it
    has failed. -/
theorem failure_recorded_of_broadcast : ∃ s r w' h, (anyLedger Eq).Reachable .sample s ∧
    calls.Runs (Undisturbed World.sampleId) (authorizePayout asyncDeployment World.sampleId {} .sample)
      s.world [] r w' h ∧
    (throws h).length = 1 ∧ Moved World.sampleId .broadcasted h ∧
    Recorded World.sampleId .payoutFailed h ∧ ¬Moved World.sampleId .failed h := by
  obtain ⟨s, r, w', h, reach, run, holds⟩ := exists_authorization
    (.replicate 7 .done ++ .refused .unknown :: .replicate 3 .done)
    (fun h => decide ((throws h).length = 1) && h.any (moves World.sampleId .broadcasted) &&
      h.any (records World.sampleId .payoutFailed) && !h.any (moves World.sampleId .failed))
    (by decide +kernel)
  simp only [Bool.and_eq_true, decide_eq_true_eq, Bool.not_eq_true', List.any_eq_true,
    List.any_eq_false] at holds
  obtain ⟨⟨⟨single, moved⟩, recorded⟩, unmoved⟩ := holds
  exact ⟨s, r, w', h, reach, run, single, moved, recorded, fun ⟨e, mem, eq⟩ => unmoved e mem eq⟩

end AvaSettle.Payouts.Trail
