import Mathlib.Data.List.Pairwise
import AvaSettle.Async.Traces
import AvaSettle.Model.Frame
import AvaSettle.Payins.Runs
import AvaSettle.Reconciliation.AutoReconcile

/-!
# The cool-down of the retries

A tick lists the pay-ins that have been left alone for the cool-down, sends gas to each of them and
sweeps it. What keeps the next top-up away is `updated_at`, which only the sweep sets: until then the
pay-in is listed again by every other tick. So top-ups of one pay-in are a cool-down apart where no tick
lists it as long as another one is busy with it, or has sent gas to it and never got to its row.
-/

namespace AvaSettle.Reconciliation.Cooldown
open Async

/-! ## What a history says -/

/-- The candidates that a tick was given, all of them left alone for the cool-down. -/
def candidatesOf : Event Api → List PayInRecord
  | ⟨.payInSweepCandidates _ minutes, .done candidates⟩ =>
    if minutes = Payins.sweepRetryCooldownMinutes then candidates else []
  | _ => []

/-- The pay-in that an operation reads. -/
def readOf : Event Api → Option Uuid
  | ⟨.payInFindById id _, _⟩ => some id
  | _ => none

/-- A transaction that sends gas is submitted. -/
def sendsGas (e : Event Api) : Bool := isNative e.op && e.outcome.performed.isSome

/-- The row of the pay-in is written. -/
def touches (id : Uuid) : Event Api → Bool
  | ⟨.payInUpdate id' _ _, o⟩ => decide (id' = id) && (o.performed.map Option.isSome).getD false
  | _ => false

/-- The call has the pay-in among its candidates. -/
def Listed (id : Uuid) (h : Hist Api) : Prop := ∃ e ∈ h, ∃ p ∈ candidatesOf e, p.id = id

/-- The pay-in that the call has read last. -/
def subject (h : Hist Api) : Option Uuid := (h.filterMap readOf).getLast?

/-- The event is a top-up that `retryPendingSweeps` sends: gas, after the candidates have been listed,
    for the pay-in that has been read last. -/
def Retries (id : Uuid) (h : Hist Api) (e : Event Api) : Prop :=
  sendsGas e = true ∧ (∃ e' ∈ h, isListing e'.op = true) ∧ subject h = some id

instance {id : Uuid} {h : Hist Api} {e : Event Api} : Decidable (Retries id h e) :=
  inferInstanceAs (Decidable (_ ∧ _ ∧ _))

/-- The call has sent the top-up of a retry. -/
def Sent (id : Uuid) (h : Hist Api) : Prop := Happens (Retries id) h

instance {id : Uuid} {h : Hist Api} : Decidable (Sent id h) := inferInstanceAs (Decidable (Happens _ _))

/-- The call has written the row since. -/
def Touched (id : Uuid) (h : Hist Api) : Prop := Happens (fun h e => Sent id h ∧ touches id e = true) h

instance {id : Uuid} {h : Hist Api} : Decidable (Touched id h) :=
  inferInstanceAs (Decidable (Happens _ _))

/-- The call has listed the pay-in and has not got to its row yet: it goes on, or it has sent gas and is
    over. -/
def Busy (id : Uuid) (t : Thread Api) : Prop :=
  Listed id t.hist ∧ ¬Touched id t.hist ∧ (t.prog ≠ .pure () ∨ Sent id t.hist)

/-- The operation is a top-up of a retry. -/
def TopsUp (id : Uuid) (r : Record Api World) : Prop := Retries id r.hist r.event

instance {id : Uuid} {r : Record Api World} : Decidable (TopsUp id r) :=
  inferInstanceAs (Decidable (Retries _ _ _))

/-- No other call is busy with what is listed. -/
def Clear (r : Record Api World) : Prop :=
  ∀ p ∈ candidatesOf r.event, ∀ t ∈ r.others, ¬Busy p.id t

/-- The cool-down, in milliseconds. -/
def cooldown : Nat := Payins.sweepRetryCooldownMinutes * 60000

/-! ## The ticks -/

/-- The rest of the world: the clock does not go back, and what is written to a pay-in does not set its
    time back. -/
structure Forward (w w' : World) : Prop where
  now : w.now ≤ w'.now
  touched : ∀ {id r}, w.payins.find? id = some r →
    ∃ r', w'.payins.find? id = some r' ∧ r.updatedAt ≤ r'.updatedAt

/-- A tick of some instance. -/
inductive Ticks : Method Unit → Prop where
  | tick {d turns} : Ticks (tick d turns)

/-- The ticks of all instances. -/
def ticks : Machine Api World where
  exec := World.exec
  raises := Call.raises
  env := Forward
  entry := Ticks

section
variable {id : Uuid} {h : Hist Api} {e : Event Api} {w w' : World} {t t' : Thread Api}

/-- What is listed once one more event has passed. -/
lemma listed_append : Listed id (h ++ [e]) ↔ Listed id h ∨ ∃ p ∈ candidatesOf e, p.id = id := by
  simp [Listed, or_and_right, exists_or]

/-- What is sent once one more event has passed. -/
lemma sent_append : Sent id (h ++ [e]) ↔ Sent id h ∨ Retries id h e := happens_append

/-- What is touched once one more event has passed. -/
lemma touched_append : Touched id (h ++ [e]) ↔ Touched id h ∨ Sent id h ∧ touches id e = true :=
  happens_append

/-- A row is only touched after the top-up. -/
lemma sent_of_touched (touched : Touched id h) : Sent id h := by
  obtain ⟨before, e, after, rfl, sent, -⟩ := touched
  exact sent.append

/-- What is listed was listed by an operation. -/
lemma exists_listing (listed : Listed id h) : ∃ e ∈ h, isListing e.op = true := by
  obtain ⟨e, mem, p, cand, -⟩ := listed
  refine ⟨e, mem, ?_⟩
  unfold candidatesOf at cand
  split at cand
  · rfl
  · cases cand

/-! ## The histories of ticks -/

/-- A top-up for which there is no reason: for a pay-in that is not listed, or a second one. -/
def Stray (h : Hist Api) (e : Event Api) : Prop :=
  ∃ id, Retries id h e ∧ (Listed id h → Sent id h)

/-- A tick tops up what it has listed, once each. -/
def Good (h : Hist Api) : Prop := ¬Happens Stray h

/-- What is good once one more event has passed. -/
lemma good_append : Good (h ++ [e]) ↔ Good h ∧ ¬Stray h e := by
  rw [Good, happens_append, not_or]
  rfl

/-- A call that has listed nothing is good. -/
lemma good_of_unlisted (none : ∀ e ∈ h, isListing e.op = false) : Good h := by
  rintro ⟨before, e, after, rfl, id, ⟨-, ⟨e', mem, listing⟩, -⟩, -⟩
  have other := none e' (by simp [mem])
  rw [other] at listing
  cases listing

/-- The call still has to deal with the candidate. -/
def Waiting (id : Uuid) (h : Hist Api) : Prop := Listed id h ∧ ¬Sent id h

/-- What a retry of a candidate leaves: a good history, in which the other candidates wait as before. -/
def Dealt (id : Uuid) (h₀ h : Hist Api) : Prop :=
  Good h ∧ ∀ id', id' ≠ id → Waiting id' h₀ → Waiting id' h

/-- An operation that sends no gas is no top-up. -/
lemma not_retries_of_calm (calm : isNative e.op = false) : ¬Retries id h e := by
  rintro ⟨gas, -⟩
  rw [sendsGas, calm] at gas
  cases gas

/-- A candidate waits on while others are dealt with. -/
lemma Waiting.append (waiting : Waiting id h) (other : ¬Retries id h e) : Waiting id (h ++ [e]) :=
  ⟨listed_append.2 (.inl waiting.1), fun sent => (sent_append.1 sent).elim waiting.2 other⟩

/-- A calm operation leaves what has been dealt with. -/
lemma Dealt.append {h₀ : Hist Api} (dealt : Dealt id h₀ h) (calm : isNative e.op = false) :
    Dealt id h₀ (h ++ [e]) := by
  refine ⟨good_append.2 ⟨dealt.1, ?_⟩, fun id' ne waiting => ?_⟩
  · rintro ⟨id', retries, -⟩
    exact not_retries_of_calm calm retries
  · exact (dealt.2 id' ne waiting).append (not_retries_of_calm calm)

/-- So does the top-up of the pay-in, which has been listed and read. -/
lemma Dealt.sent {h₀ : Hist Api} (dealt : Dealt id h₀ h) (waiting : Waiting id h)
    (read : subject h = some id) : Dealt id h₀ (h ++ [e]) := by
  have own {id' : Uuid} (retries : Retries id' h e) : id' = id :=
    Option.some.inj (retries.2.2.symm.trans read)
  refine ⟨good_append.2 ⟨dealt.1, ?_⟩, fun id' ne before => ?_⟩
  · rintro ⟨id', retries, sent⟩
    rw [own retries] at sent
    exact waiting.2 (sent waiting.1)
  · exact (dealt.2 id' ne before).append fun retries => ne (own retries)

end

/-! ## One retry -/

section
variable {d : Deployment} {context : RequestContext} {id : Uuid} {h h₀ : Hist Api} {a : ℕ} {w : World}

/-- The logic of the histories of ticks. -/
abbrev logic : Spec ticks ℕ := Spec.histories ticks Good (good_of_unlisted (by simp))

/-- A calm program leaves what has been dealt with. -/
lemma wp_calm {α : Type} {p : Method α} (calm : p.Only Calm False fun _ => False)
    (dealt : Dealt id h₀ h) : logic.wp p (fun _ _ _ h => Dealt id h₀ h) a w h :=
  Spec.wp_only (fun _ _ _ calm dealt => dealt.append calm.2) (fun _ dealt => dealt.1)
    (fun _ no => no.elim) calm dealt

/-- The pay-in has been read, and nothing else has been done about it. -/
def Read (id : Uuid) (h₀ h : Hist Api) : Prop :=
  Dealt id h₀ h ∧ Waiting id h ∧ subject h = some id

/-- A read does not change what has been read. -/
lemma Read.append {e : Event Api} (read : Read id h₀ h) (calm : isNative e.op = false)
    (other : readOf e = none) : Read id h₀ (h ++ [e]) := by
  refine ⟨read.1.append calm, read.2.1.append (not_retries_of_calm calm), ?_⟩
  rw [subject, List.filterMap_append, List.filterMap_cons_none other]
  simpa [subject] using read.2.2

/-- The transfer of the gas, from the checks to its receipt. -/
lemma wp_sendNativeTransfer {recipient : Hex} {amountWei : Nat} (read : Read id h₀ h) :
    logic.wp (Blockchain.sendNativeTransfer d recipient amountWei) (fun _ _ _ h => Dealt id h₀ h) a w h
      := by
  refine Spec.wp_bind (Spec.wp_require (fun _ => ?_) fun _ => read.1)
  refine Spec.wp_bind (Spec.wp_ofExcept.2 ?_)
  cases Blockchain.requireTreasuryAddress d with
  | error e => exact read.1
  | ok account =>
    refine Spec.wp_bind (Spec.wp_await (Spec.histories_op fun _ o _ _ => ?_))
    have read' := read.append (e := ⟨.getBalance account, o⟩) rfl rfl
    refine ⟨read'.1.1, ?_⟩
    cases o.answer with
    | error e => exact read'.1
    | ok balance =>
      refine Spec.wp_bind (Spec.wp_require (fun _ => ?_) fun _ => read'.1)
      refine Spec.wp_bind (Spec.wp_await (Spec.histories_op fun _ o _ _ => ?_))
      -- The gas is sent for the pay-in that has been read.
      have dealt := read'.1.sent (e := ⟨.submit account (.native recipient amountWei) [], o⟩) read'.2.1
        read'.2.2
      refine ⟨dealt.1, ?_⟩
      cases o.answer with
      | error e => exact dealt
      | ok hash => exact wp_calm only_toTransferExecution dealt

/-- One retry. -/
lemma wp_retrySweep {p : PayInRecord} (good : Good h) (waiting : Waiting p.id h) :
    logic.wp (Payins.retrySweep d context p) (fun _ _ _ h' => Dealt p.id h h') a w h := by
  have start : Dealt p.id h h := ⟨good, fun _ _ waiting => waiting⟩
  refine Spec.wp_tryCatch_of (P := fun _ _ _ h' => Dealt p.id h h') ?_ (fun _ _ _ _ dealt => dealt)
    fun _ _ _ _ dealt => dealt
  refine Spec.wp_bind_of (P := fun _ _ _ h' => Dealt p.id h h') ?_ (fun _ _ _ _ dealt => dealt)
    fun _ _ _ _ dealt => dealt
  refine Spec.wp_bind (Spec.wp_bind (Spec.wp_await (Spec.histories_op fun _ o _ _ => ?_)))
  have read : Read p.id h (h ++ [⟨.payInFindById p.id context.clientId, o⟩]) := by
    refine ⟨start.append rfl, waiting.append (not_retries_of_calm rfl), ?_⟩
    rw [subject, List.filterMap_append]
    simp [readOf]
  refine ⟨read.1.1, ?_⟩
  cases o.answer with
  | error e => exact read.1
  | ok found =>
    refine Spec.wp_orThrow (fun payin _ => ?_) fun _ => read.1
    refine Spec.wp_bind (Spec.wp_require (fun _ => ?_) fun _ => read.1)
    refine Spec.wp_bind (Spec.wp_mono (fun r _ _ _ dealt => ?_) (Q := fun _ _ _ h' => Dealt p.id h h') ?_)
    · cases r with
      | error e => exact dealt
      | ok topup =>
        refine wp_calm ?_ dealt
        split
        · exact Prog.only_bind (only_calm ⟨rfl, rfl⟩) fun _ => only_sweepPayIn
        · exact only_sweepPayIn
    · refine Spec.wp_bind (Spec.wp_ofExcept.2 ?_)
      cases Payins.topUpAmount d none with
      | error e => exact read.1
      | ok amountWei =>
        refine Spec.wp_bind (Spec.wp_mono (fun r _ _ _ dealt => ?_) (wp_sendNativeTransfer read))
        cases r with
        | error e => exact dealt
        | ok transfer => exact wp_calm (Prog.only_bind only_recordAudit fun _ => trivial) dealt

end

/-! ## Ticks -/

section
variable {d : Deployment} {context : RequestContext} {h : Hist Api} {a : ℕ} {w : World}

/-- The retries of the candidates. -/
lemma wp_retries {candidates : List PayInRecord} (nodup : (candidates.map PayInRecord.id).Nodup)
    (good : Good h) (waiting : ∀ p ∈ candidates, Waiting p.id h) :
    logic.wp (Prog.forEach (Payins.retrySweep d context) candidates) (fun _ _ _ _ => True) a w h := by
  induction candidates generalizing a w h with
  | nil => trivial
  | cons p candidates ih =>
    rw [List.forall_mem_cons] at waiting
    obtain ⟨fresh, nodup⟩ := List.nodup_cons.1 nodup
    refine Spec.wp_bind_of (wp_retrySweep good waiting.1) (fun _ _ _ _ dealt => ?_) fun _ _ _ _ _ => trivial
    refine ih nodup dealt.1 fun q mem => dealt.2 q.id (fun eq => fresh ?_) (waiting.2 q mem)
    exact eq ▸ List.mem_map_of_mem mem

/-- The rows of a listing in the order of their confirmation. -/
lemma sorted_perm (r : PayInRecord → PayInRecord → Prop) (dec : DecidableRel r)
    (rows : List PayInRecord) : (rows.insertionSort r).Perm rows := List.perm_insertionSort r rows

/-- The rows of a listing are different ones. -/
lemma nodup_candidates {limit minutes : Nat} :
    ((w.sweepCandidates limit minutes).map PayInRecord.id).Nodup := by
  unfold World.sweepCandidates
  refine List.Nodup.sublist ((List.take_sublist _ _).map _) ?_
  refine ((sorted_perm _ _ _).map PayInRecord.id).nodup_iff.2 ?_
  exact w.payins.nodup.sublist (List.filter_sublist.map _)

/-- A listed row has been left alone for the cool-down. -/
lemma old_of_candidate {limit minutes : Nat} {p : PayInRecord} (mem : p ∈ w.sweepCandidates limit minutes) :
    w.payins.find? p.id = some p ∧ p.updatedAt + minutes * 60000 < w.now := by
  have row := (sorted_perm _ _ _).subset (List.mem_of_mem_take mem)
  obtain ⟨row, holds⟩ := List.mem_filter.1 row
  simp only [Bool.and_eq_true, decide_eq_true_eq] at holds
  exact ⟨Data.Table.find?_of_mem row, holds.2⟩

/-- A tick of any instance keeps its history good. -/
lemma sound_ticks : logic.Sound := by
  intro p entry w
  cases entry with
  | @tick d turns =>
    have quiet {α : Type} {p : Method α} {Q : Method Unit → Prop} {a : ℕ} {w : World} {h : Hist Api}
        (only : p.Only Unlisting True Q)
        (spawned : ∀ child, Q child → ∀ a w, logic.wp child Spec.triv a w [])
        (none : ∀ e ∈ h, isListing e.op = false) :
        logic.wp p (fun _ _ _ h => ∀ e ∈ h, isListing e.op = false) a w h := by
      refine Spec.wp_only (fun op o h unlisting none e mem => ?_) (fun _ => good_of_unlisted) spawned only
        none
      rcases List.mem_append.1 mem with mem | mem
      · exact none e mem
      · exact List.mem_singleton.1 mem ▸ unlisting
    have background : ∀ child, Background child → ∀ a w, logic.wp child Spec.triv a w [] :=
      fun child only a w => Spec.wp_mono (fun _ _ _ _ _ => trivial)
        (quiet only (fun _ no => no.elim) (by simp))
    have calm : (Prog.discard (run d turns systemContext)).Only Unlisting True Background :=
      Prog.only_discard (Prog.only_mono (fun _ calm => calm.1) id (fun _ hQ => hQ) only_run)
    refine Spec.wp_bind_of (P := fun _ _ _ h => ∀ e ∈ h, isListing e.op = false)
      (quiet (Prog.only_tryCatch calm fun _ => Prog.only_pure ()) background (by simp))
      (fun _ a w h none => ?_) fun _ _ _ _ _ => trivial
    split
    case isFalse => trivial
    case isTrue =>
      refine Spec.wp_tryCatch_of (P := fun _ _ _ _ => True) ?_ (fun _ _ _ _ _ => trivial)
        fun _ _ _ _ _ => trivial
      refine Spec.wp_bind_of (P := fun _ _ _ _ => True) ?_ (fun _ _ _ _ _ => trivial)
        fun _ _ _ _ _ => trivial
      refine Spec.wp_bind (Spec.wp_await (Spec.histories_op fun w₁ o w₂ reply => ?_))
      -- The listing sends no gas, and nothing has been sent before it.
      have good : Good
          (h ++ [⟨.payInSweepCandidates sweepRetryBatch Payins.sweepRetryCooldownMinutes, o⟩]) := by
        refine good_append.2 ⟨good_of_unlisted none, ?_⟩
        rintro ⟨_, retries, -⟩
        exact not_retries_of_calm rfl retries
      refine ⟨good, ?_⟩
      cases o with
      | refused e => trivial
      | lost candidates e => trivial
      | done candidates =>
        obtain ⟨rfl, rfl⟩ := Prod.mk.inj (Option.some.inj reply)
        refine Spec.wp_bind_of (wp_retries nodup_candidates good fun p mem => ⟨?_, fun sent => ?_⟩)
          (fun _ _ _ _ _ => trivial) fun _ _ _ _ _ => trivial
        · exact listed_append.2 (.inr ⟨p, by simpa [candidatesOf] using mem, rfl⟩)
        · rcases sent_append.1 sent with ⟨before, e, after, rfl, -, ⟨e', mem, listing⟩, -⟩ | retries
          · rw [none e' (by simp [mem])] at listing
            cases listing
          · exact not_retries_of_calm rfl retries

/-- A tick lists its candidates once, and goes on alone. -/
lemma staged_tick {turns : Interleaving} : (tick d turns).Staged isListing := by
  refine Prog.staged_bind (Prog.only_tryCatch (Prog.only_discard (Prog.only_mono (fun _ calm => calm.1) id
    (fun child only => Prog.staged_of_only (Prog.only_mono (fun _ h => h) id (fun _ no => no.elim) only))
    only_run)) fun _ => trivial) fun _ => ?_
  split
  case isFalse => trivial
  case isTrue =>
    have retries {candidates : List PayInRecord} :
        (Prog.forEach (Payins.retrySweep d systemContext) candidates >>= fun _ =>
          (pure candidates.length : Method Nat)).Only Unlisting False fun _ => False :=
      Prog.only_bind (Prog.only_forEach fun p _ =>
        Prog.only_tryCatch (Prog.only_discard only_topUpAndSweep) fun _ => trivial) fun _ => trivial
    refine Prog.staged_tryCatch (Prog.staged_discard ?_) (fun _ => trivial) fun _ => trivial
    exact Prog.staged_await (fun _ => retries) rfl

end

/-! ## What a run keeps -/

/-- The row has been written at the time, or later. -/
def Recent (id : Uuid) (time : Timestamp) (w : World) : Prop :=
  ∃ r, w.payins.find? id = some r ∧ time ≤ r.updatedAt

/-- No two calls are busy with one pay-in. -/
def Separate (t t' : Thread Api) : Prop := ∀ id, Busy id t → ¬Busy id t'

instance : Std.Symm Separate := ⟨fun _ _ separate id busy busy' => separate id busy' busy⟩

/-- In every state of a run the calls are ticks, and one of them at most is busy with a pay-in. -/
structure Inv (s : Sys Api World) : Prop where
  holds : ∃ spent, logic.Holds spent s
  staged : ∀ t ∈ s.pool, t.Staged isListing
  alone : s.pool.Pairwise Separate

/-- After a top-up its call is busy with the pay-in, until the row has been written. From then on nobody
    is, before the cool-down is over. -/
structure Since (r : Record Api World) (s : Sys Api World) : Prop where
  now : r.world.now ≤ s.world.now
  busy : ∀ id, TopsUp id r → (∃ t ∈ s.pool, Busy id t ∧ Sent id t.hist) ∨
    Recent id r.world.now s.world ∧ ∀ t ∈ s.pool, Busy id t → r.world.now + cooldown < s.world.now

/-- The earlier top-up is a cool-down older. -/
def Apart (r r' : Record Api World) : Prop :=
  ∀ id, TopsUp id r → TopsUp id r' → r.world.now + cooldown ≤ r'.world.now

section
variable {id : Uuid} {time : Timestamp} {w w' : World} {h : Hist Api} {e : Event Api}
  {t : Thread Api} {s s' : Sys Api World} {r r₀ : Record Api World}

/-- A row that has been written recently is not taken back. -/
lemma recent_exec {c : Call} {b : c.Res} (run : World.exec c w = some (b, w')) (le : time ≤ w.now)
    (recent : Recent id time w) : Recent id time w' := by
  obtain ⟨row, found, later⟩ := recent
  by_cases writes : c.writes = some .payins
  case neg =>
    rw [Recent, (World.exec_frame run).payins writes]
    exact ⟨row, found, later⟩
  case pos =>
    cases c
    case payInInsert r =>
      obtain ⟨-, rfl, -⟩ | ⟨table, -, rfl, inserted, -⟩ := World.insertPayIn_cases run
      · exact ⟨row, found, later⟩
      · refine ⟨row, ?_, later⟩
        rw [Data.Table.find?_insert inserted, if_neg]
        · exact found
        · rintro rfl
          cases (Data.Table.fresh_of_insert inserted).symm.trans found
    case payInUpdate id' patch guard =>
      cases run
      have after : (w.updatePayIn id' patch guard).2.payins.find? id = _ :=
        Data.Table.find?_update w.payins id' guard.holds (patch.toPatch w.now) id
      rw [found, Option.map_some] at after
      refine ⟨_, after, ?_⟩
      split
      · exact le
      · exact later
    all_goals cases writes

/-- Whatever becomes of an operation. -/
lemma recent_reply {c : Call} {o : Outcome Exception c.Res} (reply : ticks.Reply c w o w')
    (le : time ≤ w.now) (recent : Recent id time w) : w'.now = w.now ∧ Recent id time w' := by
  cases o with
  | done b => exact ⟨(World.exec_frame reply).now, recent_exec reply le recent⟩
  | refused e =>
    obtain ⟨-, rfl⟩ := reply
    exact ⟨rfl, recent⟩
  | lost b e => exact ⟨(World.exec_frame reply.1).now, recent_exec reply.1 le recent⟩

/-- An operation takes no time. -/
lemma now_reply {c : Call} {o : Outcome Exception c.Res} (reply : ticks.Reply c w o w') :
    w'.now = w.now := by
  cases o with
  | done b => exact (World.exec_frame reply).now
  | refused e => rw [reply.2]
  | lost b e => exact (World.exec_frame reply.1).now

/-- The row is written at the time of the operation. -/
lemma recent_of_touches (reply : ticks.Reply e.op w e.outcome w')
    (touched : touches id e = true) : Recent id w.now w' := by
  obtain ⟨c, o⟩ := e
  cases c
  case payInUpdate id' patch guard =>
    simp only [touches, Bool.and_eq_true, decide_eq_true_eq] at touched
    obtain ⟨rfl, performed⟩ := touched
    have after {b : Option PayInRecord} (run : World.exec (.payInUpdate id' patch guard) w = some (b, w'))
        (some : b.isSome = true) : Recent id' w.now w' := by
      cases run
      obtain ⟨row, written⟩ := Option.isSome_iff_exists.1 some
      obtain ⟨row₀, found, holds, -⟩ := Data.Table.of_update written
      have after : (w.updatePayIn id' patch guard).2.payins.find? id' = _ :=
        Data.Table.find?_update w.payins id' guard.holds (patch.toPatch w.now) id'
      rw [found, Option.map_some, if_pos (by simpa using holds)] at after
      exact ⟨_, after, le_rfl⟩
    cases o with
    | done b => exact after reply performed
    | refused e => cases performed
    | lost b e => exact after reply.1 performed
  all_goals cases touched

/-- What is listed has been left alone for the cool-down since it was written. -/
lemma cooled_of_candidate {p : PayInRecord} (reply : ticks.Reply e.op w e.outcome w')
    (candidate : p ∈ candidatesOf e) (recent : Recent p.id time w) : time + cooldown < w.now := by
  unfold candidatesOf at candidate
  split at candidate
  case h_2 => cases candidate
  case h_1 limit minutes candidates =>
    split at candidate
    case isFalse => cases candidate
    case isTrue eq =>
      obtain ⟨rfl, rfl⟩ := Prod.mk.inj (Option.some.inj reply)
      obtain ⟨row, old⟩ := old_of_candidate candidate
      obtain ⟨row', found, later⟩ := recent
      cases found.symm.trans row
      rw [eq] at old
      exact (Nat.add_le_add_right later _).trans_lt old

/-- A call that is busy after an operation was busy before it, or has listed the pay-in with it. -/
lemma busy_before {t' : Thread Api} (next : t'.hist = t.hist ++ [e]) (going : t.prog ≠ .pure ())
    (busy : Busy id t') : Busy id t ∨ ∃ p ∈ candidatesOf e, p.id = id := by
  obtain ⟨listed, untouched, -⟩ := busy
  rw [next] at listed untouched
  rcases listed_append.1 listed with listed | candidate
  · exact .inl ⟨listed, fun touched => untouched (touched_append.2 (.inl touched)), .inl going⟩
  · exact .inr candidate

/-- A call that has sent gas is busy until it has written the row. -/
lemma busy_after {t' : Thread Api} (next : t'.hist = t.hist ++ [e]) (busy : Busy id t)
    (sent : Sent id t.hist) (untouched : touches id e = false) : Busy id t' ∧ Sent id t'.hist := by
  have sent' : Sent id t'.hist := next ▸ sent.append
  refine ⟨⟨next ▸ listed_append.2 (.inl busy.1), ?_, .inr sent'⟩, sent'⟩
  rw [next, touched_append, untouched]
  simpa using busy.2.1

/-- Two calls that are busy with a pay-in are one. -/
lemma Inv.unique (inv : Inv s) {t' : Thread Api} (mem : t ∈ s.pool) (mem' : t' ∈ s.pool)
    (busy : Busy id t) (busy' : Busy id t') : t = t' := by
  by_contra ne
  exact inv.alone.forall mem mem' ne id busy busy'

/-- Where no call is busy twice, none is busy beside the one that goes on. -/
lemma alone_of_perm {l ts rest : List (Thread Api)} :
    (l ++ ts ++ rest).Pairwise Separate ↔ (ts ++ (l ++ rest)).Pairwise Separate := by
  rw [List.append_assoc]
  exact List.Perm.pairwise_iff (fun apart => symm apart) (List.perm_append_comm_assoc _ _ _)

/-- The threads that one becomes are separate from the others, and from each other. -/
lemma alone_next {l rest ts : List (Thread Api)} (alone : (l ++ t :: rest).Pairwise Separate)
    (single : (∃ t', ts = [t']) ∨ ∀ t' ∈ ts, ∀ e ∈ t'.hist, isListing e.op = false)
    (before : ∀ t' ∈ ts, ∀ id, Busy id t' → ∀ t₀ ∈ l ++ rest, ¬Busy id t₀) :
    (l ++ ts ++ rest).Pairwise Separate := by
  have alone : ([t] ++ (l ++ rest)).Pairwise Separate :=
    alone_of_perm.1 (by rwa [List.append_assoc, List.singleton_append])
  rw [alone_of_perm, List.pairwise_append]
  refine ⟨?_, (List.pairwise_append.1 alone).2.1,
    fun t' mem t₀ mem₀ id busy => before t' mem id busy t₀ mem₀⟩
  rcases single with ⟨t', rfl⟩ | none
  · exact List.pairwise_singleton _ _
  · refine List.pairwise_of_forall_mem_list fun t' mem _ _ id busy => ?_
    obtain ⟨e, mem', listing⟩ := exists_listing busy.1
    rw [none _ mem e mem'] at listing
    cases listing

/-- The threads of a step are staged again. -/
lemma staged_next {l rest ts : List (Thread Api)} (staged : ∀ t' ∈ l ++ t :: rest, t'.Staged isListing)
    (step : ticks.TStep w t w' ts) : ∀ t' ∈ l ++ ts ++ rest, t'.Staged isListing := by
  simp only [List.forall_mem_append, List.forall_mem_cons] at staged ⊢
  exact ⟨⟨staged.1, staged.2.1.tstep step⟩, staged.2.2⟩

/-- A step that performs nothing. -/
lemma inv_silent (inv : Inv s) (silent : ticks.Silent s s') : Inv s' ∧ ∀ r, Since r s → Since r s' := by
  have holds : ∃ spent, logic.Holds spent s' := by
    obtain ⟨spent, holds⟩ := inv.holds
    exact (holds.steps sound_ticks (.single silent.step)).1
  cases silent with
  | @enter w pool p entry =>
    have idle {id : Uuid} : ¬Busy id ⟨p, []⟩ := by
      rintro ⟨⟨e, mem, -⟩, -⟩
      cases mem
    refine ⟨⟨holds, ?_, ?_⟩, fun r since => ⟨since.now, fun id tops => ?_⟩⟩
    · rw [List.forall_mem_append, List.forall_mem_singleton]
      refine ⟨inv.staged, .inl ⟨by simp, ?_⟩⟩
      cases entry
      exact staged_tick
    · rw [List.pairwise_append]
      exact ⟨inv.alone, List.pairwise_singleton _ _, fun t _ t' mem id _ =>
        List.mem_singleton.1 mem ▸ idle⟩
    · rcases since.busy id tops with ⟨t, mem, busy⟩ | ⟨recent, cooled⟩
      · exact .inl ⟨t, List.mem_append_left _ mem, busy⟩
      · refine .inr ⟨recent, fun t mem busy => ?_⟩
        rcases List.mem_append.1 mem with mem | mem
        · exact cooled t mem busy
        · exact absurd (List.mem_singleton.1 mem ▸ busy) idle
  | @env w w' pool move =>
    refine ⟨⟨holds, inv.staged, inv.alone⟩,
      fun r since => ⟨since.now.trans move.now, fun id tops => ?_⟩⟩
    rcases since.busy id tops with busy | ⟨⟨row, found, later⟩, cooled⟩
    · exact .inl busy
    · obtain ⟨row', found', le⟩ := move.touched found
      exact .inr ⟨⟨row', found', later.trans le⟩,
        fun t mem busy => (cooled t mem busy).trans_le move.now⟩
  | @thread w l t rest ts step same =>
    -- A thread that is busy after the step was busy before it.
    have before : ∀ t' ∈ ts, ∀ id, Busy id t' → Busy id t := by
      intro t' mem id busy
      have own (hist : t'.hist = t.hist) : Busy id t := by
        obtain ⟨listed, untouched, going⟩ := busy
        rw [hist] at listed untouched going
        refine ⟨listed, untouched, going.imp_left fun going ended => going ?_⟩
        obtain ⟨p, h⟩ := t
        obtain rfl : p = .pure () := ended
        cases step
        rw [List.mem_singleton.1 mem]
      rcases same with ⟨p, rfl⟩ | ⟨p, child, rfl⟩
      · exact own (by rw [List.mem_singleton.1 mem])
      · rcases List.mem_cons.1 mem with rfl | mem
        · exact own rfl
        · obtain ⟨⟨e, no, -⟩, -⟩ := List.mem_singleton.1 mem ▸ busy
          cases no
    have stays : ∃ t' ∈ ts, t'.hist = t.hist := by
      rcases same with ⟨p, rfl⟩ | ⟨p, child, rfl⟩
      · exact ⟨_, List.mem_cons_self, rfl⟩
      · exact ⟨_, List.mem_cons_self, rfl⟩
    have others {id : Uuid} (busy : Busy id t) : ∀ t₀ ∈ l ++ rest, ¬Busy id t₀ := by
      have alone := inv.alone
      rw [← List.singleton_append, ← List.append_assoc, alone_of_perm, List.pairwise_append] at alone
      exact fun t₀ mem => alone.2.2 t List.mem_cons_self t₀ mem id busy
    refine ⟨⟨holds, staged_next inv.staged step, alone_next inv.alone
      ((inv.staged t (by simp)).alone step) fun t' mem id busy => others (before t' mem id busy)⟩,
      fun r since => ⟨since.now, fun id tops => ?_⟩⟩
    rcases since.busy id tops with ⟨t₀, mem, busy, sent⟩ | ⟨recent, cooled⟩
    · rcases List.mem_append.1 mem with mem | mem
      · exact .inl ⟨t₀, by simp [mem], busy, sent⟩
      · rcases List.mem_cons.1 mem with rfl | mem
        · obtain ⟨t', mem', hist⟩ := stays
          exact .inl ⟨t', by simp [mem'], ⟨hist ▸ busy.1, hist ▸ busy.2.1, .inr (hist ▸ sent)⟩,
            hist ▸ sent⟩
        · exact .inl ⟨t₀, by simp [mem], busy, sent⟩
    · refine .inr ⟨recent, fun t' mem busy => ?_⟩
      rcases List.mem_append.1 mem with mem | mem
      · rcases List.mem_append.1 mem with mem | mem
        · exact cooled t' (by simp [mem]) busy
        · exact cooled t (by simp) (before t' mem id busy)
      · exact cooled t' (by simp [mem]) busy

/-- A step that performs an operation, where nobody else is busy with what it lists: a top-up comes after
    the cool-down of every earlier one. -/
lemma inv_performs (inv : Inv s) (clear : Clear r) (performs : ticks.Performs s r s') :
    Inv s' ∧ Since r s' ∧ ∀ r₀, Since r₀ s → Apart r₀ r ∧ Since r₀ s' := by
  have holds : ∃ spent, logic.Holds spent s' := by
    obtain ⟨spent, holds⟩ := inv.holds
    exact (holds.steps sound_ticks (.single performs.step)).1
  cases performs with
  | @intro w w' l t rest ts e step goes next reply =>
    obtain ⟨t₁, mem₁⟩ := List.exists_mem_of_ne_nil ts goes
    have now : w'.now = w.now := now_reply reply
    have going : t.prog ≠ .pure () := by
      intro ended
      obtain ⟨p, h⟩ := t
      obtain rfl : p = .pure () := ended
      cases step
      have same := next t₁ mem₁
      rw [List.mem_singleton.1 mem₁] at same
      simpa using congrArg List.length same
    have mem : t ∈ l ++ t :: rest := by simp
    -- What the history of the call says about a top-up that it sends now.
    have listed {id : Uuid} (tops : Retries id t.hist e) : Listed id t.hist ∧ ¬Sent id t.hist := by
      obtain ⟨spent, holds⟩ := holds
      have good : Good (t.hist ++ [e]) := next t₁ mem₁ ▸ holds.good t₁ (by simp [mem₁])
      have straight := (good_append.1 good).2
      by_contra stray
      exact straight ⟨id, tops, fun listed => by_contra fun unsent => stray ⟨listed, unsent⟩⟩
    have others {id : Uuid} (busy : Busy id t) : ∀ t₀ ∈ l ++ rest, ¬Busy id t₀ := by
      have alone := inv.alone
      rw [← List.singleton_append, ← List.append_assoc, alone_of_perm, List.pairwise_append] at alone
      exact fun t₀ mem => alone.2.2 t List.mem_cons_self t₀ mem id busy
    have sides {t' : Thread Api} (mem' : t' ∈ l ++ ts ++ rest) : t' ∈ ts ∨ t' ∈ l ++ rest := by
      simp only [List.mem_append] at mem' ⊢
      tauto
    refine ⟨⟨holds, staged_next inv.staged step, alone_next inv.alone ((inv.staged t mem).alone step)
        fun t' mem' id busy => ?_⟩, ⟨now.ge, fun id tops => ?_⟩,
      fun r₀ since => ⟨fun id before tops => ?_, since.now.trans now.ge, fun id tops => ?_⟩⟩
    · rcases busy_before (next t' mem') going busy with busy | ⟨p, candidate, rfl⟩
      · exact others busy
      · exact clear p candidate
    · have sent : Sent id (t.hist ++ [e]) := sent_append.2 (.inr tops)
      refine .inl ⟨t₁, by simp [mem₁], ⟨?_, ?_, .inr ?_⟩, ?_⟩
      · rw [next t₁ mem₁, listed_append]
        exact .inl (listed tops).1
      · rw [next t₁ mem₁, touched_append, not_or]
        exact ⟨fun touched => (listed tops).2 (sent_of_touched touched),
          fun both => (listed tops).2 both.1⟩
      · rwa [next t₁ mem₁]
      · rwa [next t₁ mem₁]
    · -- The call that tops up now is busy with the pay-in, so that no other one is.
      have busy : Busy id t := ⟨(listed tops).1, fun touched => (listed tops).2 (sent_of_touched touched),
        .inl going⟩
      rcases since.busy id before with ⟨t₀, mem₀, busy₀, sent⟩ | ⟨-, cooled⟩
      · exact absurd (inv.unique mem₀ mem busy₀ busy ▸ sent) (listed tops).2
      · exact (cooled t mem busy).le
    · rcases since.busy id tops with ⟨t₀, mem₀, busy, sent⟩ | ⟨recent, cooled⟩
      · by_cases own : t₀ = t
        · subst own
          cases touched : touches id e with
          | false => exact .inl ⟨t₁, by simp [mem₁], busy_after (next t₁ mem₁) busy sent touched⟩
          | true =>
            -- The row has been written, and nobody is busy with the pay-in any more.
            obtain ⟨row, found, later⟩ := recent_of_touches reply touched
            refine .inr ⟨⟨row, found, since.now.trans later⟩, fun t' mem' busy' => ?_⟩
            rcases sides mem' with mem' | mem'
            · refine absurd ?_ busy'.2.1
              rw [next t' mem', touched_append]
              exact .inr ⟨sent, touched⟩
            · exact absurd busy' (others busy t' mem')
        · refine .inl ⟨t₀, ?_, busy, sent⟩
          simp only [List.mem_append, List.mem_cons] at mem₀ ⊢
          tauto
      · obtain ⟨-, recent'⟩ := recent_reply reply since.now recent
        refine .inr ⟨recent', fun t' mem' busy' => ?_⟩
        rw [show (_ : World).now = w.now from now]
        rcases sides mem' with mem' | mem'
        · rcases busy_before (next t' mem') going busy' with busy | ⟨p, candidate, rfl⟩
          · exact cooled t mem busy
          · -- What is listed has been left alone for the cool-down.
            exact cooled_of_candidate reply candidate recent
        · refine cooled t' ?_ busy'
          simp only [List.mem_append, List.mem_cons] at mem' ⊢
          tauto

/-- As long as no tick lists a pay-in that another call is busy with, any two top-ups that the retries send
    for one pay-in are a cool-down apart, whatever becomes of the operations of all ticks. -/
theorem cooldown_kept {w : World} {rs : List (Record Api World)} {s : Sys Api World}
    (run : ticks.Traces ⟨w, []⟩ rs s) (clear : ∀ r ∈ rs, Clear r) :
    rs.Pairwise fun r r' => ∀ id, TopsUp id r → TopsUp id r' →
      r.world.now + cooldown ≤ r'.world.now := by
  refine Machine.Traces.pairwise (fun inv silent => inv_silent inv silent)
    (fun inv clear performs => inv_performs inv clear performs) run ?_ clear
  exact ⟨⟨0, Spec.Holds.init trivial⟩, by simp, .nil⟩

end

/-! ## Concrete ticks -/

/-- A deployment that sweeps, and sends gas for it. -/
def gasDeployment : Deployment :=
  { asyncDeployment with
    autoSweep := true
    parseUnits := fun amount decimals =>
      if amount = "0.002" then .ok 2000000000000000 else Viem.sample.parseUnits amount decimals }

/-- A confirmed pay-in that is still to be swept and has been left alone for the cool-down, on a chain
    where every address has gas. -/
def unsweptWorld : World :=
  { World.sample with
    payins := ⟨[{ Payins.newPayIn asyncDeployment (Payins.sampleDto .derivedAddress) .sample
        World.sampleId 0 1000000 1 .derivedAddress none none 0 Payins.sampleDeposit with
        status := .confirmed
        confirmedAt := some 0 }], List.nodup_singleton _⟩
    chain := { World.sampleChain with
      balance := fun _ => 2000000000000000
      receipts := fun _ => some ⟨.success, 1⟩ }
    now := cooldown + 1 }

/-- A reconciliation run that finds nothing to do. -/
def idleRun : List (Act Api) :=
  [.call .done, .call .done, .call .done, .join, .call .done, .join, .call .done, .join, .call .done, .join,
    .call .done]

/-- A tick, with the fates of its operations from the listing of the candidates on. -/
def ticking (i : Nat) (fates : List (Fate Exception)) : List (Choice Api World) :=
  .enter (tick gasDeployment ⟨fun _ _ => true, fun _ _ _ => true, fun _ _ _ => true⟩) ::
    (idleRun ++ fates.map Act.call).map (Choice.run i)

/-- Some time later. -/
def timePasses (time : Nat) : Choice Api World := .env fun w => { w with now := w.now + time }

/-- Ticks are legal calls, and time passes. -/
lemma legal_ticking {time : Nat} {fates fates' : List (Fate Exception)} :
    ∀ c ∈ ticking 0 fates ++ timePasses time :: ticking 1 fates', c.Legal ticks := by
  have legal {i : Nat} {fates : List (Fate Exception)} : ∀ c ∈ ticking i fates, c.Legal ticks := by
    rw [ticking, List.forall_mem_cons, List.forall_mem_map]
    exact ⟨.tick, fun _ _ => trivial⟩
  rw [List.forall_mem_append, List.forall_mem_cons]
  exact ⟨legal, fun w => ⟨Nat.le_add_right _ _, fun found => ⟨_, found, le_rfl⟩⟩, legal⟩

/-- The top-ups of the pay-in in a run, and whether all calls had written the rows that are listed. -/
def toppedUp (fates fates' : List (Fate Exception)) (time : Nat) (times : List Nat) (clear : Bool) :
    Bool :=
  (ticks.observe Machine.always (ticking 0 fates ++ timePasses time :: ticking 1 fates')
    ⟨unsweptWorld, []⟩).any fun q =>
      decide (((q.1.filter fun r => decide (TopsUp World.sampleId r)).map fun r => r.world.now) = times) &&
      (!clear || q.1.all fun r => (candidatesOf r.event).all fun p =>
        r.others.all fun t => decide (Touched p.id t.hist))

/-- The run of two ticks, with the two top-ups that it sends. -/
lemma exists_toppedUp (fates fates' : List (Fate Exception)) (time a b : Nat) (clear : Bool)
    (res : toppedUp fates fates' time [a, b] clear = true) :
    ∃ rs s r r', ticks.Traces ⟨unsweptWorld, []⟩ rs s ∧ [r, r'].Sublist rs ∧
      TopsUp World.sampleId r ∧ TopsUp World.sampleId r' ∧ r.world.now = a ∧ r'.world.now = b ∧
        (clear = true → ∀ r ∈ rs, Clear r) := by
  obtain ⟨⟨rs, s⟩, observed, holds⟩ := (Option.any_eq_true _ _).1 res
  obtain ⟨times, written⟩ := Bool.and_eq_true_iff.1 holds
  obtain ⟨r, rs₁, eq, first, times⟩ := List.map_eq_cons_iff.1 (of_decide_eq_true times)
  obtain ⟨r', rs₂, rfl, second, times⟩ := List.map_eq_cons_iff.1 times
  obtain rfl := List.map_eq_nil_iff.1 times
  have tops {x : Record Api World} (mem : x ∈ [r, r']) : TopsUp World.sampleId x := by
    rw [← eq] at mem
    exact of_decide_eq_true (List.mem_filter.1 mem).2
  refine ⟨rs, s, r, r', Machine.traces_of_observe (fun _ _ _ _ => trivial) legal_ticking observed,
    eq ▸ List.filter_sublist, tops (by simp), tops (by simp), first, second,
    fun on x mem p cand t other busy => ?_⟩
  subst on
  simp only [Bool.not_true, Bool.false_or, List.all_eq_true, decide_eq_true_eq] at written
  exact busy.2.1 (written x mem p cand t other)

/-- The first sweep is refused, and the pay-in is topped up again after the cool-down. -/
theorem cooldown_kept_of_refused : ∃ rs s r r', ticks.Traces ⟨unsweptWorld, []⟩ rs s ∧
    [r, r'].Sublist rs ∧ TopsUp World.sampleId r ∧ TopsUp World.sampleId r' ∧ r.world.now + cooldown ≤ r'.world.now := by
  obtain ⟨rs, s, r, r', run, sub, tops, tops', -, -, clear⟩ := exists_toppedUp
    (.replicate 9 .done ++ .refused .unknown :: .replicate 3 .done) (.replicate 14 .done) 600001 600001
    1200002 true (by decide +kernel)
  have apart := (cooldown_kept run (clear rfl)).sublist sub
  exact ⟨rs, s, r, r', run, sub, tops, tops',
    (List.pairwise_cons.1 apart).1 r' List.mem_cons_self World.sampleId tops tops'⟩

/-- The audit event of the first top-up cannot be inserted: the row is not touched, and a minute later the
    pay-in is topped up again. -/
theorem topped_up_again : ∃ rs s r r', ticks.Traces ⟨unsweptWorld, []⟩ rs s ∧
    [r, r'].Sublist rs ∧ TopsUp World.sampleId r ∧ TopsUp World.sampleId r' ∧ r'.world.now < r.world.now + cooldown := by
  obtain ⟨rs, s, r, r', run, sub, tops, tops', first, second, -⟩ := exists_toppedUp
    (.replicate 4 .done ++ [.refused .unknown]) (.replicate 14 .done) 60000 600001 660001 false
    (by decide +kernel)
  refine ⟨rs, s, r, r', run, sub, tops, tops', ?_⟩
  rw [first, second]
  decide

end AvaSettle.Reconciliation.Cooldown
