import AvaSettle.Async.Yields
import AvaSettle.Isolation.Bystanders
import AvaSettle.Model.Frame
import AvaSettle.Payins.Runs
import AvaSettle.Payins.Calm

/-!
# Recorded sweeps

The sweep that the row of a derived address records is written once. Success and failure of a sweep are
written only over a row that has recorded none, and what is written without that guard is either no
column of a sweep or goes to the row of a router pay-in, which stays one.
-/

namespace AvaSettle.Payins.Sweeps
open Async
open Data (Table)
open Blockchain Isolation

/-- The pay-in is collected at an address of its own. -/
abbrev Derived (r : PayInRecord) : Prop := r.collectionMode = .derivedAddress

/-- The row records a sweep. -/
def Swept (r : PayInRecord) : Prop := r.sweepStatus = .broadcasted ∨ r.sweepStatus = .confirmed

/-- What a row says of its sweep. -/
structure Record where
  sweepStatus : PayInSweepStatus
  sweepTransactionHash : Option Hex
  sweptAmount : String
  sweptAmountAtomic : Nat
  sweptAt : Option Timestamp
  sweepFailureReason : Option String

/-- The sweep of a row. -/
def sweepOf (r : PayInRecord) : Record := { r with }

/-- The row keeps its rail and, on a derived address, the sweep that it has recorded. -/
structure Keeps (r r' : PayInRecord) : Prop where
  mode : r'.collectionMode = r.collectionMode
  sweep : Derived r → Swept r → sweepOf r' = sweepOf r

/-- Every row is kept. -/
def Kept (w w' : World) : Prop :=
  ∀ id r, w.payins.find? id = some r → ∃ r', w'.payins.find? id = some r' ∧ Keeps r r'

/-- The row with this id is of a router pay-in. -/
def RoutedAt (id : Uuid) (w : World) : Prop :=
  ∃ r, w.payins.find? id = some r ∧ r.collectionMode = .paymentRouter

section
variable {w w' w₁ w₂ w₃ : World} {r r' r₁ r₂ r₃ : PayInRecord} {id : Uuid} {patch : PayInPatch}
  {guard : PayInUpdateGuard}

/-- Being swept is told by the columns of the sweep. -/
lemma Swept.of_sweepOf (eq : sweepOf r' = sweepOf r) (swept : Swept r) : Swept r' := by
  have status : r'.sweepStatus = r.sweepStatus := congrArg Record.sweepStatus eq
  rwa [Swept, status]

/-- A row keeps itself. -/
lemma Keeps.refl : Keeps r r := ⟨rfl, fun _ _ => rfl⟩

/-- What is kept twice is kept. -/
lemma Keeps.trans (h₁ : Keeps r₁ r₂) (h₂ : Keeps r₂ r₃) : Keeps r₁ r₃ where
  mode := h₂.mode.trans h₁.mode
  sweep derived swept :=
    have first := h₁.sweep derived swept
    (h₂.sweep (h₁.mode.trans derived) (swept.of_sweepOf first)).trans first

/-- Rows are kept where nothing happens. -/
lemma Kept.refl : Kept w w := fun _ r found => ⟨r, found, .refl⟩

/-- Rows that are kept twice are kept. -/
lemma Kept.trans (h₁ : Kept w₁ w₂) (h₂ : Kept w₂ w₃) : Kept w₁ w₃ := by
  intro id r found
  obtain ⟨r', found, keeps⟩ := h₁ id r found
  obtain ⟨r'', found, keeps'⟩ := h₂ id r' found
  exact ⟨r'', found, keeps.trans keeps'⟩

/-- Rows are kept where the table stays. -/
lemma kept_of_same (payins : w'.payins = w.payins) : Kept w w' :=
  fun _ r found => ⟨r, payins ▸ found, .refl⟩

/-- A pay-in stays on the router. -/
lemma RoutedAt.later (kept : Kept w w') (routed : RoutedAt id w) : RoutedAt id w' := by
  obtain ⟨r, found, mode⟩ := routed
  obtain ⟨r', found, keeps⟩ := kept id r found
  exact ⟨r', found, keeps.mode.trans mode⟩

/-- An insert keeps every row. -/
lemma kept_of_insert {t : Table PayInRecord.id} (inserted : w.payins.insert r = some t) :
    Kept w { w with payins := t } := by
  intro id r' found
  refine ⟨r', ?_, .refl⟩
  change t.find? id = some r'
  rw [Table.find?_insert inserted, if_neg]
  · exact found
  · rintro rfl
    cases (Table.fresh_of_insert inserted).symm.trans found

/-- An update keeps every row if it keeps the row that it writes. -/
lemma kept_of_update
    (keeps : ∀ r, w.payins.find? id = some r → guard.holds r = true → Keeps r (patch.applyTo w.now r)) :
    Kept w (w.updatePayIn id patch guard).2 := by
  intro k r found
  have after := Table.find?_update w.payins id guard.holds (patch.toPatch w.now) k
  rw [found, Option.map_some] at after
  refine ⟨_, after, ?_⟩
  split
  case isFalse => exact .refl
  case isTrue here =>
    obtain ⟨rfl, holds⟩ : k = id ∧ guard.holds r = true := by simpa using here
    exact keeps r found holds

/-! ## Writes -/

/-- The patch sets no column of a sweep. -/
def PlainPatch (patch : PayInPatch) : Prop :=
  patch.sweepStatus = none ∧ patch.sweepTransactionHash = none ∧ patch.sweptAmount = none ∧
    patch.sweptAmountAtomic = none ∧ patch.sweptAt = none ∧ patch.sweepFailureReason = none

/-- A plain patch leaves the columns of the sweep. -/
lemma PlainPatch.sweepOf (plain : PlainPatch patch) {now : Timestamp} :
    Sweeps.sweepOf (patch.applyTo now r) = Sweeps.sweepOf r := by
  obtain ⟨h₁, h₂, h₃, h₄, h₅, h₆⟩ := plain
  simp [Sweeps.sweepOf, PayInPatch.applyTo, h₁, h₂, h₃, h₄, h₅, h₆]

/-- A row that the guard of a sweep lets through has recorded no sweep. -/
lemma not_swept_of_guard (holds : unsweptGuard.holds r = true) : ¬Swept r := by
  rintro (swept | swept) <;> simp [PayInUpdateGuard.holds, unsweptGuard, swept] at holds

/-- The operation keeps the recorded sweeps wherever it is performed. -/
def Gentle : Call → Prop
  | .payInUpdate _ patch guard => PlainPatch patch ∨ guard = unsweptGuard
  | _ => True

/-- A gentle operation keeps what has been swept. -/
lemma kept_of_gentle {c : Call} {b : c.Res} (gentle : Gentle c)
    (run : World.exec c w = some (b, w')) : Kept w w' := by
  cases c
  case payInInsert r =>
    obtain ⟨-, rfl, -⟩ | ⟨t, -, rfl, inserted, -⟩ := World.insertPayIn_cases run
    · exact .refl
    · exact kept_of_insert inserted
  case payInUpdate id patch guard =>
    cases run
    refine kept_of_update fun r _ holds => ⟨rfl, fun _ swept => ?_⟩
    rcases gentle with plain | rfl
    · exact plain.sweepOf
    · exact absurd swept (not_swept_of_guard holds)
  all_goals exact kept_of_same ((World.exec_frame run).payins nofun)

/-- A write to a router pay-in keeps the recorded sweeps. -/
lemma kept_of_routed {o : Option PayInRecord} (routed : RoutedAt id w)
    (run : World.exec (.payInUpdate id patch guard) w = some (o, w')) : Kept w w' := by
  cases run
  refine kept_of_update fun r found _ => ⟨rfl, fun derived => ?_⟩
  obtain ⟨r', found', mode⟩ := routed
  obtain rfl := Option.some.inj (found'.symm.trans found)
  cases derived.symm.trans mode

end

/-! ## Calls -/

section
variable {d : Deployment} {chain : Chain → Chain → Prop} {cond : Hist Api → World → Event Api → Prop}
  {α β : Type}

/-- What the pay-in calls keep. -/
def upkeep (d : Deployment) (chain : Chain → Chain → Prop)
    (cond : Hist Api → World → Event Api → Prop) : Upkeep (payInLedger d chain cond) where
  inv _ := True
  le := Kept
  le_refl _ := .refl
  le_trans := .trans
  env := fun _ move => ⟨trivial, kept_of_same move.payins⟩

variable (d chain cond) in
/-- Whatever else is called, the program keeps the recorded sweeps. -/
def Calls (p : Method α) : Prop := (upkeep d chain cond).Yields p (fun _ => True) fun _ => True

/-- A program of gentle operations. -/
lemma calls_of_uses {p : Method α} (uses : p.Uses Gentle fun _ => True) : Calls d chain cond p :=
  Upkeep.yields_of_uses (fun _ gentle _ _ _ _ run => ⟨trivial, kept_of_gentle gentle run, trivial⟩)
    (fun _ _ _ _ => trivial) uses

/-- A program that leaves the pay-ins. -/
lemma calls_of_bystander {p : Method α} (bystander : Bystander p) : Calls d chain cond p := by
  refine Upkeep.yields_mono (fun _ _ => trivial) (fun _ _ => trivial) (Upkeep.yields_of_uses
    (fun c aside w b w' _ run => ⟨trivial, kept_of_gentle ?_ run, trivial⟩)
    (fun _ _ _ => plain_of_raises) bystander)
  cases c <;> trivial

/-- A gentle request. -/
lemma calls_request {c : Call} (gentle : Gentle c) : Calls d chain cond (request c) :=
  calls_of_uses (Prog.uses_await (S := Api) gentle)

/-- One program after another. -/
lemma calls_bind {p : Method α} {f : α → Method β} (hp : Calls d chain cond p)
    (hf : ∀ a, Calls d chain cond (f a)) : Calls d chain cond (p >>= f) :=
  Upkeep.yields_bind hp fun a _ => hf a

/-- A part that writes to no ledger, and what follows it. -/
lemma calls_aside {p : Method α} {f : α → Method β} (bystander : Bystander p)
    (hf : ∀ a, Calls d chain cond (f a)) : Calls d chain cond (p >>= f) :=
  calls_bind (calls_of_bystander bystander) hf

/-- A value. -/
lemma calls_pure {a : α} : Calls d chain cond (pure a) := Upkeep.yields_pure trivial

/-- An exception. -/
lemma calls_throw {e : Exception} : Calls d chain cond (throw e : Method α) := Upkeep.yields_throw trivial

/-- A computation. -/
lemma calls_ofExcept {x : Except Exception α} : Calls d chain cond (.ofExcept x) :=
  Upkeep.yields_ofExcept (fun _ _ => trivial) fun _ _ => trivial

/-- Throwing for want of a value. -/
lemma calls_orThrow {e : Exception} {x : Option α} : Calls d chain cond (.orThrow e x) :=
  Upkeep.yields_orThrow (fun _ _ => trivial) trivial

/-- A check. -/
lemma calls_require {c : Prop} [Decidable c] {e : Exception} : Calls d chain cond (.require c e) :=
  Upkeep.yields_require trivial

/-- A program with its handler. -/
lemma calls_tryCatch {p : Method α} {f : Exception → Method α} (hp : Calls d chain cond p)
    (hf : ∀ e, Calls d chain cond (f e)) : Calls d chain cond (p.tryCatch f) :=
  Upkeep.yields_tryCatch hp fun e _ => hf e

/-- A program whose value is dropped. -/
lemma calls_discard {p : Method α} (hp : Calls d chain cond p) : Calls d chain cond p.discard :=
  calls_bind hp fun _ => calls_pure

/-! ### Sweeping -/

variable {id : Uuid} {context : RequestContext} {r : PayInRecord}

/-- Reading the pay-in. -/
lemma calls_requirePayIn : Calls d chain cond (requirePayIn id context) :=
  calls_bind (calls_request trivial) fun _ => calls_orThrow

/-- A response. -/
lemma calls_toResponse {replay : Bool} : Calls d chain cond (toResponse r replay) :=
  calls_of_bystander bystander_payInResponse

/-- Carrying out a sweep. -/
lemma calls_executeSweep {dto : SweepPayInDto} {amountAtomic : Option Nat} :
    Calls d chain cond (executeSweep d id dto context r amountAtomic) := by
  refine calls_aside bystander_sweepDerivedPayIn fun _ => ?_
  refine calls_aside (bystander_request rfl) fun now => ?_
  refine calls_bind (calls_request (.inr rfl)) fun updated => ?_
  refine calls_aside bystander_recordAudit fun _ => ?_
  cases updated with
  | none => exact calls_bind calls_requirePayIn fun _ => calls_pure
  | some updated => exact calls_pure

/-- Recording that a sweep failed. -/
lemma calls_handleSweepError {dto : SweepPayInDto} {e : Exception} :
    Calls d chain cond (handleSweepError id dto context e) := by
  refine calls_bind (calls_request (.inr rfl)) fun failed => ?_
  refine calls_aside bystander_recordAudit fun _ => ?_
  cases failed with
  | some failed => exact calls_pure
  | none => exact calls_throw

/-- The write to a row that has been read as a router pay-in. -/
lemma calls_notRequired {f : Option PayInRecord → Method α} (hf : ∀ o, Calls d chain cond (f o)) :
    (upkeep d chain cond).YieldsAfter (RoutedAt id)
      (request (.payInUpdate id notRequiredPatch {}) >>= f) (fun _ => True) fun _ => True := by
  refine Upkeep.yieldsAfter_bind (P := fun _ => True) ?_ fun o _ => hf o
  exact Upkeep.yieldsAfter_await RoutedAt.later
    (fun _ _ _ _ routed run => ⟨trivial, kept_of_routed routed run⟩) fun _ _ => trivial

/-- A pay-in that has been read as a router pay-in is one. -/
def Read (id : Uuid) (o : Option PayInRecord) (w : World) : Prop :=
  ∀ r, o = some r → r.collectionMode = .paymentRouter → RoutedAt id w

/-- A row that the world finds has been read. -/
lemma read_of_find {w : World} {client : Option String} : Read id (w.findPayIn id client) w := by
  intro r found mode
  exact ⟨r, (Option.filter_eq_some_iff.1 found).1, mode⟩

/-- A sweep. -/
lemma calls_sweepPayIn {dto : SweepPayInDto} :
    Calls d chain cond (sweepPayIn d id dto context) := by
  unfold sweepPayIn requirePayIn
  rw [Prog.bind_assoc]
  refine Upkeep.yields_await_bind (S := Api) (K := Read id) (fun w o w' _ run => ?_)
    (fun _ _ => trivial) fun o => ?_
  · cases run
    exact ⟨trivial, .refl, read_of_find⟩
  · cases o with
    | none => exact Upkeep.yieldsAfter_of_yields calls_throw
    | some payin =>
      change (upkeep d chain cond).YieldsAfter _ (if _ then _ else _) _ _
      split
      case isTrue router =>
        intro a w h shown
        exact calls_notRequired (fun _ => calls_bind calls_orThrow fun _ => calls_toResponse) a w h
          (shown payin rfl router)
      case isFalse =>
        refine Upkeep.yieldsAfter_of_yields ?_
        split
        case isTrue => exact calls_toResponse
        case isFalse =>
          refine calls_bind calls_ofExcept fun _ => ?_
          refine calls_bind (calls_tryCatch calls_executeSweep fun _ => calls_handleSweepError)
            fun _ => calls_toResponse

/-- A sweep after a top-up. -/
lemma calls_topUpAndSweep {dto : TopUpAndSweepDto} :
    Calls d chain cond (topUpAndSweep d id dto context) := by
  refine calls_bind calls_requirePayIn fun payin => ?_
  refine calls_bind calls_require fun _ => ?_
  refine calls_aside bystander_topUp fun _ => ?_
  split
  case isTrue => exact calls_aside (bystander_request rfl) fun _ => calls_sweepPayIn
  case isFalse => exact calls_sweepPayIn

/-- A sweep whose errors are dropped, in the background or in a round of retries. -/
lemma calls_autoSweep : Calls d chain cond (autoSweep d id context) :=
  calls_tryCatch (calls_discard calls_topUpAndSweep) fun _ => calls_pure

/-- The sweeps that are tried again. -/
lemma calls_retryPendingSweeps {limit : Nat} :
    Calls d chain cond (retryPendingSweeps d limit context) := by
  refine calls_bind (calls_request trivial) fun candidates => ?_
  exact calls_bind (Upkeep.yields_forEach fun _ _ => calls_autoSweep) fun _ => calls_pure

/-! ### The other calls -/

/-- A manual acceptance. -/
lemma calls_acceptPayIn {dto : AcceptPayInDto} :
    Calls d chain cond (acceptPayIn id dto context) := by
  refine calls_bind calls_requirePayIn fun payin => ?_
  refine calls_aside (bystander_request rfl) fun now => ?_
  refine calls_bind (calls_request (.inl ⟨rfl, rfl, rfl, rfl, rfl, rfl⟩)) fun updated => ?_
  cases updated with
  | none =>
    refine calls_bind calls_requirePayIn fun current => ?_
    split
    case isTrue => exact calls_toResponse
    case isFalse => exact calls_throw
  | some updated =>
    refine calls_aside bystander_recordAudit fun _ => ?_
    exact calls_aside bystander_enqueue fun _ => calls_toResponse

/-- What follows the write of a reconciliation. -/
lemma calls_announceConfirmed {payin : PayInRecord} {confirmed : Bool} :
    Calls d chain cond (announceConfirmed d id context payin confirmed r) := by
  unfold announceConfirmed
  split
  case isFalse => exact calls_pure
  case isTrue =>
    refine calls_aside bystander_enqueue fun _ => ?_
    split
    case isTrue => exact Upkeep.yields_spawn calls_autoSweep
    case isFalse => exact calls_pure

/-- A reconciliation. -/
lemma calls_reconcilePayIn : Calls d chain cond (reconcilePayIn d id context) := by
  refine calls_bind calls_requirePayIn fun payin => ?_
  split
  case isTrue => exact calls_toResponse
  case isFalse =>
    refine calls_aside (bystander_request rfl) fun latestBlock => ?_
    refine calls_aside bystander_findPayInTransfers fun transfers => ?_
    refine calls_aside (bystander_request rfl) fun now => ?_
    refine calls_aside bystander_readExpired fun expired => ?_
    refine calls_bind (calls_request (.inl ⟨rfl, rfl, rfl, rfl, rfl, rfl⟩)) fun updated => ?_
    refine calls_bind calls_orThrow fun updated => ?_
    refine calls_aside bystander_recordAudit fun _ => ?_
    refine calls_aside bystander_announceDetected fun _ => ?_
    exact calls_bind calls_announceConfirmed fun _ => calls_toResponse

/-- A creation. -/
lemma calls_createPayIn {dto : CreatePayInDto} : Calls d chain cond (createPayIn d dto context) := by
  refine calls_of_uses (uses_createPayIn (fun c clerical _ => ?_) trivial fun _ _ _ => trivial)
  cases c <;> trivial

/-- A top-up. -/
lemma calls_topUpPayIn {dto : TopUpPayInDto} : Calls d chain cond (topUpPayIn d id dto context) := by
  refine calls_bind calls_requirePayIn fun payin => ?_
  refine calls_bind calls_require fun _ => ?_
  exact calls_aside bystander_topUp fun _ => calls_toResponse

/-- A list. -/
lemma calls_listPayIns {query : ListPayInsQueryDto} :
    Calls d chain cond (listPayIns query context) := by
  refine calls_bind (calls_request trivial) fun rows => ?_
  refine calls_of_uses (Prog.uses_promiseAll fun s mem => ?_)
  obtain ⟨r, -, rfl⟩ := List.mem_map.1 mem
  exact ⟨trivial, fun _ _ _ _ => trivial⟩

/-- Every call keeps the sweeps. -/
lemma sound : (upkeep d chain cond).Sound := by
  intro p entry
  refine ⟨fun _ => True, ?_⟩
  cases entry with
  | createPayIn => exact calls_discard calls_createPayIn
  | listPayIns => exact calls_discard calls_listPayIns
  | getPayIn => exact calls_discard (calls_bind calls_requirePayIn fun _ => calls_toResponse)
  | reconcilePayIn => exact calls_discard calls_reconcilePayIn
  | acceptPayIn => exact calls_discard calls_acceptPayIn
  | sweepPayIn => exact calls_discard calls_sweepPayIn
  | topUpPayIn => exact calls_discard calls_topUpPayIn
  | topUpAndSweep => exact calls_discard calls_topUpAndSweep
  | retryPendingSweeps => exact calls_discard calls_retryPendingSweeps

/-- Once the row of a derived address records a sweep, nothing that the row says of the sweep changes, in
    any interleaving of pay-in calls, with any failures. -/
theorem recorded_sweep_stays {w : World} {s s' : Sys Api World}
    (reach : (payInLedger d chain cond).Reachable w s) (steps : (payInLedger d chain cond).Steps s s')
    (found : s.world.payins.find? id = some r) (derived : Derived r) (swept : Swept r) :
    ∃ r', s'.world.payins.find? id = some r' ∧ sweepOf r' = sweepOf r := by
  obtain ⟨r', found', keeps⟩ := Upkeep.le_of_steps sound trivial reach steps id r found
  exact ⟨r', found', keeps.sweep derived swept⟩

end

/-! ## A concrete run -/

/-- A chain on which every address has gas and tokens. -/
def fundedWorld : World :=
  .fresh { World.sampleChain with balance := fun _ => 1 } 0 World.sampleId sampleNonce

/-- The creation of a pay-in on an address of its own. -/
def sampleCreation : Method Unit :=
  (createPayIn asyncDeployment (sampleDto .derivedAddress) .sample).discard

/-- A sweep of the pay-in. -/
def sampleSweep : Method Unit := (sweepPayIn asyncDeployment World.sampleId {} .sample).discard

/-- Two sweeps of a pay-in overlap: the first one is recorded. -/
def overlapping : List (Choice Api World) :=
  .enter sampleCreation :: Choice.steps 0 7 ++ .enter sampleSweep :: .enter sampleSweep ::
    Choice.steps 2 3 ++ Choice.steps 1 6

/-- The second one fails to submit its transaction. -/
def failing : List (Choice Api World) :=
  .env (redraw otherId) :: .run 2 (.call (.refused Exception.unknown)) :: Choice.steps 2 2

/-- A failing duplicate that finishes last leaves the record of the first sweep. -/
theorem recorded_sweep_stays_of_duplicate : ∃ s s' r r',
    (payInLedger asyncDeployment Advances fun _ _ _ => True).Reachable fundedWorld s ∧
      (payInLedger asyncDeployment Advances fun _ _ _ => True).Steps s s' ∧
      (∃ e ∈ s'.world.audit, e.type = .payinSweepFailed) ∧
      s.world.payins.find? World.sampleId = some r ∧ Derived r ∧ Swept r ∧
        s'.world.payins.find? World.sampleId = some r' ∧ sweepOf r' = sweepOf r := by
  have legal : ∀ c ∈ overlapping,
      c.Legal (payInLedger asyncDeployment Advances fun _ _ _ => True) := by
    simp only [overlapping, Choice.steps, List.cons_append, List.mem_cons, List.mem_append,
      List.mem_replicate, forall_eq_or_imp, Choice.legal_enter]
    refine ⟨.createPayIn, ?_⟩
    rintro c ((⟨-, rfl⟩ | rfl | rfl | ⟨-, rfl⟩) | ⟨-, rfl⟩)
    · trivial
    · exact .sweepPayIn
    · exact .sweepPayIn
    · trivial
    · trivial
  obtain ⟨s, s', reach, steps, holds⟩ := Machine.reachable_of_runs
    (M := payInLedger asyncDeployment Advances fun _ _ _ => True) (w := fundedWorld) Machine.always
    overlapping failing (fun s s' => (s.world.payins.find? World.sampleId).any fun r =>
      (decide (Derived r) && decide (r.sweepStatus = .broadcasted)) &&
        s'.world.audit.any fun e => decide (e.type = .payinSweepFailed))
    (fun _ _ _ _ => trivial) legal (List.forall_mem_cons.2 ⟨env_redraw, by simp [Choice.steps]⟩)
    (by decide +kernel)
  obtain ⟨r, found, holds⟩ := (Option.any_eq_true _ _).1 holds
  simp only [Bool.and_eq_true, decide_eq_true_eq, List.any_eq_true] at holds
  obtain ⟨⟨derived, swept⟩, failed⟩ := holds
  obtain ⟨r', found', same⟩ := recorded_sweep_stays reach steps found derived (.inl swept)
  exact ⟨s, s', r, r', reach, steps, failed, found, derived, .inl swept, found', same⟩

end AvaSettle.Payins.Sweeps
