import AvaSettle.Async.Only
import AvaSettle.Reconciliation.Service

/-!
# AutoReconcileService

A tick of the scheduler: a reconciliation run and then the retries of the pending sweeps. The ticks
are started by a timer, whether or not the ones before are over.
-/

namespace AvaSettle.Reconciliation
open Async (Prog Turns Hist Event Machine)

/-- `SWEEP_RETRY_BATCH`. -/
def sweepRetryBatch : Nat := 5

/-- `SYSTEM_CONTEXT`. -/
def systemContext : RequestContext where
  clientId := none
  clientName := none
  correlationId := none
  idempotencyKey := none
  actor := some "auto-reconcile"
  sourceIp := none

/-- `tick`. -/
def tick (d : Deployment) (turns : Interleaving) : Method Unit := do
  Prog.tryCatch (Prog.discard (run d turns systemContext)) fun _ => return ()
  if d.autoSweep then
    Prog.tryCatch (Prog.discard (Payins.retryPendingSweeps d sweepRetryBatch systemContext)) fun _ =>
      return ()
  else return ()

/-! ## What a tick awaits -/

/-- The listing of the retry candidates. -/
def isListing : Call → Bool
  | .payInSweepCandidates _ _ => true
  | _ => false

/-- A transaction that sends gas. -/
def isNative : Call → Bool
  | .submit _ (.native _ _) _ => true
  | _ => false

/-- A call that lists no candidates. -/
def Unlisting (c : Call) : Prop := isListing c = false

/-- A call that neither lists candidates nor sends gas. -/
def Calm (c : Call) : Prop := isListing c = false ∧ isNative c = false

/-- A program in the background that lists no candidates and starts nothing. -/
abbrev Background (child : Method Unit) : Prop := child.Only Unlisting True fun _ => False

section
variable {d : Deployment} {id : Uuid} {context : RequestContext} {A : Prop} {Q : Method Unit → Prop}

/-- A call awaits itself. -/
lemma only_request {P : Call → Prop} {c : Call} (h : P c) : (request c).Only P A Q :=
  Prog.only_await (S := Api) h

/-- A calm call is calm. -/
lemma only_calm {c : Call} (h : Calm c) : (request c).Only Calm A Q := only_request h

/-! ### A sweep -/

/-- An audit event is recorded calmly. -/
lemma only_recordAudit {type : AuditEventType} {actor : AuditActor} {payload : List (String × Json)} :
    (recordAudit type id actor payload).Only Calm A Q := only_calm ⟨rfl, rfl⟩

/-- So is an event put into the outbox, -/
lemma only_enqueue {clientId : Option String} {event : String} {payload : List (String × Json)} :
    (enqueue clientId event payload).Only Calm A Q := by
  unfold enqueue
  cases truthy clientId with
  | none => trivial
  | some c => exact Prog.only_awaitOr (S := Api) ⟨rfl, rfl⟩

/-- a pay-in read, -/
lemma only_requirePayIn : (Payins.requirePayIn id context).Only Calm A Q :=
  Prog.only_bind (only_calm ⟨rfl, rfl⟩) fun _ => Prog.only_orThrow

/-- and a response built. -/
lemma only_toResponse {record : PayInRecord} {replay : Bool} :
    (Payins.toResponse record replay).Only Calm A Q :=
  Prog.only_bind (only_calm ⟨rfl, rfl⟩) fun _ => trivial

/-- A transaction is waited for calmly. -/
lemma only_toTransferExecution {hash : Hex} :
    (Blockchain.toTransferExecution d hash).Only Calm A Q := by
  unfold Blockchain.toTransferExecution
  split
  · exact Prog.only_bind (only_calm ⟨rfl, rfl⟩) fun _ => trivial
  · trivial

/-- A sweep sends no gas. -/
lemma only_sweepDerivedPayIn {asset : SettlementAsset} {index : Int} {expected : Hex}
    {amount : Option Nat} :
    (Blockchain.sweepDerivedPayIn d asset index expected amount).Only Calm A Q := by
  refine Prog.only_bind Prog.only_require fun _ => ?_
  refine Prog.only_bind Prog.only_ofExcept fun _ => ?_
  refine Prog.only_bind Prog.only_ofExcept fun _ => ?_
  refine Prog.only_bind Prog.only_ofExcept fun _ => ?_
  refine Prog.only_bind Prog.only_ofExcept fun _ => ?_
  refine Prog.only_bind Prog.only_require fun _ => ?_
  refine Prog.only_bind (only_calm ⟨rfl, rfl⟩) fun _ => ?_
  refine Prog.only_bind Prog.only_require fun _ => ?_
  refine Prog.only_bind Prog.only_ofExcept fun _ => ?_
  refine Prog.only_bind (only_calm ⟨rfl, rfl⟩) fun _ => ?_
  refine Prog.only_bind Prog.only_require fun _ => ?_
  refine Prog.only_bind Prog.only_require fun _ => ?_
  refine Prog.only_bind (only_calm ⟨rfl, rfl⟩) fun _ => ?_
  exact Prog.only_bind only_toTransferExecution fun _ => trivial

/-- Nor does the body of `sweepPayIn`, -/
lemma only_executeSweep {dto : Payins.SweepPayInDto} {payin : PayInRecord} {amount : Option Nat} :
    (Payins.executeSweep d id dto context payin amount).Only Calm A Q := by
  refine Prog.only_bind only_sweepDerivedPayIn fun _ => ?_
  refine Prog.only_bind (only_calm ⟨rfl, rfl⟩) fun _ => ?_
  refine Prog.only_bind (only_calm ⟨rfl, rfl⟩) fun updated => ?_
  refine Prog.only_bind only_recordAudit fun _ => ?_
  cases updated with
  | none => exact Prog.only_bind only_requirePayIn fun _ => trivial
  | some updated => trivial

/-- nor its `catch`, -/
lemma only_handleSweepError {dto : Payins.SweepPayInDto} {error : Exception} :
    (Payins.handleSweepError id dto context error).Only Calm A Q := by
  refine Prog.only_bind (only_calm ⟨rfl, rfl⟩) fun failed => ?_
  refine Prog.only_bind only_recordAudit fun _ => ?_
  cases failed with
  | none => trivial
  | some failed => trivial

/-- nor all of it. -/
lemma only_sweepPayIn {dto : Payins.SweepPayInDto} :
    (Payins.sweepPayIn d id dto context).Only Calm A Q := by
  refine Prog.only_bind only_requirePayIn fun payin => ?_
  split
  · refine Prog.only_bind (only_calm ⟨rfl, rfl⟩) fun _ => ?_
    exact Prog.only_bind Prog.only_orThrow fun _ => only_toResponse
  · split
    · exact only_toResponse
    · refine Prog.only_bind Prog.only_ofExcept fun _ => ?_
      refine Prog.only_bind (Prog.only_tryCatch only_executeSweep fun _ => only_handleSweepError)
        fun _ => only_toResponse

/-! ### A top-up -/

/-- What is calm lists no candidates. -/
lemma only_unlisting {α : Type} {p : Method α} (calm : p.Only Calm A Q) : p.Only Unlisting A Q :=
  Prog.only_mono (fun _ calm => calm.1) id (fun _ hQ => hQ) calm

/-- A top-up lists no candidates. -/
lemma only_topUp {payin : PayInRecord} {amountAvax : Option String} :
    (Payins.topUp d id context payin amountAvax).Only Unlisting A Q := by
  refine Prog.only_bind Prog.only_ofExcept fun _ => ?_
  refine Prog.only_bind ?_ fun _ => Prog.only_bind (only_unlisting only_recordAudit) fun _ => trivial
  refine Prog.only_bind Prog.only_require fun _ => ?_
  refine Prog.only_bind Prog.only_ofExcept fun _ => ?_
  refine Prog.only_bind (only_request rfl) fun _ => ?_
  refine Prog.only_bind Prog.only_require fun _ => ?_
  exact Prog.only_bind (only_request rfl) fun _ => only_unlisting only_toTransferExecution

/-- Nor does a top-up with a sweep, -/
lemma only_topUpAndSweep {dto : Payins.TopUpAndSweepDto} :
    (Payins.topUpAndSweep d id dto context).Only Unlisting A Q := by
  refine Prog.only_bind (only_unlisting only_requirePayIn) fun payin => ?_
  refine Prog.only_bind Prog.only_require fun _ => ?_
  refine Prog.only_bind only_topUp fun topup => ?_
  split
  · exact Prog.only_bind (only_request rfl) fun _ => only_unlisting only_sweepPayIn
  · exact only_unlisting only_sweepPayIn

/-- in the background or not. -/
lemma only_autoSweep : Background (Payins.autoSweep d id context) :=
  Prog.only_tryCatch (Prog.only_discard only_topUpAndSweep) fun _ => trivial

/-! ### A reconciliation run -/

/-- Logs are read calmly. -/
lemma only_paginateLogs {T : Type} {fromBlock toBlock : Nat}
    {fetchChunk : Nat → Nat → Method (List T)} {chunkSize : ℕ+}
    (each : ∀ f t, (fetchChunk f t).Only Calm A Q) :
    (Blockchain.paginateLogs fromBlock toBlock fetchChunk chunkSize).Only Calm A Q := by
  have loop {fuel fromBlock : Nat} {results : List T} :
      (Blockchain.paginateFrom fetchChunk chunkSize toBlock fuel fromBlock results).Only Calm A Q := by
    induction fuel generalizing fromBlock results with
    | zero => trivial
    | succ fuel ih =>
      unfold Blockchain.paginateFrom
      split
      · exact Prog.only_bind (each _ _) fun _ => ih
      · trivial
  unfold Blockchain.paginateLogs
  split
  · trivial
  · exact loop

/-- So are the transfers of a pay-in. -/
lemma only_findPayInTransfers {payin : PayInRecord} {toBlock : Nat} :
    (Payins.findPayInTransfers d payin toBlock).Only Calm A Q := by
  unfold Payins.findPayInTransfers
  split
  · refine Prog.only_bind Prog.only_orThrow fun _ => Prog.only_bind ?_ fun _ => trivial
    refine Prog.only_bind Prog.only_orThrow fun _ => ?_
    refine Prog.only_bind Prog.only_ofExcept fun _ => Prog.only_bind Prog.only_ofExcept fun _ => ?_
    split
    · trivial
    · exact Prog.only_bind (only_paginateLogs fun _ _ => only_calm ⟨rfl, rfl⟩) fun _ => trivial
  · refine Prog.only_bind Prog.only_ofExcept fun _ => ?_
    split
    · trivial
    · exact Prog.only_bind (only_paginateLogs fun _ _ => only_calm ⟨rfl, rfl⟩) fun _ => trivial

/-- A reconciliation writes calmly, and starts a sweep in the background. -/
lemma only_writeReconciled {payin : PayInRecord} {latestBlock : Nat}
    {transfers : List PayInTransferRecord} :
    (Payins.writeReconciled d id context payin latestBlock transfers).Only Calm True Background := by
  refine Prog.only_bind (only_calm ⟨rfl, rfl⟩) fun _ => ?_
  refine Prog.only_bind ?_ fun _ => ?_
  · unfold Payins.readExpired
    split
    · trivial
    · exact Prog.only_bind (only_calm ⟨rfl, rfl⟩) fun _ => trivial
  refine Prog.only_bind (only_calm ⟨rfl, rfl⟩) fun _ => ?_
  refine Prog.only_bind Prog.only_orThrow fun _ => ?_
  refine Prog.only_bind only_recordAudit fun _ => ?_
  refine Prog.only_bind ?_ fun _ => Prog.only_bind ?_ fun _ => only_toResponse
  · unfold Payins.announceDetected
    split
    · exact only_enqueue
    · trivial
  · unfold Payins.announceConfirmed
    split
    · refine Prog.only_bind only_enqueue fun _ => ?_
      split
      · exact Prog.only_spawn only_autoSweep
      · trivial
    · trivial

/-- A pay-in is reconciled calmly. -/
lemma only_reconcilePayIn : (Payins.reconcilePayIn d id context).Only Calm True Background := by
  refine Prog.only_bind only_requirePayIn fun payin => ?_
  split
  · exact only_toResponse
  · refine Prog.only_bind (only_calm ⟨rfl, rfl⟩) fun _ => ?_
    exact Prog.only_bind only_findPayInTransfers fun _ => only_writeReconciled

/-- So is a payout. -/
lemma only_reconcilePayout : (Payouts.reconcilePayout d id context).Only Calm A Q := by
  refine Prog.only_bind (Prog.only_bind (only_calm ⟨rfl, rfl⟩) fun _ => Prog.only_ofExcept) fun _ => ?_
  refine Prog.only_bind Prog.only_orThrow fun _ => ?_
  refine Prog.only_bind ?_ fun _ => ?_
  · refine Prog.only_bind (Prog.only_awaitOr (S := Api) ⟨rfl, rfl⟩) fun receipt => ?_
    cases receipt with
    | none => trivial
    | some receipt => exact Prog.only_bind (only_calm ⟨rfl, rfl⟩) fun _ => trivial
  refine Prog.only_bind (only_calm ⟨rfl, rfl⟩) fun _ => ?_
  refine Prog.only_bind (only_calm ⟨rfl, rfl⟩) fun _ => ?_
  refine Prog.only_bind only_recordAudit fun _ => ?_
  refine Prog.only_bind Prog.only_orThrow fun _ => ?_
  exact Prog.only_bind (only_calm ⟨rfl, rfl⟩) fun _ => trivial

/-- The responses of a listing are built side by side. -/
lemma only_responses {ρ β : Type} {slot : ρ → Async.Slot Api β} {trail : ρ → Uuid}
    (op : ∀ r, (slot r).op? = some (.auditListBySubject (trail r))) {records : List ρ} :
    (Prog.promiseAll (records.map slot)).Only Calm True Q := by
  refine Prog.only_promiseAll fun c mem => ?_
  obtain ⟨s, hs, eq⟩ := List.mem_filterMap.1 mem
  obtain ⟨r, -, rfl⟩ := List.mem_map.1 hs
  rw [op] at eq
  cases eq
  exact ⟨rfl, rfl⟩

/-- Pay-ins are listed calmly. -/
lemma only_listPayIns {query : Payins.ListPayInsQueryDto} :
    (Payins.listPayIns query context).Only Calm True Q :=
  Prog.only_bind (only_calm ⟨rfl, rfl⟩) fun _ => only_responses fun _ => rfl

/-- So are payouts. -/
lemma only_listPayouts {query : Payouts.ListPayoutsQueryDto} :
    (Payouts.listPayouts query context).Only Calm True Q :=
  Prog.only_bind (only_calm ⟨rfl, rfl⟩) fun _ => only_responses fun _ => rfl

/-- The batches of a run are calm. -/
lemma only_settleBatches {T : Type} {settle : T → Method ReconciliationItemResult}
    (each : ∀ x, (settle x).Only Calm A Q) {bs : List (List T)} {turns : Nat → Nat → Turns}
    {results : List ReconciliationItemResult} : (settleBatches settle bs turns results).Only Calm A Q := by
  induction bs generalizing turns results with
  | nil => trivial
  | cons batch bs ih =>
    refine Prog.only_bind (Prog.only_allSettled fun p mem => ?_) fun _ => ih
    obtain ⟨x, -, rfl⟩ := List.mem_map.1 mem
    exact each x

/-- A run is calm, apart from the sweeps that it starts. -/
lemma only_run {turns : Interleaving} : (run d turns context).Only Calm True Background := by
  refine Prog.only_bind (only_calm ⟨rfl, rfl⟩) fun _ => ?_
  refine Prog.only_bind (only_calm ⟨rfl, rfl⟩) fun _ => ?_
  refine Prog.only_bind only_listPayouts fun _ => ?_
  refine Prog.only_bind (Prog.only_both only_listPayIns
    (Prog.only_both only_listPayIns only_listPayIns)) fun _ => ?_
  refine Prog.only_bind (only_settleBatches fun _ => ?_) fun _ => ?_
  · exact Prog.only_tryCatch (Prog.only_bind only_reconcilePayout fun _ => trivial) fun _ => trivial
  refine Prog.only_bind (only_settleBatches fun _ => ?_) fun _ => ?_
  · exact Prog.only_tryCatch (Prog.only_bind only_reconcilePayIn fun _ => trivial) fun _ => trivial
  exact Prog.only_bind (only_calm ⟨rfl, rfl⟩) fun _ => trivial

end

end AvaSettle.Reconciliation
