import AvaSettle.Async.Settled
import AvaSettle.Payins.Service
import AvaSettle.Payouts.Service

/-!
# ReconciliationService

A reconciliation run: the payouts and pay-ins that may have moved are listed and reconciled, ten at a
time. Which of the calls in flight is answered next is an argument of the run.
-/

namespace AvaSettle.Reconciliation
open Async (Prog Turns)

/-- `ReconciliationItemResult.type`. -/
inductive ReconciliationItemType : Type where
  | payout
  | payin
  deriving DecidableEq, Repr

/-- `ReconciliationItemResult`. -/
structure ReconciliationItemResult where
  type : ReconciliationItemType
  id : Uuid
  status : String
  ok : Bool
  error : Option String
  deriving DecidableEq, Repr

/-- `ReconciliationRunResult`. -/
structure ReconciliationRunResult where
  startedAt : Timestamp
  completedAt : Timestamp
  payoutsChecked : Nat
  payinsChecked : Nat
  results : List ReconciliationItemResult

/-- `RECONCILIATION_CONCURRENCY`. -/
def reconciliationConcurrency : Nat := 10

/-- `BATCH_LIMIT`. -/
def batchLimit : Nat := 1000

/-- The order in which the calls in flight are answered, in each part of a run. -/
structure Interleaving where
  listings : Nat → Turns
  payouts : Nat → Nat → Turns
  payins : Nat → Nat → Turns

/-- The batches of a list, as the loops slice it. -/
def batches {T : Type} (items : List T) : List (List T) :=
  (List.range ((items.length + (reconciliationConcurrency - 1)) / reconciliationConcurrency)).map
    fun i => (items.drop (i * reconciliationConcurrency)).take reconciliationConcurrency

/-- The loop over the batches: the calls of a batch run side by side, and those that are fulfilled are
    pushed. -/
def settleBatches {T : Type} (settle : T → Method ReconciliationItemResult) :
    List (List T) → (Nat → Nat → Turns) → List ReconciliationItemResult →
      Method (List ReconciliationItemResult)
  | [], _, results => return results
  | batch :: batches, turns, results => do
    let settled ← Prog.allSettled (batch.map settle) (turns 0)
    settleBatches settle batches (fun n => turns (n + 1))
      (results ++ settled.filterMap Except.toOption)

section
variable (d : Deployment)

/-- The reconciliation of a payout, with its outcome. -/
def settlePayout (context : RequestContext) (payout : PayoutResponse) :
    Method ReconciliationItemResult :=
  (Payouts.reconcilePayout d payout.id context >>= fun reconciled =>
    return ⟨.payout, payout.id, reconciled.status.text, true, none⟩).tryCatch fun error =>
      .pure ⟨.payout, payout.id, payout.status.text, false, some (error.messageOr "Unknown error")⟩

/-- The reconciliation of a pay-in, with its outcome. -/
def settlePayIn (context : RequestContext) (payin : PayInResponse) :
    Method ReconciliationItemResult :=
  (Payins.reconcilePayIn d payin.id context >>= fun reconciled =>
    return ⟨.payin, payin.id, reconciled.status.text, true, none⟩).tryCatch fun error =>
      .pure ⟨.payin, payin.id, payin.status.text, false, some (error.messageOr "Unknown error")⟩

/-- The pending pay-ins that are still to be scanned. -/
def pendingCandidates (now : Timestamp) (pending : List PayInResponse) : List PayInResponse :=
  pending.filter fun p => p.expiresAt.all fun expiresAt => decide (now < expiresAt)

/-- The pay-ins in a status, up to the limit. -/
def listByStatus (context : RequestContext) (status : PayInStatus) : Method (List PayInResponse) :=
  Payins.listPayIns ⟨some status, none, some batchLimit, none⟩ context

/-- The three listings of pay-ins. -/
def listPayInCandidates (turns : Nat → Turns) (context : RequestContext) :
    Method (List PayInResponse × List PayInResponse × List PayInResponse) :=
  (listByStatus context .pending).both (turns 0)
    ((listByStatus context .detected).both (turns 1) (listByStatus context .underpaid))

/-- The loops of a run. -/
def settleCandidates (turns : Interleaving) (context : RequestContext) (startedAt : Timestamp)
    (payoutCandidates : List PayoutResponse) (payinCandidates : List PayInResponse) :
    Method ReconciliationRunResult := do
  let results ← settleBatches (settlePayout d context) (batches payoutCandidates) turns.payouts []
  let results ← settleBatches (settlePayIn d context) (batches payinCandidates) turns.payins results
  let completedAt ← request .clock
  return ⟨startedAt, completedAt, payoutCandidates.length, payinCandidates.length, results⟩

/-- `run`, once the clock has been read. -/
def runAt (turns : Interleaving) (context : RequestContext) (startedAt now : Timestamp) :
    Method ReconciliationRunResult := do
  let payoutCandidates ← Payouts.listPayouts
    ⟨some .broadcasted, none, some batchLimit, none⟩ context
  let (pending, detected, underpaid) ← listPayInCandidates turns.listings context
  settleCandidates d turns context startedAt payoutCandidates
    (pendingCandidates now pending ++ detected ++ underpaid)

/-- `run`. -/
def run (turns : Interleaving) (context : RequestContext) : Method ReconciliationRunResult := do
  let startedAt ← request .clock
  let now ← request .clock
  runAt d turns context startedAt now

end

end AvaSettle.Reconciliation
