import AvaSettle.Payins.Scan

/-!
# Pay-in calls

Every call of the pay-in services, from its first operation to its last: the insert of a new pay-in,
the unguarded write of a reconciliation, the guarded write of a manual acceptance, and the calls that
write sweep columns only.
-/

namespace AvaSettle.Payins
open Async
open Data (Table)
open Blockchain

/-! ## Calls on the side -/

section
variable {d : Deployment} {id : Uuid} {context : RequestContext} {payin : PayInRecord}

/-- A sweep leaves the columns that a row is judged by. -/
lemma quiet_sweepPayIn {dto : SweepPayInDto} : Quiet (sweepPayIn d id dto context) := by
  refine Prog.uses_bind quiet_requirePayIn fun payin => ?_
  dsimp only
  split
  case isTrue =>
    exact Prog.uses_bind (quiet_request rfl) fun _ => Prog.uses_bind quiet_orThrow fun _ =>
      quiet_toResponse
  case isFalse =>
    split
    case isTrue => exact quiet_toResponse
    case isFalse =>
      exact Prog.uses_bind quiet_ofExcept fun _ => Prog.uses_bind
        (Prog.uses_tryCatch quiet_executeSweep fun _ _ => quiet_handleSweepError)
          fun _ => quiet_toResponse

/-- A gas top-up leaves them too. -/
lemma quiet_topUp {amount : Option String} : Quiet (topUp d id context payin amount) :=
  Prog.uses_bind quiet_ofExcept fun _ =>
    Prog.uses_bind (Prog.uses_bind quiet_require fun _ => Prog.uses_bind quiet_ofExcept fun _ =>
      Prog.uses_bind (quiet_request rfl) fun _ => Prog.uses_bind quiet_require fun _ =>
      Prog.uses_bind (quiet_request rfl) fun _ => quiet_toTransferExecution) fun _ =>
    Prog.uses_bind quiet_recordAudit fun _ => Prog.uses_pure _

/-- So does the endpoint that tops up. -/
lemma quiet_topUpPayIn {dto : TopUpPayInDto} : Quiet (topUpPayIn d id dto context) :=
  Prog.uses_bind quiet_requirePayIn fun _ => Prog.uses_bind quiet_require fun _ =>
    Prog.uses_bind quiet_topUp fun _ => quiet_toResponse

/-- So does a sweep after a top-up. -/
lemma quiet_topUpAndSweep {dto : TopUpAndSweepDto} : Quiet (topUpAndSweep d id dto context) := by
  refine Prog.uses_bind quiet_requirePayIn fun _ => Prog.uses_bind quiet_require fun _ =>
    Prog.uses_bind quiet_topUp fun topup => ?_
  dsimp only
  split
  case isTrue => exact Prog.uses_bind (quiet_request rfl) fun _ => quiet_sweepPayIn
  case isFalse => exact quiet_sweepPayIn

/-- So does the background sweep. -/
lemma quiet_autoSweep : Quiet (autoSweep d id context) :=
  Prog.uses_tryCatch (Prog.uses_bind quiet_topUpAndSweep fun _ => Prog.uses_pure _)
    fun _ _ => Prog.uses_pure _

/-- So do the sweeps that are tried again. -/
lemma quiet_retryPendingSweeps {limit : Nat} : Quiet (retryPendingSweeps d limit context) :=
  Prog.uses_bind (quiet_request rfl) fun _ =>
    Prog.uses_bind (Prog.uses_forEach fun _ _ => quiet_autoSweep) fun _ => Prog.uses_pure _

/-- A list is only read. -/
lemma quiet_listPayIns {query : ListPayInsQueryDto} : Quiet (listPayIns query context) :=
  Prog.uses_bind (quiet_request rfl) fun _ => Prog.uses_promiseAll fun s mem => by
    obtain ⟨r, -, rfl⟩ := List.mem_map.1 mem
    exact ⟨rfl, fun _ _ _ _ => trivial⟩

/-- A pay-in is only read. -/
lemma quiet_getPayIn : Quiet (getPayIn id context) :=
  Prog.uses_bind quiet_requirePayIn fun _ => quiet_toResponse

end

section
variable {S : Setting} {u : Unit} {w w' : World} {h : Hist Api} {id : Uuid}
  {context : RequestContext} {payin : PayInRecord} {n : Nat} {new : List PayInTransferRecord}

/-! ## reconcilePayIn -/

/-- Reading the clock keeps what has been found. -/
lemma wp_clock (found : Found S id payin n new w h) :
    S.spec.wp (request .clock) (fun r _ w h => match r with
      | .ok _ => Found S id payin n new w h
      | .error _ => Honest h) u w h := by
  refine wp_request rfl found.headed.honest fun w₁ o w₂ le inv reply later honest => ?_
  have kept := found.move (le.trans later) honest rfl
  cases o with
  | done b => exact kept
  | refused e => exact honest
  | lost b e => exact honest

/-- Asking whether the pay-in has expired keeps what has been found. -/
lemma wp_readExpired (found : Found S id payin n new w h) :
    S.spec.wp (readExpired payin) (fun r _ w h => match r with
      | .ok _ => Found S id payin n new w h
      | .error _ => Honest h) u w h := by
  unfold readExpired
  split
  case h_1 => exact found
  case h_2 =>
    exact Spec.wp_bind_of (wp_clock found) (fun _ _ _ _ found => found) fun _ _ _ _ honest => honest

/-- A call that has seen the payment in its history has seen it in the logs that it merges. -/
lemma Found.paid (found : Found S id payin n new w h) (seen : SeenPaid S.deployment h) :
    Paid S.deployment payin (mergeTransfers payin.transfers new) n := by
  obtain ⟨payin', n', read, told, paid⟩ := seen
  obtain rfl := Option.some.inj (read.symm.trans found.headed.read)
  obtain rfl := Option.some.inj (told.symm.trans found.headed.told)
  rwa [found.given] at paid

/-- The unguarded write. -/
lemma wp_reconcile {expired : Bool} {now : Timestamp} (found : Found S id payin n new w h) :
    S.spec.wp (request (.payInUpdate id (reconcilePatch S.deployment payin
      (mergeTransfers payin.transfers new) n (reconciledStatus S.deployment payin
        (mergeTransfers payin.transfers new) n expired) now) {})) (fun _ => Final) u w h := by
  refine Spec.wp_await (op_of (K := fun _ _ h => Honest h) fun w₁ o w₂ le inv reply ok => ?_)
  have honest : ∀ o, Honest (h ++ [⟨.payInUpdate id (reconcilePatch S.deployment payin
      (mergeTransfers payin.transfers new) n (reconciledStatus S.deployment payin
        (mergeTransfers payin.transfers new) n expired) now) {}, o⟩]) := fun o =>
    found.headed.honest.append fun m written => by
      obtain rfl : n = m := Option.some.inj written
      exact found.headed.told
  have performed : ∀ b, World.exec (.payInUpdate id (reconcilePatch S.deployment payin
      (mergeTransfers payin.transfers new) n (reconciledStatus S.deployment payin
        (mergeTransfers payin.transfers new) n expired) now) {}) w₁ = some (b, w₂) →
      Inv S.terms S.deployment w₂ ∧ Later S.terms w₁ w₂ := fun b run => by
    have copy := found.headed.copy.later le
    have head := found.headed.head
    cases run
    refine inv_of_update inv (fun r row _ => ?_) fun timed r row _ confirmed => ?_
    · obtain ⟨r', row', same⟩ := copy.row
      obtain rfl := Option.some.inj (row'.symm.trans row)
      refine RowOk.reconciled inv.chain copy.ok same (fun g x mem => ?_)
        (fun g => (head g).trans (le.chain g).head) fun g pos x mem above below => ?_
      · exact (le.chain g).mem_matching (found.real g x mem)
      · have bound := head g
        exact found.found g pos x ((le.chain g).mem_matching_of_le mem (by omega)) above below
    · have seen := S.timely timed h w₁ _ ok id _ _ rfl rfl nofun r row confirmed
      exact reconciledStatus_eq_confirmed_iff.2 (found.paid seen)
  cases o with
  | done b => exact ⟨honest _, (performed b reply).1, (performed b reply).2, honest _⟩
  | refused e =>
    obtain ⟨-, rfl⟩ := reply
    exact ⟨honest _, inv, .refl, honest _⟩
  | lost b e => exact ⟨honest _, (performed b reply.1).1, (performed b reply.1).2, honest _⟩

/-- What follows the write keeps the history honest. -/
lemma wp_announceConfirmed {d : Deployment} {confirmed : Bool} {updated : PayInRecord}
    (honest : Honest h) :
    S.spec.wp (announceConfirmed d id context payin confirmed updated) (fun _ => Final) u w h := by
  unfold announceConfirmed
  split
  case isFalse => exact honest
  case isTrue =>
    refine wp_aside_bind aside_enqueue honest fun _ u w h honest => ?_
    split
    case isFalse => exact honest
    case isTrue =>
      exact ⟨u, u, rfl, honest,
        Spec.wp_mono (fun _ _ _ _ _ => trivial) (wp_aside quiet_autoSweep.aside honest_nil)⟩

/-- The write of a reconciliation and what follows it keep the ledger. -/
lemma wp_writeReconciled (found : Found S id payin n new w h) :
    S.spec.wp (writeReconciled S.deployment id context payin n (mergeTransfers payin.transfers new))
      (fun _ => Final) u w h := by
  refine Spec.wp_bind_of (wp_clock found) (fun now u w h found => ?_) fun _ _ _ _ honest => honest
  refine Spec.wp_bind_of (wp_readExpired found) (fun expired u w h found => ?_)
    fun _ _ _ _ honest => honest
  refine Spec.wp_bind_of (wp_reconcile found) (fun updated u w h honest => ?_)
    fun _ _ _ _ honest => honest
  refine wp_aside_bind quiet_orThrow.aside honest fun updated u w h honest => ?_
  refine wp_aside_bind quiet_recordAudit.aside honest fun _ u w h honest => ?_
  refine wp_aside_bind ?_ honest fun _ u w h honest => ?_
  · unfold announceDetected
    split
    case isTrue => exact aside_enqueue
    case isFalse => exact Prog.uses_pure _
  · exact Spec.wp_bind_of (wp_announceConfirmed honest)
      (fun _ u w h honest => wp_aside quiet_toResponse.aside honest) fun _ _ _ _ honest => honest

/-- The head that is read is at most the head of the chain, and no logs have been read yet. -/
lemma wp_getBlockNumber (reading : Reading S id payin w h) :
    S.spec.wp (request .getBlockNumber) (fun r _ w h => match r with
      | .ok n => Headed S id payin n w h ∧ collected S.deployment payin.asset h = []
      | .error _ => Honest h) u w h := by
  refine wp_request rfl reading.honest fun w₁ o w₂ le inv reply later honest => ?_
  cases o with
  | refused e => exact honest
  | lost b e => exact honest
  | done b =>
    cases reply
    refine ⟨⟨honest, reading.copy.later (le.trans later), Data.findSome?_concat_of_some reading.read,
      Data.findSome?_concat_of_none reading.untold, fun g => (inv.chain g).reported⟩, ?_⟩
    rw [collected_append, reading.nothing]
    rfl

/-- A reconciliation keeps the ledger. -/
lemma wp_reconcilePayIn :
    S.spec.wp (reconcilePayIn S.deployment id context) (fun _ => Final) u w [] := by
  refine Spec.wp_bind_of wp_requirePayIn (fun payin u w h reading => ?_)
    fun _ _ _ _ honest => honest
  dsimp only
  split
  case isTrue => exact wp_aside quiet_toResponse.aside reading.honest
  case isFalse =>
    refine Spec.wp_bind_of (wp_getBlockNumber reading) (fun n u w h headed => ?_)
      fun _ _ _ _ honest => honest
    exact Spec.wp_bind_of (wp_findPayInTransfers headed.1 headed.2)
      (fun new u w h found => wp_writeReconciled found) fun _ _ _ _ honest => honest

/-! ## acceptPayIn -/

/-- The guarded write of an acceptance meets an underpaid or overpaid row. -/
lemma wp_accept {dto : AcceptPayInDto} {now : Timestamp} (honest : Honest h) :
    S.spec.wp (request (.payInUpdate id (acceptPatch dto payin now) acceptGuard)) (fun _ => Final)
      u w h := by
  refine Spec.wp_await (op_of (K := fun _ _ h => Honest h) fun w₁ o w₂ le inv reply _ => ?_)
  have honest' : Honest (h ++ [⟨.payInUpdate id (acceptPatch dto payin now) acceptGuard, o⟩]) :=
    honest.append nofun
  have performed : ∀ b, World.exec (.payInUpdate id (acceptPatch dto payin now) acceptGuard) w₁ =
      some (b, w₂) → Inv S.terms S.deployment w₂ ∧ Later S.terms w₁ w₂ := fun b run => by
    cases run
    exact inv_of_update inv (fun r row _ => (inv.rows id r row).accepted) fun _ _ _ _ _ => rfl
  cases o with
  | done b => exact ⟨honest', (performed b reply).1, (performed b reply).2, honest'⟩
  | refused e =>
    obtain ⟨-, rfl⟩ := reply
    exact ⟨honest', inv, .refl, honest'⟩
  | lost b e => exact ⟨honest', (performed b reply.1).1, (performed b reply.1).2, honest'⟩

/-- A manual acceptance keeps the ledger. -/
lemma wp_acceptPayIn {dto : AcceptPayInDto} :
    S.spec.wp (acceptPayIn id dto context) (fun _ => Final) u w [] := by
  refine wp_aside_bind quiet_requirePayIn.aside honest_nil fun payin u w h honest => ?_
  refine wp_aside_bind (aside_request rfl) honest fun now u w h honest => ?_
  refine Spec.wp_bind_of (wp_accept honest) (fun updated u w h honest => ?_)
    fun _ _ _ _ honest => honest
  cases updated with
  | none =>
    refine wp_aside_bind quiet_requirePayIn.aside honest fun current u w h honest => ?_
    dsimp only
    split
    case isTrue => exact wp_aside quiet_toResponse.aside honest
    case isFalse => exact honest
  | some updated =>
    refine wp_aside_bind quiet_recordAudit.aside honest fun _ u w h honest => ?_
    refine wp_aside_bind aside_enqueue honest fun _ u w h honest => ?_
    exact wp_aside quiet_toResponse.aside honest

/-! ## createPayIn -/

/-- The insert of a new pay-in, with an invoice of its own where that is assumed. -/
lemma wp_insert {row : PayInRecord} (new : New row) (honest : Honest h) :
    S.spec.wp (request (.payInInsert row)) (fun _ => Final) u w h := by
  refine Spec.wp_await (op_of (K := fun _ _ h => Honest h) fun w₁ o w₂ le inv reply ok => ?_)
  have honest' : Honest (h ++ [⟨.payInInsert row, o⟩]) := honest.append nofun
  have apart : ∀ b, o.performed = some b → b.isSome → S.terms.distinct →
      ∀ r ∈ w₁.payins.rows, ¬SameInvoice S.deployment (account row) (account r) :=
    fun b done stored dist => S.apart dist h w₁ _ ok (by rw [done]; exact stored)
  have performed : ∀ b, o.performed = some b → World.exec (.payInInsert row) w₁ = some (b, w₂) →
      Inv S.terms S.deployment w₂ ∧ Later S.terms w₁ w₂ := fun b done run => by
    simp only [World.exec, World.insertPayIn] at run
    split at run
    case isTrue =>
      cases run
      exact ⟨inv, .refl⟩
    case isFalse =>
      split at run
      case isTrue => cases run
      case isFalse =>
        obtain ⟨t, inserted, eq⟩ := Option.map_eq_some_iff.1 run
        cases eq
        exact inv_of_insert inv new inserted (apart _ done rfl)
  cases o with
  | done b => exact ⟨honest', (performed b rfl reply).1, (performed b rfl reply).2, honest'⟩
  | refused e =>
    obtain ⟨-, rfl⟩ := reply
    exact ⟨honest', inv, .refl, honest'⟩
  | lost b e => exact ⟨honest', (performed b rfl reply.1).1, (performed b rfl reply.1).2, honest'⟩

/-- Storing a new row keeps the ledger, whichever key it meets. -/
lemma wp_insertPayIn {row : PayInRecord} (new : New row) (honest : Honest h) :
    S.spec.wp (insertPayIn context row) (fun _ => Final) u w h := by
  refine Spec.wp_bind_of (P := fun _ => Final) ?_ (fun b u w h honest => ?_)
    fun _ _ _ _ honest => honest
  · refine Spec.wp_bind_of (wp_insert new honest) (fun inserted u w h honest => ?_)
      fun _ _ _ _ honest => honest
    cases inserted with
    | some inserted => exact honest
    | none =>
      exact wp_aside (Prog.uses_bind (aside_request rfl) fun _ =>
        Prog.uses_bind quiet_orThrow.aside fun _ => Prog.uses_pure _) honest
  · obtain ⟨record, existed⟩ := b
    cases existed with
    | true => exact wp_aside quiet_toResponse.aside honest
    | false =>
      refine wp_aside ?_ honest
      dsimp only
      rw [if_neg Bool.false_ne_true]
      split
      case h_1 =>
        exact Prog.uses_bind (aside_request rfl) fun _ =>
          Prog.uses_bind quiet_recordAudit.aside fun _ => quiet_toResponse.aside
      case h_2 => exact Prog.uses_bind quiet_recordAudit.aside fun _ => quiet_toResponse.aside

/-- An amount that is accepted is positive. -/
lemma parseAmount_pos {d : Deployment} {amount : String} {decimals a : Nat}
    (parsed : parseAmount d amount decimals = .ok a) : 0 < a := by
  unfold parseAmount at parsed
  split at parsed
  case h_2 => cases parsed
  case h_1 b eq =>
    cases parsed
    unfold parseAtomicAmount at eq
    cases units : d.parseUnits amount decimals with
    | error e =>
      rw [units] at eq
      cases eq
    | ok units' =>
      rw [units] at eq
      by_cases nonpos : units' ≤ 0
      · simp [bind, Except.bind, nonpos, throw, throwThe, MonadExceptOf.throw] at eq
      · simp only [bind, Except.bind, nonpos, if_false, pure, Except.pure, Except.ok.injEq] at eq
        omega

/-- The row that a creation makes is that of a new pay-in. -/
lemma new_newPayIn {d : Deployment} {dto : CreatePayInDto} {now : Timestamp} {amount start : Nat}
    {mode : PayInCollectionMode} {router invoice : Option Hex} {index : Int} {address : Hex}
    (pos : 0 < amount) :
    New (newPayIn d dto context id now amount start mode router invoice index address) :=
  ⟨pos, rfl, rfl⟩

/-- A creation without a known key keeps the ledger. -/
lemma wp_createNewPayIn {d : Deployment} {dto : CreatePayInDto} (honest : Honest h) :
    S.spec.wp (createNewPayIn d dto context) (fun _ => Final) u w h := by
  refine Spec.wp_bind (Spec.wp_ofExcept.2 ?_)
  cases parsed : parseAmount d dto.amount (d.getAssetConfig dto.asset).decimals with
  | error e => exact honest
  | ok amount =>
    have pos := parseAmount_pos parsed
    dsimp only [Spec.seq]
    split
    case h_1 =>
      refine wp_aside_bind quiet_ofExcept.aside honest fun router u w h honest => ?_
      refine wp_aside_bind (aside_request rfl) honest fun start u w h honest => ?_
      refine wp_aside_bind (aside_request rfl) honest fun now u w h honest => ?_
      refine wp_aside_bind (aside_request rfl) honest fun id u w h honest => ?_
      exact wp_insertPayIn (new_newPayIn pos) honest
    case h_2 =>
      refine wp_aside_bind (aside_request rfl) honest fun start u w h honest => ?_
      refine wp_aside_bind (aside_request rfl) honest fun now u w h honest => ?_
      refine wp_aside_bind (aside_request rfl) honest fun index u w h honest => ?_
      refine wp_aside_bind quiet_ofExcept.aside honest fun address u w h honest => ?_
      refine wp_aside_bind (aside_request rfl) honest fun id u w h honest => ?_
      exact wp_insertPayIn (new_newPayIn pos) honest

/-- A creation keeps the ledger. -/
lemma wp_createPayIn {d : Deployment} {dto : CreatePayInDto} :
    S.spec.wp (createPayIn d dto context) (fun _ => Final) u w [] := by
  unfold createPayIn
  split
  case h_1 => exact wp_createNewPayIn honest_nil
  case h_2 key =>
    refine wp_aside_bind (Prog.uses_bind (aside_request rfl) fun recordId => ?_) honest_nil
      fun prior u w h honest => ?_
    · cases recordId with
      | none => exact Prog.uses_pure _
      | some id => exact aside_request rfl
    · cases prior with
      | none => exact wp_createNewPayIn honest
      | some prior => exact wp_aside quiet_toResponse.aside honest

end

/-! ## All calls -/

/-- The calls of the pay-in services of a deployment. -/
inductive Entry (d : Deployment) : Method Unit → Prop where
  | createPayIn {dto context} : Entry d (createPayIn d dto context).discard
  | listPayIns {query context} : Entry d (listPayIns query context).discard
  | getPayIn {id context} : Entry d (getPayIn id context).discard
  | reconcilePayIn {id context} : Entry d (reconcilePayIn d id context).discard
  | acceptPayIn {id dto context} : Entry d (acceptPayIn id dto context).discard
  | sweepPayIn {id dto context} : Entry d (sweepPayIn d id dto context).discard
  | topUpPayIn {id dto context} : Entry d (topUpPayIn d id dto context).discard
  | topUpAndSweep {id dto context} : Entry d (topUpAndSweep d id dto context).discard
  | retryPendingSweeps {limit context} : Entry d (retryPendingSweeps d limit context).discard

/-- Every run of the pay-in calls keeps the ledger. -/
theorem sound {S : Setting} (entry : ∀ p, S.entry p → Entry S.deployment p) : S.spec.Sound := by
  intro p called w
  have discard : ∀ {α : Type} {p : Method α}, S.spec.wp p (fun _ => Final) 0 w [] →
      S.spec.wp p.discard Spec.triv 0 w [] := fun wp =>
    Spec.wp_bind_of wp (fun _ _ _ _ _ => trivial) fun _ _ _ _ _ => trivial
  cases entry p called with
  | createPayIn => exact discard wp_createPayIn
  | listPayIns => exact discard (wp_aside quiet_listPayIns.aside honest_nil)
  | getPayIn => exact discard (wp_aside quiet_getPayIn.aside honest_nil)
  | reconcilePayIn => exact discard wp_reconcilePayIn
  | acceptPayIn => exact discard wp_acceptPayIn
  | sweepPayIn => exact discard (wp_aside quiet_sweepPayIn.aside honest_nil)
  | topUpPayIn => exact discard (wp_aside quiet_topUpPayIn.aside honest_nil)
  | topUpAndSweep => exact discard (wp_aside quiet_topUpAndSweep.aside honest_nil)
  | retryPendingSweeps => exact discard (wp_aside quiet_retryPendingSweeps.aside honest_nil)

end AvaSettle.Payins
