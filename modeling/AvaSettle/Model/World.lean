import Mathlib.Data.List.Sort
import AvaSettle.Async.Schedule
import AvaSettle.Model.Records

/-!
# The world of the services

What all instances share: the PostgreSQL tables and the chain, with the clock and the random sources
that an instance reads. `Call` lists every operation a service awaits, one constructor for each SQL
statement and for each request to the chain, and `World.exec` is its effect and its answer. What no
service decides, such as the head a node reports, the hash of the next transaction or the next random
id, is a field of the world that the environment sets.
-/

namespace AvaSettle
open Data (Table)
open Async (Sig Prog Hist Event Machine)

/-! ## The chain -/

/-- A `Transfer` log of a token contract, as `getLogs` returns it. -/
structure TransferLog where
  address : Hex
  transactionHash : Hex
  logIndex : Nat
  blockNumber : Nat
  «from» : Hex
  «to» : Hex
  value : Nat
  deriving DecidableEq, Repr

/-- An `InvoicePaid` log of the payment router, as `getLogs` returns it. -/
structure InvoicePaidLog where
  address : Hex
  transactionHash : Hex
  logIndex : Nat
  blockNumber : Nat
  invoiceId : Hex
  payer : Hex
  token : Hex
  invoiceRef : Hex
  amount : Nat
  treasury : Hex
  deriving DecidableEq, Repr

/-- The status of a receipt. -/
inductive ReceiptStatus : Type where
  | success
  | reverted
  deriving DecidableEq, Repr

/-- A transaction receipt. -/
structure Receipt where
  status : ReceiptStatus
  blockNumber : Nat
  deriving DecidableEq, Repr

/-- The transactions the services send. -/
inductive Tx : Type where
  | transfer (token recipient : Hex) (amount : Nat)
  | vaultPayout (vault payoutRef token recipient : Hex) (amount : Nat) (metadata : Hex)
  | vaultPayoutBatch (vault batchRef token : Hex) (recipients : List Hex) (amounts : List Nat)
      (metadata : Hex)
  | recordSettlement (registry settlementRef commitment metadata : Hex)
  | revealForAudit (registry settlementId : Hex) (amount : Nat) (asset counterparty nonce : Hex)
  | native (recipient : Hex) (value : Nat)
  deriving DecidableEq, Repr

/-- A transaction that has left a service. `payouts` is not part of it: it names the ledger rows
    whose payment the transaction carries, so that submissions can be counted by row. -/
structure Submission where
  hash : Hex
  account : Hex
  tx : Tx
  payouts : List Uuid

/-- The chain, as the nodes show it. -/
structure Chain where
  /-- The height of the chain. -/
  head : Nat
  /-- The height that the node asked next reports. -/
  reportedHead : Nat
  transferLogs : List TransferLog
  invoiceLogs : List InvoicePaidLog
  receipts : Hex → Option Receipt
  balance : Hex → Nat
  balanceOf : Hex → Hex → Nat
  allowance : Hex → Hex → Hex → Nat
  funder : Hex → Hex
  /-- The hash of the transaction sent next. -/
  nextHash : Hex

/-- Everything the instances share. -/
structure World where
  payouts : Table PayoutRecord.id
  payins : Table PayInRecord.id
  settlements : Table PrivateSettlementRecord.id
  audit : List AuditEvent
  outbox : List OutboxEvent
  /-- `avasettle_counters`, the row `payin_address_index`. -/
  payInIndex : Nat
  idempotencyKeys : List (String × Uuid)
  chain : Chain
  /-- The transactions sent so far, the oldest first. -/
  submissions : List Submission
  now : Timestamp
  /-- What the random source of the instance asked next yields. -/
  nextUuid : Uuid
  nextBytes32 : Hex

/-! ## Awaited calls -/

/-- The filters of a `list` query. -/
structure ListFilters (σ : Type) where
  clientId : Option String := none
  status : Option σ := none
  externalId : Option String := none
  limit : Option Nat := none
  offset : Option Nat := none

/-- The input of `AuditService.record`. -/
structure AuditInput where
  type : AuditEventType
  subjectId : Uuid
  actor : AuditActor
  payload : Json

/-- The operations that the services await. -/
inductive Call : Type where
  | clock
  | randomUUID
  | randomBytes32
  | payoutInsert (record : PayoutRecord)
  | payoutFindById (id : Uuid) (clientId : Option String)
  | payoutFindByExternalId (clientId : Option String) (externalId : String)
  | payoutList (filters : ListFilters PayoutStatus)
  | payoutUpdate (id : Uuid) (patch : PayoutPatch) (expectedStatus : Option (List PayoutStatus))
  | payInInsert (record : PayInRecord)
  | payInFindById (id : Uuid) (clientId : Option String)
  | payInFindByExternalId (clientId : Option String) (externalId : String)
  | payInList (filters : ListFilters PayInStatus)
  | payInUpdate (id : Uuid) (patch : PayInPatch) (guard : PayInUpdateGuard)
  | payInSweepCandidates (limit cooldownMinutes : Nat)
  | claimNextPayInIndex
  | idempotencyKeyFind (key : String)
  | idempotencyKeyStore (key : String) (recordId : Uuid)
  | settlementInsert (record : PrivateSettlementRecord)
  | settlementFindById (id : Uuid) (clientId : Option String)
  | settlementFindByExternalId (clientId : Option String) (externalId : String)
  | settlementList (clientId : Option String) (limit offset : Nat)
  | settlementUpdate (id : Uuid) (patch : PrivateSettlementPatch)
  | settlementDelete (id : Uuid)
  | auditInsert (input : AuditInput)
  | auditListBySubject (subjectId : Uuid)
  | outboxInsert (clientId event : String) (payload : List (String × Json))
  | getBlockNumber
  | getBalance (address : Hex)
  | balanceOf (token holder : Hex)
  | vaultFunder (vault : Hex)
  | allowance (token owner spender : Hex)
  | getTransferLogs (address recipient : Hex) (fromBlock toBlock : Nat)
  | getInvoicePaidLogs (address invoiceId token : Hex) (fromBlock toBlock : Nat)
  | getTransactionReceipt (hash : Hex)
  | waitForTransactionReceipt (hash : Hex)
  | submit (account : Hex) (tx : Tx) (payouts : List Uuid)

/-- The answer to each operation. -/
@[reducible] def Call.Res : Call → Type
  | .clock => Timestamp
  | .randomUUID => Uuid
  | .randomBytes32 => Hex
  | .payoutInsert _ => Option PayoutRecord
  | .payoutFindById _ _ => Option PayoutRecord
  | .payoutFindByExternalId _ _ => Option PayoutRecord
  | .payoutList _ => List PayoutRecord
  | .payoutUpdate _ _ _ => Option PayoutRecord
  | .payInInsert _ => Option PayInRecord
  | .payInFindById _ _ => Option PayInRecord
  | .payInFindByExternalId _ _ => Option PayInRecord
  | .payInList _ => List PayInRecord
  | .payInUpdate _ _ _ => Option PayInRecord
  | .payInSweepCandidates _ _ => List PayInRecord
  | .claimNextPayInIndex => Nat
  | .idempotencyKeyFind _ => Option Uuid
  | .idempotencyKeyStore _ _ => Unit
  | .settlementInsert _ => Option PrivateSettlementRecord
  | .settlementFindById _ _ => Option PrivateSettlementRecord
  | .settlementFindByExternalId _ _ => Option PrivateSettlementRecord
  | .settlementList _ _ _ => List PrivateSettlementRecord
  | .settlementUpdate _ _ => Option PrivateSettlementRecord
  | .settlementDelete _ => Unit
  | .auditInsert _ => Unit
  | .auditListBySubject _ => List AuditEvent
  | .outboxInsert _ _ _ => Unit
  | .getBlockNumber => Nat
  | .getBalance _ => Nat
  | .balanceOf _ _ => Nat
  | .vaultFunder _ => Hex
  | .allowance _ _ _ => Nat
  | .getTransferLogs _ _ _ _ => List TransferLog
  | .getInvoicePaidLogs _ _ _ _ _ => List InvoicePaidLog
  | .getTransactionReceipt _ => Receipt
  | .waitForTransactionReceipt _ => Receipt
  | .submit _ _ _ => Hex

/-- The signature of the services. -/
abbrev Api : Sig := ⟨Call, Call.Res, Exception⟩

/-- A service method. -/
abbrev Method (α : Type) := Prog Api α

/-- Await a call. -/
def request (c : Call) : Method c.Res :=
  @Prog.await Api c

/-- Await a call, with a value in place of an error. -/
def requestOr {β : Type} (c : Call) (f : c.Res → β) (b : β) : Method β :=
  @Prog.awaitOr Api β c f b

/-- What a call can throw. Reading the clock or the random source is not a request; everything else
    throws the errors of the driver or of the node. -/
def Call.raises : Call → Exception → Bool
  | .clock, _ => false
  | .randomUUID, _ => false
  | .randomBytes32, _ => false
  | _, e => e.isForeign

/-! ## Effects -/

/-- Addresses and hashes are compared as numbers, so not by the case of their digits. -/
def sameHex (a b : Hex) : Bool := a.toLower == b.toLower

/-- `client_id = $1 AND external_id = $2`: a null client equals none. -/
def sameKey (clientId : Option String) (externalId : String) (c : Option String) (e : String) :
    Bool :=
  clientId.isSome && decide (c = clientId ∧ e = externalId)

/-- `ORDER BY created_at DESC LIMIT … OFFSET …`. -/
def page {ρ : Type} (createdAt : ρ → Timestamp) (limit offset : Nat) (rows : List ρ) : List ρ :=
  ((rows.insertionSort fun a b => createdAt b ≤ createdAt a).drop offset).take limit

/-- The `WHERE` clause of a `list` query. -/
def ListFilters.matches {σ : Type} [DecidableEq σ] (f : ListFilters σ) (clientId : Option String)
    (status : σ) (externalId : String) : Bool :=
  ((truthy f.clientId).all fun c => decide (clientId = some c)) &&
    (f.status.all fun s => decide (status = s)) &&
      (truthy f.externalId).all fun e => decide (externalId = e)

namespace World

/-- The payout with an id, seen through a client filter. -/
def findPayout (w : World) (id : Uuid) (clientId : Option String) : Option PayoutRecord :=
  (w.payouts.find? id).filter fun r => (truthy clientId).all fun c => decide (r.clientId = some c)

/-- The pay-in with an id, seen through a client filter. -/
def findPayIn (w : World) (id : Uuid) (clientId : Option String) : Option PayInRecord :=
  (w.payins.find? id).filter fun r => (truthy clientId).all fun c => decide (r.clientId = some c)

/-- The settlement with an id, seen through a client filter. -/
def findSettlement (w : World) (id : Uuid) (clientId : Option String) :
    Option PrivateSettlementRecord :=
  (w.settlements.find? id).filter fun r =>
    (truthy clientId).all fun c => decide (r.clientId = some c)

/-- `INSERT INTO avasettle_payouts … ON CONFLICT (client_id, external_id) DO NOTHING`. -/
def insertPayout (w : World) (r : PayoutRecord) : Option (Option PayoutRecord × World) :=
  if w.payouts.rows.any fun r' => sameKey r.clientId r.externalId r'.clientId r'.externalId then
    some (none, w)
  else if r.tokenAddress.isNone then none
  else (w.payouts.insert r).map fun t => (some r, { w with payouts := t })

/-- `INSERT INTO avasettle_payins … ON CONFLICT (client_id, external_id) DO NOTHING`. -/
def insertPayIn (w : World) (r : PayInRecord) : Option (Option PayInRecord × World) :=
  if w.payins.rows.any fun r' => sameKey r.clientId r.externalId r'.clientId r'.externalId then
    some (none, w)
  else if r.tokenAddress.isNone then none
  else (w.payins.insert r).map fun t => (some r, { w with payins := t })

/-- `INSERT INTO avasettle_private_settlements … ON CONFLICT (client_id, external_id) DO NOTHING`,
    where the timestamps are column defaults. -/
def insertSettlement (w : World) (r : PrivateSettlementRecord) :
    Option (Option PrivateSettlementRecord × World) :=
  if w.settlements.rows.any fun r' => sameKey r.clientId r.externalId r'.clientId r'.externalId then
    some (none, w)
  else
    let r := { r with createdAt := w.now, updatedAt := w.now }
    (w.settlements.insert r).map fun t => (some r, { w with settlements := t })

/-- `UPDATE avasettle_payouts SET … WHERE id = $1 [AND status = ANY(…)] RETURNING …`. -/
def updatePayout (w : World) (id : Uuid) (patch : PayoutPatch)
    (expectedStatus : Option (List PayoutStatus)) : Option PayoutRecord × World :=
  let r := w.payouts.update id (fun r => expectedStatus.all fun l => decide (r.status ∈ l))
    (patch.toPatch w.now)
  (r.1, { w with payouts := r.2 })

/-- `UPDATE avasettle_payins SET … WHERE id = $1 [AND …] RETURNING …`. -/
def updatePayIn (w : World) (id : Uuid) (patch : PayInPatch) (guard : PayInUpdateGuard) :
    Option PayInRecord × World :=
  let r := w.payins.update id guard.holds (patch.toPatch w.now)
  (r.1, { w with payins := r.2 })

/-- `UPDATE avasettle_private_settlements SET … WHERE id = $1 RETURNING …`. -/
def updateSettlement (w : World) (id : Uuid) (patch : PrivateSettlementPatch) :
    Option PrivateSettlementRecord × World :=
  let r := w.settlements.update id (fun _ => true) (patch.toPatch w.now)
  (r.1, { w with settlements := r.2 })

/-- `INSERT INTO avasettle_audit_events … ON CONFLICT (id) DO NOTHING`: the event gets its id and its
    time when it is built. -/
def insertAudit (w : World) (input : AuditInput) : World :=
  if w.audit.any fun e => decide (e.id = w.nextUuid) then w
  else { w with audit := w.audit ++ [{
      id := w.nextUuid
      clientId := input.actor.clientId
      type := input.type
      subjectId := input.subjectId
      actor := input.actor
      payload := input.payload
      createdAt := w.now }] }

/-- `INSERT INTO avasettle_webhook_outbox`: the payload gets the event and its time when it is
    built. -/
def insertOutbox (w : World) (clientId event : String) (payload : List (String × Json)) : World :=
  { w with outbox := w.outbox ++ [{
      clientId
      event
      payload := .obj (("event", .str event) :: ("timestamp", .num w.now) :: payload) }] }

/-- The retry candidates of a sweep: confirmed, not swept, and left alone for the cool-down. -/
def sweepCandidates (w : World) (limit cooldownMinutes : Nat) : List PayInRecord :=
  let rows := w.payins.select fun r =>
    decide (r.status = .confirmed) &&
      decide (r.sweepStatus = .pending ∨ r.sweepStatus = .failed) &&
        decide (r.updatedAt + cooldownMinutes * 60000 < w.now)
  let confirmedLe (a b : PayInRecord) : Prop :=
    match a.confirmedAt, b.confirmedAt with
    | some s, some t => s ≤ t
    | some _, none => True
    | none, none => True
    | none, some _ => False
  have : DecidableRel confirmedLe := fun a b => by
    unfold confirmedLe
    cases a.confirmedAt <;> cases b.confirmedAt <;> infer_instance
  (rows.insertionSort confirmedLe).take limit

/-- The effect and the answer of each operation; `none` where the operation can only throw. -/
def exec : (c : Call) → World → Option (c.Res × World)
  | .clock, w => some (w.now, w)
  | .randomUUID, w => some (w.nextUuid, w)
  | .randomBytes32, w => some (w.nextBytes32, w)
  | .payoutInsert r, w => w.insertPayout r
  | .payoutFindById id c, w => some (w.findPayout id c, w)
  | .payoutFindByExternalId c e, w =>
    some (w.payouts.rows.find? fun r => decide (r.externalId = e ∧ r.clientId = c), w)
  | .payoutList f, w =>
    some (page PayoutRecord.createdAt (f.limit.getD 200) (f.offset.getD 0)
      (w.payouts.select fun r => f.matches r.clientId r.status r.externalId), w)
  | .payoutUpdate id p g, w => some (w.updatePayout id p g)
  | .payInInsert r, w => w.insertPayIn r
  | .payInFindById id c, w => some (w.findPayIn id c, w)
  | .payInFindByExternalId c e, w =>
    some (w.payins.rows.find? fun r => decide (r.externalId = e ∧ r.clientId = c), w)
  | .payInList f, w =>
    some (page PayInRecord.createdAt (f.limit.getD 200) (f.offset.getD 0)
      (w.payins.select fun r => f.matches r.clientId r.status r.externalId), w)
  | .payInUpdate id p g, w => some (w.updatePayIn id p g)
  | .payInSweepCandidates l m, w => some (w.sweepCandidates l m, w)
  | .claimNextPayInIndex, w => some (w.payInIndex, { w with payInIndex := w.payInIndex + 1 })
  | .idempotencyKeyFind k, w =>
    some ((w.idempotencyKeys.find? fun r => decide (r.1 = k)).map (·.2), w)
  | .idempotencyKeyStore k id, w =>
    if w.idempotencyKeys.any fun r => decide (r.1 = k) then some ((), w)
    else some ((), { w with idempotencyKeys := w.idempotencyKeys ++ [(k, id)] })
  | .settlementInsert r, w => w.insertSettlement r
  | .settlementFindById id c, w => some (w.findSettlement id c, w)
  | .settlementFindByExternalId c e, w =>
    some (w.settlements.rows.find? fun r => sameKey c e r.clientId r.externalId, w)
  | .settlementList c l o, w =>
    some (page PrivateSettlementRecord.createdAt l o
      (w.settlements.select fun r => (truthy c).all fun c => decide (r.clientId = some c)), w)
  | .settlementUpdate id p, w => some (w.updateSettlement id p)
  | .settlementDelete id, w => some ((), { w with settlements := w.settlements.erase id })
  | .auditInsert i, w => some ((), w.insertAudit i)
  | .auditListBySubject id, w =>
    some ((w.audit.filter fun e => decide (e.subjectId = id)).insertionSort
      fun a b => a.createdAt ≤ b.createdAt, w)
  | .outboxInsert c e p, w => some ((), w.insertOutbox c e p)
  | .getBlockNumber, w => some (w.chain.reportedHead, w)
  | .getBalance a, w => some (w.chain.balance a, w)
  | .balanceOf t a, w => some (w.chain.balanceOf t a, w)
  | .vaultFunder v, w => some (w.chain.funder v, w)
  | .allowance t o s, w => some (w.chain.allowance t o s, w)
  | .getTransferLogs a r f t, w =>
    some (w.chain.transferLogs.filter fun l =>
      sameHex l.address a && sameHex l.to r && decide (f ≤ l.blockNumber ∧ l.blockNumber ≤ t), w)
  | .getInvoicePaidLogs a i k f t, w =>
    some (w.chain.invoiceLogs.filter fun l =>
      sameHex l.address a && sameHex l.invoiceId i && sameHex l.token k &&
        decide (f ≤ l.blockNumber ∧ l.blockNumber ≤ t), w)
  | .getTransactionReceipt h, w => (w.chain.receipts h).map fun r => (r, w)
  | .waitForTransactionReceipt h, w => (w.chain.receipts h).map fun r => (r, w)
  | .submit a tx ps, w =>
    some (w.chain.nextHash,
      { w with submissions := w.submissions ++ [⟨w.chain.nextHash, a, tx, ps⟩] })

/-- Only an insert writes to the outbox. -/
lemma outbox_exec_of_ne {c : Call} {w w' : World} {b : c.Res} (run : World.exec c w = some (b, w'))
    (ne : ∀ clientId event payload, c ≠ .outboxInsert clientId event payload) :
    w'.outbox = w.outbox := by
  cases c
  case outboxInsert clientId event payload => exact absurd rfl (ne clientId event payload)
  case payoutInsert r =>
    simp only [World.exec, World.insertPayout] at run
    split at run
    case isTrue => cases run; rfl
    case isFalse =>
      split at run
      case isTrue => cases run
      case isFalse =>
        obtain ⟨t, -, eq⟩ := Option.map_eq_some_iff.1 run
        cases eq
        rfl
  case payInInsert r =>
    simp only [World.exec, World.insertPayIn] at run
    split at run
    case isTrue => cases run; rfl
    case isFalse =>
      split at run
      case isTrue => cases run
      case isFalse =>
        obtain ⟨t, -, eq⟩ := Option.map_eq_some_iff.1 run
        cases eq
        rfl
  case settlementInsert r =>
    simp only [World.exec, World.insertSettlement] at run
    split at run
    case isTrue => cases run; rfl
    case isFalse =>
      obtain ⟨t, -, eq⟩ := Option.map_eq_some_iff.1 run
      cases eq
      rfl
  case idempotencyKeyStore k id =>
    simp only [World.exec] at run
    split at run
    case isTrue => cases run; rfl
    case isFalse => cases run; rfl
  case auditInsert input =>
    cases run
    unfold World.insertAudit
    split
    case isTrue => rfl
    case isFalse => rfl
  case getTransactionReceipt hash =>
    obtain ⟨rc, -, eq⟩ := Option.map_eq_some_iff.1 run
    cases eq
    rfl
  case waitForTransactionReceipt hash =>
    obtain ⟨rc, -, eq⟩ := Option.map_eq_some_iff.1 run
    cases eq
    rfl
  all_goals cases run; rfl

/-- Nothing that has been put into the outbox is taken out of it. -/
lemma outbox_exec {c : Call} {w w' : World} {b : c.Res} (run : World.exec c w = some (b, w')) :
    w.outbox <+: w'.outbox := by
  by_cases insert : ∃ clientId event payload, c = .outboxInsert clientId event payload
  · obtain ⟨clientId, event, payload, rfl⟩ := insert
    cases run
    exact List.prefix_append _ _
  · have same := outbox_exec_of_ne run fun clientId event payload eq => insert ⟨_, _, _, eq⟩
    exact same ▸ List.prefix_rfl

/-- The payouts of all transactions sent so far, once for each transaction that carries them. -/
def paid (w : World) : List Uuid :=
  w.submissions.flatMap Submission.payouts

/-- The environment moves: the chain, the clock and the random sources change, what the services
    have written does not. -/
structure Env (chain : Chain → Chain → Prop) (w w' : World) : Prop where
  payouts : w'.payouts = w.payouts
  payins : w'.payins = w.payins
  settlements : w'.settlements = w.settlements
  audit : w'.audit = w.audit
  outbox : w'.outbox = w.outbox
  payInIndex : w'.payInIndex = w.payInIndex
  idempotencyKeys : w'.idempotencyKeys = w.idempotencyKeys
  submissions : w'.submissions = w.submissions
  chain : chain w.chain w'.chain

end World

/-- The system of calls over a world: any chain that moves as `chain` allows, any calls in `entry`,
    and the operations in `cond`. -/
def machine (chain : Chain → Chain → Prop) (entry : Method Unit → Prop)
    (cond : Hist Api → World → Event Api → Prop) : Machine Api World where
  exec := World.exec
  raises := Call.raises
  env := World.Env chain
  entry := entry
  allowed := cond

/-- The services, where an operation may have any outcome, and the world may move in any way. -/
abbrev services : Machine Api World := machine (fun _ _ => True) (fun _ => False) fun _ _ _ => True

/-- The head that an event was told. -/
def headOf : Event Api → Option Nat
  | ⟨.getBlockNumber, .done n⟩ => some n
  | _ => none

/-! ## Evaluation -/

/-- Two hexadecimal strings, where equal strings are told apart from others at once. -/
def quickHex (a b : Hex) : Bool := a == b || sameHex a b

/-- The quick comparison of hexadecimal strings is the comparison. -/
lemma quickHex_eq : quickHex = sameHex := by
  funext a b
  by_cases eq : a = b
  · simp [quickHex, sameHex, eq]
  · simp [quickHex, eq]

/-- `World.exec`, with scans that a concrete run can evaluate. -/
def World.evaluate : (c : Call) → World → Option (c.Res × World)
  | .getTransferLogs a r f t, w =>
    some (w.chain.transferLogs.filter fun l =>
      quickHex l.address a && quickHex l.to r && decide (f ≤ l.blockNumber ∧ l.blockNumber ≤ t), w)
  | .getInvoicePaidLogs a i k f t, w =>
    some (w.chain.invoiceLogs.filter fun l =>
      quickHex l.address a && quickHex l.invoiceId i && quickHex l.token k &&
        decide (f ≤ l.blockNumber ∧ l.blockNumber ≤ t), w)
  | c, w => World.exec c w

/-- What is evaluated is what is executed. -/
lemma World.evaluate_eq : World.evaluate = World.exec := by
  funext c w
  cases c
  case getTransferLogs => simp only [evaluate, exec, quickHex_eq]
  case getInvoicePaidLogs => simp only [evaluate, exec, quickHex_eq]
  all_goals rfl

section
variable {chain : Chain → Chain → Prop} {entry : Method Unit → Prop}
  {cond : Hist Api → World → Event Api → Prop}

/-- The system of calls, with scans that a concrete run can evaluate. -/
def quick (chain : Chain → Chain → Prop) (entry : Method Unit → Prop)
    (cond : Hist Api → World → Event Api → Prop) : Machine Api World :=
  { machine chain entry cond with exec := World.evaluate }

/-- The machine that evaluates quickly is the machine. -/
lemma quick_eq : quick chain entry cond = machine chain entry cond := by
  unfold quick machine
  rw [World.evaluate_eq]

end

namespace World

/-- A freshly migrated database over some chain. -/
def fresh (chain : Chain) (now : Timestamp) (nextUuid : Uuid) (nextBytes32 : Hex) : World where
  payouts := .empty
  payins := .empty
  settlements := .empty
  audit := []
  outbox := []
  payInIndex := 0
  idempotencyKeys := []
  chain := chain
  submissions := []
  now := now
  nextUuid := nextUuid
  nextBytes32 := nextBytes32

/-- A chain on which nothing has happened and everybody holds one USDC, for the concrete runs. -/
def sampleChain : Chain where
  head := 1
  reportedHead := 1
  transferLogs := []
  invoiceLogs := []
  receipts _ := none
  balance _ := 0
  balanceOf _ _ := 1000000
  allowance _ _ _ := 0
  funder _ := "0x7E5F4552091A69125d5DfCb7b8C2659029395Bdf"
  nextHash := "0x01"

/-- The id of the first row. -/
def sampleId : Uuid := "00000000-0000-4000-8000-000000000000"

/-- A freshly migrated database over that chain. -/
def sample : World := .fresh sampleChain 0 sampleId sampleNonce

end World

/-- The request context of a client. -/
def RequestContext.sample : RequestContext :=
  ⟨some "client", none, none, none, none, none⟩

end AvaSettle
