import Mathlib.Data.List.Sort
import AvaSettle.Async.Schedule
import AvaSettle.Clients.Records
import AvaSettle.Model.Records

/-!
# The world of the webhook dispatchers

What all dispatchers share: the clients, the outbox and the delivery log in PostgreSQL, and the
receivers of the webhooks. `Call` lists what `WebhookService` awaits, one constructor for each SQL
statement, and two for a request over HTTP, which leaves at one instant and is answered at another.
`claims`, `sent` and `answers` record the claims, the POSTs and their answers by the outbox row they
are for; the service does not read them.
-/

namespace AvaSettle.Webhooks
open Async (Sig Prog Hist Event Machine)
open Clients (ClientRecord ClientRow)
open Data (Table Patch)

/-- The status of an outbox row. -/
inductive OutboxStatus : Type where
  | pending
  | delivering
  | delivered
  | failed
  | skipped
  deriving DecidableEq, Repr

/-- A row of `avasettle_webhook_outbox`. -/
structure OutboxRecord where
  id : Uuid
  clientId : Uuid
  event : String
  payload : Json
  status : OutboxStatus
  attempts : Nat
  nextAttemptAt : Timestamp
  lastError : Option String
  createdAt : Timestamp
  updatedAt : Timestamp

/-- `OutboxRow`: what a claim returns of a row. `claim` is not part of it: it counts the claims of the
    row before this one. -/
structure OutboxRow where
  id : Uuid
  clientId : Uuid
  event : String
  payload : Json
  attempts : Nat
  claim : Nat

/-- The columns that a claim returns. -/
def OutboxRecord.toRow (r : OutboxRecord) (claim : Nat) : OutboxRow where
  id := r.id
  clientId := r.clientId
  event := r.event
  payload := r.payload
  attempts := r.attempts
  claim := claim

/-- The input of `recordDelivery`. -/
structure Delivery where
  clientId : Uuid
  event : String
  url : String
  payload : Json
  success : Bool
  attempts : Nat
  lastError : Option String
  deliveredAt : Option Timestamp

/-- A row of `avasettle_webhook_deliveries`. `row` is not part of it: it names the outbox row that was
    delivered. -/
structure DeliveryRecord extends Delivery where
  row : Uuid
  createdAt : Timestamp

/-- The methods of the requests. -/
inductive HttpMethod : Type where
  | get
  | post
  deriving DecidableEq, Repr

/-- A request over HTTP. -/
structure HttpRequest where
  method : HttpMethod
  url : String
  headers : List (String × String)
  body : Option String

/-- What is read of a response. -/
structure Response where
  status : Nat
  /-- The `Location` header. -/
  location : Option String

/-- What became of a request over HTTP: the response, or the error of the network. -/
abbrev Answer := Except Exception Response

/-- Everything the dispatchers share. -/
structure World where
  clients : Table (ρ := ClientRow) (fun r => r.id)
  outbox : Table OutboxRecord.id
  deliveries : List DeliveryRecord
  now : Timestamp
  /-- What the next random id is. -/
  nextUuid : Uuid
  /-- The outbox rows that another transaction holds locked. -/
  locked : List Uuid
  /-- What becomes of the request that is answered next. -/
  receiver : Answer
  /-- The claims made so far, by outbox row. -/
  claims : List Uuid
  /-- The POSTs sent so far, by outbox row. -/
  sent : List Uuid
  /-- The answers to the POSTs, by outbox row. -/
  answers : List (Uuid × Answer)

/-! ## Awaited calls -/

/-- The operations that the dispatchers await. -/
inductive Call : Type where
  | clock
  | randomUUID
  | insertOutbox (clientId : Uuid) (event : String) (payload : List (String × Json))
  | recoverStuck
  | claimDue (batchSize : Nat)
  | findClient (id : Uuid)
  | send (row : Uuid) (req : HttpRequest)
  | receive (row : Uuid) (method : HttpMethod)
  | setStatus (id : Uuid) (status : OutboxStatus) (attempts : Nat) (lastError : Option String)
  | reschedule (id : Uuid) (attempts : Nat) (lastError : String) (delayMs : Nat)
  | insertDelivery (row : Uuid) (delivery : Delivery)

/-- The answer to each operation. -/
@[reducible] def Call.Res : Call → Type
  | .clock => Timestamp
  | .randomUUID => Uuid
  | .insertOutbox _ _ _ => Unit
  | .recoverStuck => Unit
  | .claimDue _ => List OutboxRow
  | .findClient _ => Option ClientRecord
  | .send _ _ => Unit
  | .receive _ _ => Answer
  | .setStatus _ _ _ _ => Unit
  | .reschedule _ _ _ _ => Unit
  | .insertDelivery _ _ => Unit

/-- The operations that are queries of the database. -/
def Call.isQuery : Call → Bool
  | .clock => false
  | .randomUUID => false
  | .send _ _ => false
  | .receive _ _ => false
  | _ => true

/-- The signature of the dispatchers. -/
abbrev Api : Sig := ⟨Call, Call.Res, Exception⟩

/-- A method of the dispatchers. -/
abbrev Method (α : Type) := Prog Api α

/-- Await a call. -/
def request (c : Call) : Method c.Res :=
  @Prog.await Api c

/-- What a call can throw: a query throws the errors of the driver. -/
def Call.raises (c : Call) (e : Exception) : Bool := c.isQuery && e.isForeign

/-! ## Effects -/

/-- `STUCK_DELIVERY_TIMEOUT`, in milliseconds. -/
def stuckDeliveryTimeout : Nat := 5 * 60000

namespace OutboxRecord

/-- `SET status = …`, with the trigger on `updated_at`. -/
def become (status : OutboxStatus) (now : Timestamp) : Patch OutboxRecord.id where
  apply r := { r with status, updatedAt := now }
  key_apply _ := rfl

/-- The update of `setStatus`. -/
def settle (status : OutboxStatus) (attempts : Nat) (lastError : Option String) (now : Timestamp) :
    Patch OutboxRecord.id where
  apply r := { r with status, attempts, lastError, updatedAt := now }
  key_apply _ := rfl

/-- The update of `reschedule`. -/
def retry (attempts : Nat) (lastError : String) (delayMs : Nat) (now : Timestamp) :
    Patch OutboxRecord.id where
  apply r := { r with
    status := .pending, attempts, lastError := some lastError, nextAttemptAt := now + delayMs
    updatedAt := now }
  key_apply _ := rfl

/-- The row has been in delivery for longer than the time-out. -/
def isStuck (now : Timestamp) (r : OutboxRecord) : Bool :=
  decide (r.status = .delivering) && decide (r.updatedAt + stuckDeliveryTimeout < now)

/-- The row is due. -/
def isDue (now : Timestamp) (r : OutboxRecord) : Bool :=
  decide (r.status = .pending) && decide (r.nextAttemptAt ≤ now)

end OutboxRecord

namespace World

/-- The rows that a claim picks: the due rows that are not locked, by `next_attempt_at`. -/
def due (w : World) (batchSize : Nat) : List OutboxRecord :=
  ((w.outbox.select fun r => r.isDue w.now && decide (r.id ∉ w.locked)).insertionSort
    fun a b => a.nextAttemptAt ≤ b.nextAttemptAt).take batchSize

/-- `UPDATE avasettle_webhook_outbox … WHERE id = $1`. -/
def updateOutbox (w : World) (id : Uuid) (p : Patch OutboxRecord.id) : World :=
  { w with outbox := (w.outbox.update id (fun _ => true) p).2 }

/-- `UPDATE avasettle_webhook_outbox … WHERE …`. -/
def updateOutboxWhere (w : World) (c : OutboxRecord → Bool) (p : Patch OutboxRecord.id) : World :=
  { w with outbox := w.outbox.updateWhere c p }

/-- `INSERT INTO avasettle_webhook_outbox (client_id, event, payload)`, where everything else is a
    column default. -/
def insertOutbox (w : World) (clientId : Uuid) (event : String) (payload : List (String × Json)) :
    Option (Unit × World) :=
  (w.outbox.insert {
    id := w.nextUuid
    clientId
    event
    payload := .obj payload
    status := .pending
    attempts := 0
    nextAttemptAt := w.now
    lastError := none
    createdAt := w.now
    updatedAt := w.now }).map fun t => ((), { w with outbox := t })

/-- `UPDATE avasettle_webhook_outbox SET status = 'delivering' WHERE id IN (…) RETURNING …`. -/
def claimDue (w : World) (batchSize : Nat) : World :=
  let ids := (w.due batchSize).map OutboxRecord.id
  { w.updateOutboxWhere (fun r => decide (r.id ∈ ids)) (OutboxRecord.become .delivering w.now) with
    claims := w.claims ++ ids }

/-- A request has been sent. -/
def noteSent (w : World) (row : Uuid) : HttpMethod → World
  | .post => { w with sent := w.sent ++ [row] }
  | .get => w

/-- A request has been answered. -/
def noteAnswer (w : World) (row : Uuid) : HttpMethod → World
  | .post => { w with answers := w.answers ++ [(row, w.receiver)] }
  | .get => w

/-- The effect and the answer of each operation; `none` where the operation can only throw. -/
def exec : (c : Call) → World → Option (c.Res × World)
  | .clock, w => some (w.now, w)
  | .randomUUID, w => some (w.nextUuid, w)
  | .insertOutbox c e p, w => w.insertOutbox c e p
  | .recoverStuck, w =>
    some ((), w.updateOutboxWhere (·.isStuck w.now) (OutboxRecord.become .pending w.now))
  | .claimDue n, w =>
    some ((w.due n).map fun r => r.toRow (w.claims.count r.id), w.claimDue n)
  | .findClient id, w => some ((w.clients.find? id).map ClientRow.toClientRecord, w)
  | .send r req, w => some ((), w.noteSent r req.method)
  | .receive r m, w => some (w.receiver, w.noteAnswer r m)
  | .setStatus id s n e, w => some ((), w.updateOutbox id (OutboxRecord.settle s n e w.now))
  | .reschedule id n e d, w => some ((), w.updateOutbox id (OutboxRecord.retry n e d w.now))
  | .insertDelivery r d, w =>
    some ((), { w with deliveries := w.deliveries ++ [{ d with row := r, createdAt := w.now }] })

/-- A request leaves the outbox. -/
@[simp] lemma noteSent_outbox {w : World} {row : Uuid} {method : HttpMethod} :
    (w.noteSent row method).outbox = w.outbox := by
  cases method <;> rfl

/-- So does an answer. -/
@[simp] lemma noteAnswer_outbox {w : World} {row : Uuid} {method : HttpMethod} :
    (w.noteAnswer row method).outbox = w.outbox := by
  cases method <;> rfl

/-- A request leaves the claims. -/
@[simp] lemma noteSent_claims {w : World} {row : Uuid} {method : HttpMethod} :
    (w.noteSent row method).claims = w.claims := by
  cases method <;> rfl

/-- So does an answer. -/
@[simp] lemma noteAnswer_claims {w : World} {row : Uuid} {method : HttpMethod} :
    (w.noteAnswer row method).claims = w.claims := by
  cases method <;> rfl

/-- The environment moves: the clients, the clock and the receivers change, what the dispatchers have
    written does not. -/
structure Env (w w' : World) : Prop where
  outbox : w'.outbox = w.outbox
  deliveries : w'.deliveries = w.deliveries
  claims : w'.claims = w.claims
  sent : w'.sent = w.sent
  answers : w'.answers = w.answers

end World

end AvaSettle.Webhooks
