import AvaSettle.Model.World

/-!
# AuditService and WebhookService

The audit trail and the webhook outbox, as far as the ledger services use them.
-/

namespace AvaSettle
open Async (Slot Prog)

/-- `AuditService.record`. -/
def recordAudit (type : AuditEventType) (subjectId : Uuid) (actor : AuditActor)
    (payload : List (String × Json)) : Method Unit :=
  request (.auditInsert ⟨type, subjectId, actor, .obj payload⟩)

/-- `toAuditActor`, where the actor can be overridden. -/
def toAuditActor (context : RequestContext) (overrideActor : Option String := none) :
    AuditActor where
  clientId := context.clientId
  actor := overrideActor <|> context.actor
  correlationId := context.correlationId
  sourceIp := context.sourceIp

/-- The audit trail of a response. -/
def trailOf (events : List AuditEvent) : List TrailEntry :=
  events.map fun e => ⟨e.type, e.createdAt, e.actor.correlationId⟩

/-- `idempotentReplay || undefined`. -/
def replayFlag (idempotentReplay : Bool) : Option Bool :=
  if idempotentReplay then some true else none

/-- `WebhookService.enqueue`: nothing for a missing client, and an error is logged and dropped. -/
def enqueue (clientId : Option String) (event : String) (payload : List (String × Json)) :
    Method Unit :=
  match truthy clientId with
  | none => return ()
  | some c => requestOr (.outboxInsert c event payload) (fun _ => ()) ()

/-- The id that a payload is about. -/
def Json.subject : Json → Option Uuid
  | .obj fields =>
    match fields.lookup "id" with
    | some (.str id) => some id
    | _ => none
  | _ => none

/-- The webhook is of a kind, and about a row. -/
def OutboxEvent.announces (event : String) (id : Uuid) (e : OutboxEvent) : Bool :=
  decide (e.event = event) && decide (e.payload.subject = some id)

/-- A webhook of the outbox is what was put into it. -/
lemma mem_insertOutbox {w : World} {c event : String} {payload : List (String × Json)} {id : Uuid}
    (about : payload.lookup "id" = some (.str id)) :
    ∃ e ∈ (w.insertOutbox c event payload).outbox, e.clientId = c ∧ e.announces event id = true := by
  refine ⟨_, List.mem_append_right _ (List.mem_singleton_self _), rfl, ?_⟩
  simp [OutboxEvent.announces, Json.subject, List.lookup_cons, about]

end AvaSettle
