import AvaSettle.ChainFlow.Service
import AvaSettle.Isolation.Bystanders
import AvaSettle.Isolation.Within

/-!
# Requests of one client

The endpoints behind the API key of a client, each with what a response of it owes the client: that
every record in it is the client's.
-/

namespace AvaSettle.Isolation
open Async
open ChainFlow (ChainFlowResponse toChainFlowResponse)
open Settlements (PrivateSettlementResponse)

/-! ## Responses -/

section
variable (A : String)

/-- The payout of the response is the client's. -/
def PayoutOf (p : PayoutResponse) : Prop := p.clientId = some A

/-- The pay-in of the response is the client's. -/
def PayInOf (p : PayInResponse) : Prop := p.clientId = some A

/-- The settlement of the response is the client's. -/
def SettlementOf (p : PrivateSettlementResponse) : Prop := p.clientId = some A

/-- The response is about a payout of the client. -/
def RetiroOf (r : ChainFlowResponse) : Prop :=
  ∃ p mensaje, PayoutOf A p ∧ r = toChainFlowResponse p mensaje

/-- Every element of the response is the client's. -/
def AllOf {α : Type} (Of : String → α → Prop) (l : List α) : Prop := ∀ a ∈ l, Of A a

/-- The payout that the exception carries, if any, is the client's. -/
def ErrorOf : Exception → Prop
  | .badGateway _ (some p) _ => PayoutOf A p
  | _ => True

end

/-- A plain exception tells the client nothing of others. -/
lemma errorOf_of_plain {A : String} {e : Exception} (plain : Plain e) : ErrorOf A e := by
  cases e
  case badGateway message payout failureReason =>
    cases payout with
    | none => trivial
    | some p => exact plain.elim
  all_goals trivial

/-! ## Endpoints -/

/-- The requests of a client, with what it is owed. -/
inductive Request (d : Deployment) (A : String) : {α : Type} → Method α → (α → Prop) → Prop where
  | createPayIn {dto context} (mine : context.clientId = some A) :
      Request d A (Payins.createPayIn d dto context) (PayInOf A)
  | listPayIns {query context} (mine : context.clientId = some A) :
      Request d A (Payins.listPayIns query context) (AllOf A PayInOf)
  | getPayIn {id context} (mine : context.clientId = some A) :
      Request d A (Payins.getPayIn id context) (PayInOf A)
  | reconcilePayIn {id context} (mine : context.clientId = some A) :
      Request d A (Payins.reconcilePayIn d id context) (PayInOf A)
  | sweepPayIn {id dto context} (mine : context.clientId = some A) :
      Request d A (Payins.sweepPayIn d id dto context) (PayInOf A)
  | acceptPayIn {id dto context} (mine : context.clientId = some A) :
      Request d A (Payins.acceptPayIn id dto context) (PayInOf A)
  | topUpPayIn {id dto context} (mine : context.clientId = some A) :
      Request d A (Payins.topUpPayIn d id dto context) (PayInOf A)
  | topUpAndSweep {id dto context} (mine : context.clientId = some A) :
      Request d A (Payins.topUpAndSweep d id dto context) (PayInOf A)
  | createPayout {dto context} (mine : context.clientId = some A) :
      Request d A (Payouts.createPayout d dto context) (PayoutOf A)
  | listPayouts {query context} (mine : context.clientId = some A) :
      Request d A (Payouts.listPayouts query context) (AllOf A PayoutOf)
  | getPayout {id context} (mine : context.clientId = some A) :
      Request d A (Payouts.getPayout id context) (PayoutOf A)
  | authorizePayoutBatch {payoutIds dto context} (mine : context.clientId = some A) :
      Request d A (Payouts.authorizePayoutBatch d payoutIds dto context) (AllOf A PayoutOf)
  | authorizePayout {id dto context} (mine : context.clientId = some A) :
      Request d A (Payouts.authorizePayout d id dto context) (PayoutOf A)
  | reconcilePayout {id context} (mine : context.clientId = some A) :
      Request d A (Payouts.reconcilePayout d id context) (PayoutOf A)
  | record {dto context} (mine : context.clientId = some A) :
      Request d A (Settlements.record d dto context) (SettlementOf A)
  | list {query context} (mine : context.clientId = some A) :
      Request d A (Settlements.list query context) (AllOf A SettlementOf)
  | get {id context} (mine : context.clientId = some A) :
      Request d A (Settlements.get id context) (SettlementOf A)
  | reveal {id context} (mine : context.clientId = some A) :
      Request d A (Settlements.reveal d id context) (SettlementOf A)
  | prepararRetiro {dto context} (mine : context.clientId = some A) :
      Request d A (ChainFlow.prepararRetiro d dto context) (RetiroOf A)
  | autorizarRetiro {dto context} (mine : context.clientId = some A) :
      Request d A (ChainFlow.autorizarRetiro d dto context) (RetiroOf A)
  | consultarEstadoRetiro {dto context} (mine : context.clientId = some A) :
      Request d A (ChainFlow.consultarEstadoRetiro dto context) (RetiroOf A)

/-- A call that a client can make. -/
def Entry (d : Deployment) (A : String) (p : Method Unit) : Prop :=
  ∃ (α : Type) (q : Method α) (Of : α → Prop), Request d A q Of ∧ p = q.discard

/-- The requests of one client, side by side with each other and with what they leave in flight or
    start in the background. Any operation may fail, and any request may stop at any time. -/
abbrev requests (d : Deployment) (chain : Chain → Chain → Prop) (A : String) : Machine Api World :=
  machine chain (Entry d A) fun _ _ _ => True

/-! ## Serving a client -/

/-- A client whose requests are served, from a world on. -/
structure Tenant where
  deployment : Deployment
  chain : Chain → Chain → Prop
  client : String
  uuid : IsUuid client
  start : World

namespace Tenant
variable (T : Tenant) {α β : Type}

/-- What the client keeps. -/
def upkeep : Upkeep (requests T.deployment T.chain T.client) := Isolation.upkeep T.client T.start

/-- Whatever else the client does, the program stays within the client and ends within `P`. -/
def Serves (p : Method α) (P : α → Prop) : Prop := T.upkeep.Yields p P (ErrorOf T.client)

variable {T} {c : Call} {p : Method α} {P Q : α → Prop}

/-- An operation that stays within the client. -/
lemma serves_request (within : Within T.client T.start c) :
    T.Serves (request c) (Answers T.client T.start c) :=
  Upkeep.yields_await (tends_within T.uuid within) fun _ raises =>
    errorOf_of_plain (plain_of_raises raises)

/-- A bystander's operation stays within any client. -/
lemma within_of_bystander (aside : isBystander c = true) : Within T.client T.start c := by
  cases c <;> trivial

/-- A program that has nothing to do with the ledgers. -/
lemma serves_bystander (bystander : Bystander p) : T.Serves p fun _ => True :=
  Upkeep.yields_mono (fun _ _ => trivial) (fun _ => errorOf_of_plain) (Upkeep.yields_of_uses
    (u := T.upkeep) (fun _ aside w b w' inv run =>
      have tends := tends_within T.uuid (within_of_bystander aside) w b w' inv run
      ⟨tends.1, tends.2.1, trivial⟩) (fun _ _ _ => plain_of_raises) bystander)

/-- A program and what follows it serve the client. -/
lemma serves_bind {q : Method β} {f : β → Method α} {R : β → Prop} (hq : T.Serves q R)
    (hf : ∀ b, R b → T.Serves (f b) P) : T.Serves (q >>= f) P :=
  Upkeep.yields_bind hq hf

/-- A part that has nothing to do with the ledgers, and what follows it. -/
lemma serves_aside {q : Method β} {f : β → Method α} (bystander : Bystander q)
    (hf : ∀ b, T.Serves (f b) P) : T.Serves (q >>= f) P :=
  serves_bind (serves_bystander bystander) fun b _ => hf b

/-- A computation that fails with an exception that carries no payout, and what follows it. -/
lemma serves_compute {x : Except Exception β} {f : β → Method α} (plain : PlainResult x)
    (hf : ∀ b, x = .ok b → T.Serves (f b) P) : T.Serves (.ofExcept x >>= f) P :=
  serves_bind (R := fun b => x = .ok b) (Upkeep.yields_ofExcept (fun _ eq => eq) fun e eq =>
    errorOf_of_plain (plain e eq)) hf

/-- A value that may be missing, and what follows it. -/
lemma serves_orThrow {x : Option β} {e : Exception} {f : β → Method α} (plain : Plain e)
    (hf : ∀ b, x = some b → T.Serves (f b) P) : T.Serves (.orThrow e x >>= f) P :=
  serves_bind (R := fun b => x = some b) (Upkeep.yields_orThrow (fun _ eq => eq)
    (errorOf_of_plain plain)) hf

/-- A condition that is required, and what follows it. -/
lemma serves_require {c : Prop} [Decidable c] {e : Exception} {f : Unit → Method α} (plain : Plain e)
    (hf : T.Serves (f ()) P) : T.Serves (.require c e >>= f) P :=
  serves_bind (Upkeep.yields_require (errorOf_of_plain plain)) fun _ _ => hf

/-- What serves the client serves it with less. -/
lemma serves_mono (hP : ∀ a, P a → Q a) (hp : T.Serves p P) : T.Serves p Q :=
  Upkeep.yields_mono hP (fun _ he => he) hp

/-- A value serves the client. -/
lemma serves_pure {a : α} (ha : P a) : T.Serves (pure a) P := Upkeep.yields_pure ha

/-- An exception that tells nothing of others serves the client. -/
lemma serves_throw {e : Exception} (he : ErrorOf T.client e) : T.Serves (throw e : Method α) P :=
  Upkeep.yields_throw he

/-- The calls of a `Promise.all` that stay within the client. -/
lemma serves_promiseAll {ι : Type} {items : List ι} {slot : ι → Async.Slot Api α}
    (each : ∀ i ∈ items, ∃ c post, slot i = .todo c post ∧ Within T.client T.start c ∧
      (∀ b, Answers T.client T.start c b → Upkeep.Result P Plain (post (.ok b))) ∧
        ∀ e, Plain e → Upkeep.Result P Plain (post (.error e))) :
    T.Serves (.promiseAll (items.map slot)) fun l => ∀ a ∈ l, P a := by
  have plain {r : Except Exception α} (res : Upkeep.Result P Plain r) :
      Upkeep.Result P (ErrorOf T.client) r := by
    cases r with
    | ok a => exact res
    | error e => exact errorOf_of_plain res
  refine Upkeep.yields_promiseAll fun s mem => ?_
  obtain ⟨i, hi, rfl⟩ := List.mem_map.1 mem
  obtain ⟨c, post, eq, within, ok, error⟩ := each i hi
  rw [eq]
  exact ⟨_, tends_within T.uuid within, fun b hb => plain (ok b hb), fun e raises =>
    plain (error e (plain_of_raises raises))⟩

end Tenant

end AvaSettle.Isolation
