import AvaSettle.Isolation.Payins
import AvaSettle.Isolation.Settlements
import AvaSettle.Payins.Runs

/-!
# Isolation of clients

A request of a client returns records of the client, and changes nothing of the others, whatever requests
of whatever clients came before it.
-/

namespace AvaSettle.Isolation
open Async
open Payins (CreatePayInDto createPayIn)

variable {d : Deployment} {chain : Chain → Chain → Prop}

/-! ## Requests of many clients -/

/-- The worlds that requests of clients lead to, one client after another. The requests of one client
    may run side by side, and may be cut short. -/
inductive Served (d : Deployment) (chain : Chain → Chain → Prop) (w : World) : World → Prop where
  | refl : Served d chain w w
  | client {A w' s} (served : Served d chain w w') (uuid : IsUuid A)
      (steps : (requests d chain A).Steps ⟨w', []⟩ s) : Served d chain w s.world

/-! ## Every request serves its client -/

/-- Each request of a client serves the client. -/
lemma serves_of_request {T : Tenant} {α : Type} {p : Method α} {Of : α → Prop}
    (request : Request T.deployment T.client p Of) : T.Serves p Of := by
  cases request with
  | createPayIn mine => exact Tenant.serves_createPayIn mine
  | listPayIns mine => exact Tenant.serves_listPayIns mine
  | getPayIn mine => exact Tenant.serves_getPayIn mine
  | reconcilePayIn mine => exact Tenant.serves_reconcilePayIn mine
  | sweepPayIn mine => exact Tenant.serves_sweepPayIn mine
  | acceptPayIn mine => exact Tenant.serves_acceptPayIn mine
  | topUpPayIn mine => exact Tenant.serves_topUpPayIn mine
  | topUpAndSweep mine => exact Tenant.serves_topUpAndSweep mine
  | createPayout mine => exact Tenant.serves_createPayout mine
  | listPayouts mine => exact Tenant.serves_listPayouts mine
  | getPayout mine => exact Tenant.serves_getPayout mine
  | authorizePayoutBatch mine => exact Tenant.serves_authorizePayoutBatch mine
  | authorizePayout mine => exact Tenant.serves_authorizePayout mine
  | reconcilePayout mine => exact Tenant.serves_reconcilePayout mine
  | record mine => exact Tenant.serves_record mine
  | list mine => exact Tenant.serves_list mine
  | get mine => exact Tenant.serves_get mine
  | reveal mine => exact Tenant.serves_reveal mine
  | prepararRetiro mine => exact Tenant.serves_prepararRetiro mine
  | autorizarRetiro mine => exact Tenant.serves_autorizarRetiro mine
  | consultarEstadoRetiro mine => exact Tenant.serves_consultarEstadoRetiro mine

/-- Whatever a client calls keeps what the client keeps. -/
lemma sound (T : Tenant) : T.upkeep.Sound := by
  rintro _ ⟨α, p, Of, request, rfl⟩
  exact ⟨_, Upkeep.yields_discard (serves_of_request request)⟩

/-- Every idempotency key stands for a pay-in of its client, after any requests of any clients. -/
lemma keysOwned_of_served {w w' : World} (owned : KeysOwned w) (served : Served d chain w w') :
    KeysOwned w' := by
  induction served with
  | refl => exact owned
  | @client A w' s _ uuid steps ih =>
    exact (Upkeep.inv_of_reachable (sound ⟨d, chain, A, uuid, w'⟩) ⟨.refl, ih⟩ steps).2

/-- In every world that requests of clients lead to, a request of a client returns records of the client
    and changes no row of another, and neither does anything that runs beside it for that client. -/
theorem request_isolated {w w' : World} {A : String} {α : Type} {p : Method α} {Of : α → Prop}
    {s s' : Sys Api World} {r : Except Exception α} {h : Hist Api}
    (fresh : w.idempotencyKeys = []) (served : Served d chain w w') (uuid : IsUuid A)
    (request : Request d A p Of) (beside : (requests d chain A).Reachable w' s)
    (run : (requests d chain A).Returns p s [] r s' h) :
    (match r with
      | .ok a => Of a
      | .error e => ErrorOf A e) ∧ Tended A w' s'.world := by
  let T : Tenant := ⟨d, chain, A, uuid, w'⟩
  have owned : KeysOwned w := fun p mem => by simp [fresh] at mem
  obtain ⟨⟨tended, -⟩, result⟩ := Upkeep.of_returns (sound T)
    ⟨.refl, keysOwned_of_served owned served⟩ beside run (serves_of_request (T := T) request)
  refine ⟨?_, tended⟩
  cases r with
  | ok a => exact result
  | error e => exact result

/-- A client of the concrete runs. -/
def sampleClient : String := "5f0c1c5e-7c1f-4a55-8a87-3f4c0f0c9d11"

/-- Another client. -/
def otherClient : String := "0b9f2a76-20c7-4a4c-9d5e-52f1f6a0c3e8"

/-- A request of a client for the pay-in `inv-1`, under an idempotency key. -/
def sampleRequest (client : String) : Method PayInResponse :=
  createPayIn .sample (Payins.sampleDto .paymentRouter)
    { RequestContext.sample with clientId := some client, idempotencyKey := some "key-1" }

/-- The schedule on which the request of a client is served. -/
def served (client : String) : List (Choice Api World) :=
  .enter (sampleRequest client).discard :: (Choice.steps 0 8 ++ [.env (Payins.redraw Payins.otherId)])

/-- The schedule is a legal one for the requests of the client. -/
lemma legal_served {client : String} : ∀ c ∈ served client, c.Legal (requests .sample Eq client) := by
  have entry : Entry .sample client (sampleRequest client).discard := ⟨_, _, _, .createPayIn rfl, rfl⟩
  have redraw (w : World) : World.Env Eq w (Payins.redraw Payins.otherId w) :=
    ⟨rfl, rfl, rfl, rfl, rfl, rfl, rfl, rfl, rfl⟩
  simp only [served, List.forall_mem_cons, List.forall_mem_append]
  exact ⟨entry, Choice.legal_steps, redraw, List.forall_mem_nil _⟩

/-- The request has been answered by a replay. -/
def isReplay (r : Except Exception PayInResponse) (_ _ : Sys Api World) : Bool :=
  match r with
  | .ok p => decide (p.idempotentReplay = some true)
  | .error _ => false

/-- Two clients ask for a pay-in with one external id under one key. A replay is of the client's own
    pay-in. -/
theorem request_isolated_of_replay : ∃ w s s' p h, Served .sample Eq .sample w ∧
    (∃ r ∈ w.payins.rows, r.clientId = some otherClient) ∧
      (requests .sample Eq sampleClient).Returns (sampleRequest sampleClient) s [] (.ok p) s' h ∧
        p.idempotentReplay = some true ∧ p.clientId = some sampleClient ∧
          Tended sampleClient w s'.world := by
  obtain ⟨s₀, steps, res⟩ := Machine.reachable_of_run (M := requests .sample Eq otherClient) (w := .sample)
    Machine.always (served otherClient)
    (fun s => (s.world.payins.rows.any fun r => decide (r.clientId = some otherClient)) &&
      ((requests .sample Eq sampleClient).run Machine.always (served sampleClient) ⟨s.world, []⟩).any fun s =>
        ((requests .sample Eq sampleClient).watch Machine.always (sampleRequest sampleClient)
          (.replicate 9 .done) s []).any fun q =>
            ((requests .sample Eq sampleClient).run Machine.always [] q.2.1).any (isReplay q.1 q.2.1))
    (fun _ _ _ _ => trivial) legal_served (by decide +kernel)
  obtain ⟨other, res⟩ := Bool.and_eq_true_iff.1 res
  obtain ⟨row, mem, client⟩ := List.any_eq_true.1 other
  obtain ⟨s, r, s', h, _, reach, run, -, replayed⟩ := Machine.returns_of_run
    (M := requests .sample Eq sampleClient) Machine.always (sampleRequest sampleClient) (served sampleClient) []
    (.replicate 9 .done) isReplay (fun _ _ _ _ => trivial) legal_served (by simp) res
  have before : Served .sample Eq .sample s₀.world := .client .refl (by decide +kernel) steps
  cases r with
  | error e => cases replayed
  | ok p =>
    have isolated := request_isolated rfl before (by decide +kernel) (.createPayIn rfl) reach run
    exact ⟨s₀.world, s, s', p, h, before, ⟨row, mem, of_decide_eq_true client⟩, run,
      of_decide_eq_true replayed, isolated⟩

end AvaSettle.Isolation
