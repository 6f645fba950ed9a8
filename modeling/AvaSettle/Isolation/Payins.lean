import AvaSettle.Isolation.Requests

/-!
# Pay-ins of one client

Each pay-in request reads its rows within the client, and writes by bare ids only to rows that it has
read before. An idempotency key is stored once the pay-in it stands for is there.
-/

namespace AvaSettle.Isolation.Tenant
open Async
open Blockchain Payins
open Data (Table)

variable {T : Tenant} {context : RequestContext} {id : Uuid} {r : PayInRecord}

/-- The pay-in is the client's. -/
abbrev OwnPayIn (T : Tenant) (r : PayInRecord) : Prop := Isolation.OwnPayIn T.client T.start r

/-- The row is the client's, if there is one. -/
abbrev MayOwnPayIn (T : Tenant) (o : Option PayInRecord) : Prop := ∀ r, o = some r → T.OwnPayIn r

/-! ## Helpers -/

/-- The response to a pay-in of the client is about it. -/
lemma serves_payInResponse {replay : Bool} (own : T.OwnPayIn r) :
    T.Serves (Payins.toResponse r replay) (PayInOf T.client) :=
  serves_aside (bystander_request rfl) fun _ => serves_pure own.client

/-- The responses to pay-ins of the client are about them. -/
lemma serves_payInResponses {rows : List PayInRecord} (own : ∀ r ∈ rows, T.OwnPayIn r) :
    T.Serves (.promiseAll (rows.map Payins.toResponseSlot)) (AllOf T.client PayInOf) :=
  serves_promiseAll fun r mem => ⟨_, _, rfl, trivial, fun _ _ => (own r mem).client, fun _ he => he⟩

/-- `requirePayIn` finds a pay-in of the client only. -/
lemma serves_requirePayIn (mine : context.clientId = some T.client) :
    T.Serves (requirePayIn id context) fun r => T.OwnPayIn r ∧ r.id = id := by
  refine serves_bind (serves_request (.inl mine)) fun o own => ?_
  exact Upkeep.yields_orThrow own trivial

/-- An update of a pay-in that no other client owns stays within the client. -/
lemma serves_updatePayIn {patch : PayInPatch} {guard : PayInUpdateGuard}
    (free : FreePayIn T.client T.start id) :
    T.Serves (request (.payInUpdate id patch guard)) T.MayOwnPayIn :=
  serves_request (c := .payInUpdate id patch guard) free

/-! ## createPayIn -/

/-- The client has a pay-in under the id. -/
def HasPayIn (T : Tenant) (id : Uuid) (w : World) : Prop :=
  ∃ r, w.payins.find? id = some r ∧ r.clientId = some T.client

/-- The client keeps a pay-in that it has. -/
lemma HasPayIn.later {w w' : World} (le : T.upkeep.le w w') (has : T.HasPayIn id w) :
    T.HasPayIn id w' := by
  obtain ⟨r, found, client⟩ := has
  obtain ⟨r', found, same⟩ := le id r found
  exact ⟨r', found, same.trans client⟩

/-- A key that is stored for a pay-in of the client is owned like the others. -/
lemma moves_of_store {w : World} {key : String} (uuid : IsUuid T.client) (has : T.HasPayIn id w) :
    Moves T.client w
      { w with idempotencyKeys := w.idempotencyKeys ++ [(namespacedKey (some T.client) key, id)] } := by
  refine ⟨⟨.refl, .refl, .refl, fun p other => ?_⟩, .refl, fun owned p mem => ?_⟩
  · have ne : p ≠ (namespacedKey (some T.client) key, id) := fun eq => other key (eq ▸ rfl)
    simp [ne]
  · rcases List.mem_append.1 mem with mem | mem
    · exact owned p mem
    · obtain rfl := List.mem_singleton.1 mem
      obtain ⟨r, found, client⟩ := has
      exact ⟨T.client, key, r, uuid, rfl, found, client⟩

/-- The exceptions of operations tell the client nothing of others. -/
lemma plain_of_failed {c : Call} : ∀ e, (requests T.deployment T.chain T.client).raises c e = true →
    ErrorOf T.client e :=
  fun _ raises => errorOf_of_plain (plain_of_raises (c := c) raises)

/-- A key is stored for a pay-in of the client. -/
lemma serves_storeIdempotencyKey {key : String} (mine : context.clientId = some T.client) :
    T.upkeep.YieldsAfter (T.HasPayIn id) (storeIdempotencyKey context.clientId key id)
      (fun _ => True) (ErrorOf T.client) := by
  rw [mine]
  refine Upkeep.yieldsAfter_await HasPayIn.later ?_ plain_of_failed
  rintro w b w' ⟨tended, owned⟩ has run
  have moves : Moves T.client w w' := by
    change World.exec (.idempotencyKeyStore (namespacedKey (some T.client) key) id) w = _ at run
    simp only [World.exec] at run
    split at run <;> cases run
    · exact moves_of_same rfl rfl rfl rfl
    · exact moves_of_store T.uuid has
  exact ⟨⟨tended.trans moves.tended, moves.owned owned⟩, moves.persists⟩

/-- What the insertion of a pay-in shows of the world. -/
def Inserted (T : Tenant) (o : Option PayInRecord) (w : World) : Prop :=
  ∀ r, o = some r → T.OwnPayIn r ∧ T.HasPayIn r.id w

/-- A pay-in that is inserted for the client is the client's. -/
lemma inserted_of_run {w w' : World} {o : Option PayInRecord} (tended : Tended T.client T.start w)
    (mine : r.clientId = some T.client) (run : World.exec (.payInInsert r) w = some (o, w')) :
    T.Inserted o w' := by
  rintro r' rfl
  have moves := moves_of_within tended (c := .payInInsert r) mine run
  obtain ⟨eq, -⟩ | ⟨t, eq, rfl, inserted, -⟩ := World.insertPayIn_cases run
  · cases eq
  · cases eq
    have found : t.find? r.id = some r := by rw [Table.find?_insert inserted, if_pos rfl]
    exact ⟨(tended.trans moves.tended).ownPayIn found mine, r, found, mine⟩

/-- `insertPayIn` serves the client with a pay-in of its own. -/
lemma serves_insertPayIn (mine : context.clientId = some T.client)
    (client : r.clientId = some T.client) :
    T.Serves (insertPayIn context r) (PayInOf T.client) := by
  have inserts : ∀ w o w', T.upkeep.inv w → World.exec (.payInInsert r) w = some (o, w') →
      T.upkeep.inv w' ∧ T.upkeep.le w w' ∧ T.Inserted o w' := by
    rintro w o w' inv run
    obtain ⟨inv', le, -⟩ := tends_within T.uuid (c := .payInInsert r) client w o w' inv run
    exact ⟨inv', le, inserted_of_run inv.1 client run⟩
  unfold insertPayIn Payins.createOrGetExisting
  rw [Prog.bind_assoc]
  refine Upkeep.yields_await_bind (S := Api) (K := T.Inserted) inserts plain_of_failed
    fun o a w h shown => ?_
  cases o with
  | some inserted =>
    obtain ⟨own, has⟩ := shown inserted rfl
    simp only [Prog.pure_bind, Bool.false_eq_true, if_false]
    split
    case h_1 =>
      refine Upkeep.yieldsAfter_bind (serves_storeIdempotencyKey mine) (fun _ _ => ?_) a w h has
      exact serves_aside bystander_recordAudit fun _ => serves_payInResponse own
    case h_2 =>
      exact serves_aside bystander_recordAudit (fun _ => serves_payInResponse own) a w h
  | none =>
    refine serves_bind (R := fun p => T.OwnPayIn p.1 ∧ p.2 = true) ?_ (fun p own => ?_) a w h
    · refine serves_bind (serves_request (c := .payInFindByExternalId r.clientId r.externalId) client)
        fun o own => ?_
      exact serves_orThrow trivial fun r found => serves_pure ⟨own r found, rfl⟩
    · obtain ⟨existing, existed⟩ := p
      obtain rfl : existed = true := own.2
      exact serves_payInResponse own.1

section
variable {d : Deployment}

/-- `createNewPayIn` serves the client with a pay-in of its own. -/
lemma serves_createNewPayIn {dto : CreatePayInDto} (mine : context.clientId = some T.client) :
    T.Serves (createNewPayIn d dto context) (PayInOf T.client) := by
  refine serves_compute plain_parseAmount fun _ _ => ?_
  split
  case h_1 =>
    refine serves_compute plain_requirePaymentRouterAddress fun _ _ => ?_
    refine serves_aside (bystander_request rfl) fun _ => ?_
    refine serves_aside (bystander_request rfl) fun _ => ?_
    refine serves_aside (bystander_request rfl) fun _ => ?_
    exact serves_insertPayIn mine mine
  case h_2 =>
    refine serves_aside (bystander_request rfl) fun _ => ?_
    refine serves_aside (bystander_request rfl) fun _ => ?_
    refine serves_aside (bystander_request rfl) fun _ => ?_
    refine serves_compute plain_derivePayInAddress fun _ _ => ?_
    refine serves_aside (bystander_request rfl) fun _ => ?_
    exact serves_insertPayIn mine mine

/-- `findByIdempotencyKey` finds a pay-in of the client only. -/
lemma serves_findByIdempotencyKey {key : String} (mine : context.clientId = some T.client) :
    T.Serves (findByIdempotencyKey context.clientId key) T.MayOwnPayIn := by
  rw [mine]
  refine serves_bind (serves_request (c := .idempotencyKeyFind _) ⟨key, rfl⟩) fun o free => ?_
  cases o with
  | none => exact serves_pure (by rintro _ ⟨⟩)
  | some id =>
    exact serves_mono (fun _ own r found => (own r found).1)
      (serves_request (c := .payInFindById id none) (.inr ⟨rfl, free id rfl⟩))

/-- `createPayIn` serves the client with a pay-in of its own. -/
lemma serves_createPayIn {dto : CreatePayInDto} (mine : context.clientId = some T.client) :
    T.Serves (createPayIn d dto context) (PayInOf T.client) := by
  unfold createPayIn
  split
  case h_1 => exact serves_createNewPayIn mine
  case h_2 =>
    refine serves_bind (serves_findByIdempotencyKey mine) fun prior own => ?_
    cases prior with
    | some prior => exact serves_payInResponse (own prior rfl)
    | none => exact serves_createNewPayIn mine

/-! ## Queries -/

/-- `listPayIns` lists pay-ins of the client only. -/
lemma serves_listPayIns {query : ListPayInsQueryDto} (mine : context.clientId = some T.client) :
    T.Serves (listPayIns query context) (AllOf T.client PayInOf) := by
  refine serves_bind (serves_request (c := .payInList _) ?_) fun _ own => serves_payInResponses own
  exact mine

/-- `getPayIn` serves the client with a pay-in of its own. -/
lemma serves_getPayIn (mine : context.clientId = some T.client) :
    T.Serves (getPayIn id context) (PayInOf T.client) :=
  serves_bind (serves_requirePayIn mine) fun _ own => serves_payInResponse own.1

/-! ## sweepPayIn and top-ups -/

/-- `executeSweep` stays within the client. -/
lemma serves_executeSweep {dto : SweepPayInDto} {amountAtomic : Option Nat}
    (mine : context.clientId = some T.client) (free : FreePayIn T.client T.start id) :
    T.Serves (executeSweep d id dto context r amountAtomic) fun p => T.OwnPayIn p.1 := by
  refine serves_aside bystander_sweepDerivedPayIn fun _ => ?_
  refine serves_aside (bystander_request rfl) fun now => ?_
  refine serves_bind (serves_updatePayIn free) fun updated own => ?_
  refine serves_aside bystander_recordAudit fun _ => ?_
  cases updated with
  | none => exact serves_bind (serves_requirePayIn mine) fun _ own => serves_pure own.1
  | some updated => exact serves_pure (own updated rfl)

/-- `handleSweepError` stays within the client. -/
lemma serves_handleSweepError {dto : SweepPayInDto} {e : Exception}
    (free : FreePayIn T.client T.start id) (he : ErrorOf T.client e) :
    T.Serves (handleSweepError id dto context e) fun p => T.OwnPayIn p.1 := by
  refine serves_bind (serves_updatePayIn free) fun failed own => ?_
  refine serves_aside bystander_recordAudit fun _ => ?_
  cases failed with
  | some failed => exact serves_pure (own failed rfl)
  | none => exact serves_throw he

/-- `sweepPayIn` serves the client with a pay-in of its own. -/
lemma serves_sweepPayIn {dto : SweepPayInDto} (mine : context.clientId = some T.client) :
    T.Serves (sweepPayIn d id dto context) (PayInOf T.client) := by
  refine serves_bind (serves_requirePayIn mine) fun payin own => ?_
  have free : FreePayIn T.client T.start id := own.2 ▸ own.1.free
  split
  case isTrue =>
    refine serves_bind (serves_updatePayIn free) fun updated own => ?_
    exact serves_orThrow trivial fun r found => serves_payInResponse (own r found)
  case isFalse =>
    split
    case isTrue => exact serves_payInResponse own.1
    case isFalse =>
      refine serves_compute plain_sweepAmount fun _ _ => ?_
      refine serves_bind (Upkeep.yields_tryCatch (serves_executeSweep mine free) fun _ he =>
        serves_handleSweepError free he) fun p own => ?_
      exact serves_payInResponse own

/-- `topUpPayIn` serves the client with a pay-in of its own. -/
lemma serves_topUpPayIn {dto : TopUpPayInDto} (mine : context.clientId = some T.client) :
    T.Serves (topUpPayIn d id dto context) (PayInOf T.client) := by
  refine serves_bind (serves_requirePayIn mine) fun payin own => ?_
  refine serves_require trivial ?_
  exact serves_aside bystander_topUp fun _ => serves_payInResponse own.1

/-- `topUpAndSweep` serves the client with a pay-in of its own. -/
lemma serves_topUpAndSweep {dto : TopUpAndSweepDto} (mine : context.clientId = some T.client) :
    T.Serves (topUpAndSweep d id dto context) (PayInOf T.client) := by
  refine serves_bind (serves_requirePayIn mine) fun payin own => ?_
  refine serves_require trivial ?_
  refine serves_aside bystander_topUp fun _ => ?_
  split
  case isTrue => exact serves_aside (bystander_request rfl) fun _ => serves_sweepPayIn mine
  case isFalse => exact serves_sweepPayIn mine

/-! ## acceptPayIn -/

/-- `acceptPayIn` serves the client with a pay-in of its own. -/
lemma serves_acceptPayIn {dto : AcceptPayInDto} (mine : context.clientId = some T.client) :
    T.Serves (acceptPayIn id dto context) (PayInOf T.client) := by
  refine serves_bind (serves_requirePayIn mine) fun payin own => ?_
  have free : FreePayIn T.client T.start id := own.2 ▸ own.1.free
  refine serves_aside (bystander_request rfl) fun now => ?_
  refine serves_bind (serves_updatePayIn free) fun updated own => ?_
  cases updated with
  | none =>
    refine serves_bind (serves_requirePayIn mine) fun current own => ?_
    split
    case isTrue => exact serves_payInResponse own.1
    case isFalse => exact serves_throw trivial
  | some updated =>
    refine serves_aside bystander_recordAudit fun _ => ?_
    exact serves_aside bystander_enqueue fun _ => serves_payInResponse (own updated rfl)

/-! ## reconcilePayIn -/

/-- The sweep in the background stays within the client as well. -/
lemma serves_autoSweep (mine : context.clientId = some T.client) :
    T.upkeep.Yields (autoSweep d id context) (fun _ => True) fun _ => True :=
  Upkeep.yields_tryCatch (Upkeep.yields_discard (serves_topUpAndSweep mine)) fun _ _ =>
    Upkeep.yields_pure trivial

/-- `announceConfirmed` stays within the client. -/
lemma serves_announceConfirmed {payin : PayInRecord} {confirmed : Bool}
    (mine : context.clientId = some T.client) :
    T.Serves (Payins.announceConfirmed d id context payin confirmed r) fun _ => True := by
  unfold Payins.announceConfirmed
  split
  case isFalse => exact serves_pure trivial
  case isTrue =>
    refine serves_aside bystander_enqueue fun _ => ?_
    split
    case isTrue => exact Upkeep.yields_spawn (serves_autoSweep mine)
    case isFalse => exact serves_pure trivial

/-- `reconcilePayIn` serves the client with a pay-in of its own. -/
lemma serves_reconcilePayIn (mine : context.clientId = some T.client) :
    T.Serves (reconcilePayIn d id context) (PayInOf T.client) := by
  refine serves_bind (serves_requirePayIn mine) fun payin own => ?_
  have free : FreePayIn T.client T.start id := own.2 ▸ own.1.free
  split
  case isTrue => exact serves_payInResponse own.1
  case isFalse =>
    refine serves_aside (bystander_request rfl) fun latestBlock => ?_
    refine serves_aside bystander_findPayInTransfers fun transfers => ?_
    refine serves_aside (bystander_request rfl) fun now => ?_
    refine serves_aside bystander_readExpired fun expired => ?_
    refine serves_bind (serves_updatePayIn free) fun updated own => ?_
    refine serves_orThrow trivial fun updated found => ?_
    refine serves_aside bystander_recordAudit fun _ => ?_
    refine serves_aside bystander_announceDetected fun _ => ?_
    exact serves_bind (serves_announceConfirmed mine) fun _ _ =>
      serves_payInResponse (own updated found)

end

end AvaSettle.Isolation.Tenant
