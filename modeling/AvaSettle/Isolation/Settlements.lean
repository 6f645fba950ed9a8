import AvaSettle.Isolation.Payouts

/-!
# Settlements and withdrawals of one client

Each settlement request reads its rows within the client, and each withdrawal is made of payout
requests of the client.
-/

namespace AvaSettle.Isolation.Tenant
open Async
open Blockchain

variable {T : Tenant} {d : Deployment} {context : RequestContext} {id : Uuid}

/-! ## Settlements -/

section
open Settlements
variable {r : PrivateSettlementRecord}

/-- The settlement is the client's. -/
abbrev OwnSettlement (T : Tenant) (r : PrivateSettlementRecord) : Prop :=
  Isolation.OwnSettlement T.client T.start r

/-- `requireRecord` finds a settlement of the client only. -/
lemma serves_requireRecord (mine : context.clientId = some T.client) :
    T.Serves (requireRecord id context) fun r => T.OwnSettlement r ∧ r.id = id := by
  refine serves_bind (serves_request mine) fun o own => ?_
  exact Upkeep.yields_orThrow own trivial

/-- An update of a settlement that no other client owns stays within the client. -/
lemma serves_updateSettlement {patch : PrivateSettlementPatch}
    (free : FreeSettlement T.client T.start id) :
    T.Serves (request (.settlementUpdate id patch)) fun o => ∀ r, o = some r → T.OwnSettlement r :=
  serves_request (c := .settlementUpdate id patch) free

/-- The response to an updated row, or to the row itself. -/
lemma settlementOf_getD {o : Option PrivateSettlementRecord} (own : T.OwnSettlement r)
    (written : ∀ r, o = some r → T.OwnSettlement r) :
    SettlementOf T.client (toResponse (o.getD r)) := by
  cases o with
  | none => exact own.client
  | some updated => exact (written updated rfl).client

/-- `publish` serves the client with a settlement of its own. -/
lemma serves_publish {settlementRef settlementId commitment : Hex} (own : T.OwnSettlement r) :
    T.Serves (publish d context settlementRef settlementId commitment r) (SettlementOf T.client) := by
  refine serves_aside bystander_recordPrivateSettlement fun _ => ?_
  refine serves_bind (serves_updateSettlement own.free) fun updated written => ?_
  exact serves_aside bystander_recordAudit fun _ => serves_pure (settlementOf_getD own written)

/-- `release` stays within the client. -/
lemma serves_release {e : Exception} (free : FreeSettlement T.client T.start id)
    (he : ErrorOf T.client e) : T.Serves (release id e) (SettlementOf T.client) :=
  serves_bind (serves_request (c := .settlementDelete id) free) fun _ _ => serves_throw he

/-- `createOrGetExisting` serves the client with a settlement of its own. -/
lemma serves_createOrGetSettlement (client : r.clientId = some T.client) :
    T.Serves (Settlements.createOrGetExisting r) fun p => T.OwnSettlement p.1 := by
  refine serves_bind (serves_request (c := .settlementInsert r) client) fun o own => ?_
  cases o with
  | some inserted => exact serves_pure (own inserted rfl)
  | none =>
    refine serves_bind (serves_request
      (c := .settlementFindByExternalId r.clientId r.externalId) client) fun o own => ?_
    exact serves_orThrow trivial fun r found => serves_pure (own r found)

/-- `record` serves the client with a settlement of its own. -/
lemma serves_record {dto : CreateSettlementDto} (mine : context.clientId = some T.client) :
    T.Serves (record d dto context) (SettlementOf T.client) := by
  refine serves_require trivial ?_
  refine serves_orThrow trivial fun _ _ => ?_
  refine serves_compute plain_parseAmount fun _ _ => ?_
  refine serves_compute plain_liftLibrary fun _ _ => ?_
  refine serves_aside (bystander_request rfl) fun _ => ?_
  refine serves_compute plain_liftLibrary fun _ _ => ?_
  refine serves_compute plain_liftLibrary fun _ _ => ?_
  refine serves_aside (bystander_request rfl) fun _ => ?_
  refine serves_bind (serves_createOrGetSettlement mine) fun p own => ?_
  obtain ⟨r, existed⟩ := p
  dsimp only
  split
  case isTrue => exact serves_pure own.client
  case isFalse =>
    exact Upkeep.yields_tryCatch (serves_publish own) fun _ he => serves_release own.free he

/-- `list` lists settlements of the client only. -/
lemma serves_list {query : ListSettlementsQueryDto} (mine : context.clientId = some T.client) :
    T.Serves (list query context) (AllOf T.client SettlementOf) := by
  refine serves_bind (serves_request (c := .settlementList context.clientId _ _) mine)
    fun rows own => serves_pure ?_
  rintro _ listed
  obtain ⟨r, mem, rfl⟩ := List.mem_map.1 listed
  exact (own r mem).client

/-- `get` serves the client with a settlement of its own. -/
lemma serves_get (mine : context.clientId = some T.client) :
    T.Serves (get id context) (SettlementOf T.client) :=
  serves_bind (serves_requireRecord mine) fun _ own => serves_pure own.1.client

/-- `reveal` serves the client with a settlement of its own. -/
lemma serves_reveal (mine : context.clientId = some T.client) :
    T.Serves (reveal d id context) (SettlementOf T.client) := by
  refine serves_bind (serves_requireRecord mine) fun r own => ?_
  have free : FreeSettlement T.client T.start id := own.2 ▸ own.1.free
  split
  case isTrue => exact serves_pure own.1.client
  case isFalse =>
    refine serves_aside bystander_revealPrivateSettlement fun _ => ?_
    refine serves_bind (serves_updateSettlement free) fun updated written => ?_
    exact serves_aside bystander_recordAudit fun _ => serves_pure (settlementOf_getD own.1 written)

end

/-! ## Withdrawals -/

section
open ChainFlow

/-- `tryGetPayoutByExternalId` finds a payout of the client only. -/
lemma serves_tryGetPayoutByExternalId {externalId : String}
    (mine : context.clientId = some T.client) :
    T.Serves (tryGetPayoutByExternalId externalId context) fun o =>
      ∀ p, o = some p → PayoutOf T.client p := by
  refine Upkeep.yields_tryCatch (serves_bind (serves_getPayoutByExternalId mine) fun p own =>
    serves_pure ?_) fun _ _ => serves_pure (by rintro _ ⟨⟩)
  rintro _ ⟨⟩
  exact own

/-- `firstByExternalId` finds a payout of the client only. -/
lemma serves_firstByExternalId {ids : List String} (mine : context.clientId = some T.client) :
    T.Serves (firstByExternalId context ids) fun o => ∀ p, o = some p → PayoutOf T.client p := by
  induction ids with
  | nil => exact serves_pure (by rintro _ ⟨⟩)
  | cons id ids ih =>
    refine serves_bind (serves_tryGetPayoutByExternalId mine) fun o own => ?_
    cases o with
    | none => exact ih
    | some p => exact serves_pure own

/-- `resolvePayout` serves the client with a payout of its own. -/
lemma serves_resolvePayout {dto : ChainFlowEstadoRetiroDto}
    (mine : context.clientId = some T.client) :
    T.Serves (resolvePayout dto context) (PayoutOf T.client) := by
  unfold resolvePayout
  split
  case h_1 => exact serves_getPayout mine
  case h_2 =>
    split
    case h_1 => exact serves_throw trivial
    case h_2 =>
      refine serves_bind (serves_firstByExternalId mine) fun o own => ?_
      cases o with
      | some p => exact serves_pure (own p rfl)
      | none =>
        refine serves_bind (serves_listPayouts mine) fun payouts own => ?_
        split
        case h_1 found => exact serves_pure (own _ (List.mem_of_find?_eq_some found))
        case h_2 => exact serves_getPayoutByExternalId mine

/-- The exceptions of `resolveAsset` carry no payout. -/
lemma plain_resolveAsset {rawAsset : Json} : PlainResult (resolveAsset rawAsset) := by
  unfold resolveAsset
  dsimp only
  repeat' split
  all_goals
    rintro _ ⟨⟩
    try trivial

/-- The exceptions of `toCreatePayoutDto` carry no payout. -/
lemma plain_toCreatePayoutDto {dto : ChainFlowRetiroDto} : PlainResult (toCreatePayoutDto dto) := by
  refine plain_bind plain_resolveAsset fun _ => ?_
  dsimp only
  split <;> rintro _ ⟨⟩ <;> trivial

/-- `prepararRetiro` serves the client with a retrieval of its own. -/
lemma serves_prepararRetiro {dto : ChainFlowRetiroDto} (mine : context.clientId = some T.client) :
    T.Serves (prepararRetiro d dto context) (RetiroOf T.client) := by
  refine serves_compute plain_toCreatePayoutDto fun _ _ => ?_
  exact serves_bind (serves_createPayout mine) fun p own => serves_pure ⟨p, _, own, rfl⟩

/-- `autorizarRetiro` serves the client with a retrieval of its own. -/
lemma serves_autorizarRetiro {dto : ChainFlowEstadoRetiroDto}
    (mine : context.clientId = some T.client) :
    T.Serves (autorizarRetiro d dto context) (RetiroOf T.client) := by
  refine serves_bind (serves_resolvePayout mine) fun payout _ => ?_
  exact serves_bind (serves_authorizePayout mine) fun p own => serves_pure ⟨p, _, own, rfl⟩

/-- `consultarEstadoRetiro` serves the client with a retrieval of its own. -/
lemma serves_consultarEstadoRetiro {dto : ChainFlowEstadoRetiroDto}
    (mine : context.clientId = some T.client) :
    T.Serves (consultarEstadoRetiro dto context) (RetiroOf T.client) :=
  serves_bind (serves_resolvePayout mine) fun p own => serves_pure ⟨p, _, own, rfl⟩

end

end AvaSettle.Isolation.Tenant
