import Mathlib.Data.List.ReduceOption
import AvaSettle.Isolation.Requests

/-!
# Payouts of one client

Each payout request reads its rows within the client, and writes by bare ids only to rows that it has
read before.
-/

namespace AvaSettle.Isolation.Tenant
open Async
open Blockchain Payouts

variable {T : Tenant} {context : RequestContext} {id : Uuid} {r : PayoutRecord}
  {dto : AuthorizePayoutDto}

/-- The payout is the client's. -/
abbrev OwnPayout (T : Tenant) (r : PayoutRecord) : Prop := Isolation.OwnPayout T.client T.start r

/-- The rows are the client's, where there are any. -/
abbrev OwnPayouts (T : Tenant) (l : List PayoutRecord) : Prop := ∀ r ∈ l, T.OwnPayout r

/-- The row is the client's, if there is one. -/
abbrev MayOwnPayout (T : Tenant) (o : Option PayoutRecord) : Prop := ∀ r, o = some r → T.OwnPayout r

/-! ## Helpers -/

/-- The response to a payout of the client is about it. -/
lemma serves_payoutResponse {replay : Bool} (own : T.OwnPayout r) :
    T.Serves (Payouts.toResponse r replay) (PayoutOf T.client) :=
  serves_aside (bystander_request rfl) fun _ => serves_pure own.client

/-- The responses to payouts of the client are about them. -/
lemma serves_payoutResponses {rows : List PayoutRecord} (own : T.OwnPayouts rows) :
    T.Serves (.promiseAll (rows.map Payouts.toResponseSlot)) (AllOf T.client PayoutOf) :=
  serves_promiseAll fun r mem => ⟨_, _, rfl, trivial, fun _ _ => (own r mem).client, fun _ he => he⟩

/-- That a payout is not found is plain. -/
lemma plain_payoutOrNotFound {o : Option PayoutRecord} : PlainResult (payoutOrNotFound o) := by
  cases o <;> rintro _ ⟨⟩
  trivial

/-- A payout that is found is the one that was looked up. -/
lemma eq_of_payoutOrNotFound {o : Option PayoutRecord} (found : payoutOrNotFound o = .ok r) :
    o = some r := by
  cases o <;> cases found
  rfl

/-- `requirePayout` finds a payout of the client only. -/
lemma serves_requirePayout (mine : context.clientId = some T.client) :
    T.Serves (requirePayout id context) fun r => T.OwnPayout r ∧ r.id = id := by
  refine serves_bind (serves_request mine) fun o own => ?_
  exact Upkeep.yields_ofExcept (fun r found => own r (eq_of_payoutOrNotFound found)) fun e failed =>
    errorOf_of_plain (plain_payoutOrNotFound e failed)

/-- An update of a payout that no other client owns stays within the client. -/
lemma serves_updatePayout {patch : PayoutPatch} {guard : Option (List PayoutStatus)}
    (free : FreePayout T.client T.start id) :
    T.Serves (request (.payoutUpdate id patch guard)) T.MayOwnPayout :=
  serves_request (c := .payoutUpdate id patch guard) free

/-- `announceConfirmed` is a bystander. -/
lemma bystander_announceConfirmed {status : TransferStatus} {o : Option PayoutRecord} :
    Bystander (Payouts.announceConfirmed status o) := by
  unfold Payouts.announceConfirmed
  split
  case isTrue => exact Prog.uses_bind (Prog.uses_orThrow trivial) fun _ => bystander_enqueue
  case isFalse => exact Prog.uses_pure _

/-! ## Queries -/

/-- `listPayouts` lists payouts of the client only. -/
lemma serves_listPayouts {query : Payouts.ListPayoutsQueryDto}
    (mine : context.clientId = some T.client) :
    T.Serves (listPayouts query context) (AllOf T.client PayoutOf) := by
  refine serves_bind (serves_request (c := .payoutList _) ?_) fun _ own => serves_payoutResponses own
  exact mine

/-- `getPayout` serves the client with a payout of its own. -/
lemma serves_getPayout (mine : context.clientId = some T.client) :
    T.Serves (getPayout id context) (PayoutOf T.client) :=
  serves_bind (serves_requirePayout mine) fun _ own => serves_payoutResponse own.1

/-- `getPayoutByExternalId` serves the client with a payout of its own. -/
lemma serves_getPayoutByExternalId {externalId : String} (mine : context.clientId = some T.client) :
    T.Serves (getPayoutByExternalId externalId context) (PayoutOf T.client) := by
  refine serves_bind (serves_request mine) fun o own => ?_
  exact serves_compute plain_payoutOrNotFound fun r found =>
    serves_payoutResponse (own r (eq_of_payoutOrNotFound found))

/-! ## authorizePayout -/

section
variable {d : Deployment}

/-- `transferPayout` is a bystander. -/
lemma bystander_transferPayout : Bystander (transferPayout d r) := by
  unfold transferPayout
  split
  case isTrue => exact bystander_vaultPayout
  case isFalse => exact bystander_sendErc20Transfer

/-- `executePayout` stays within the client. -/
lemma serves_executePayout {now : Timestamp} (free : FreePayout T.client T.start id) :
    T.Serves (executePayout d id now dto context r) T.MayOwnPayout := by
  refine serves_aside bystander_getAssetBalance fun _ => ?_
  refine serves_require trivial ?_
  refine serves_aside bystander_transferPayout fun _ => ?_
  refine serves_bind (serves_updatePayout free) fun updated own => ?_
  refine serves_aside bystander_recordAudit fun _ => ?_
  exact serves_aside bystander_announceConfirmed fun _ => serves_pure own

/-- `handlePayoutError` stays within the client. -/
lemma serves_handlePayoutError {e : Exception} (free : FreePayout T.client T.start id) :
    T.Serves (handlePayoutError id dto context e) T.MayOwnPayout := by
  unfold handlePayoutError
  split
  case h_1 => exact serves_bind (serves_updatePayout free) fun _ _ => serves_throw trivial
  case h_2 =>
    refine serves_bind (serves_updatePayout free) fun failed own => ?_
    refine serves_aside bystander_recordAudit fun _ => ?_
    refine serves_orThrow trivial fun r found => ?_
    exact serves_bind (serves_payoutResponse (own r found)) fun p mine => serves_throw mine

/-- `authorizePayout` serves the client with a payout of its own. -/
lemma serves_authorizePayout (mine : context.clientId = some T.client) :
    T.Serves (authorizePayout d id dto context) (PayoutOf T.client) := by
  refine serves_bind (serves_requirePayout mine) fun payout own => ?_
  have free : FreePayout T.client T.start id := own.2 ▸ own.1.free
  split
  case isTrue => exact serves_payoutResponse own.1
  case isFalse =>
    refine serves_aside (bystander_request rfl) fun now => ?_
    refine serves_bind (serves_updatePayout free) fun claimed own => ?_
    cases claimed with
    | none =>
      refine serves_bind (serves_requirePayout mine) fun current own => ?_
      split
      case isTrue => exact serves_payoutResponse own.1
      case isFalse => exact serves_throw trivial
    | some authorized =>
      refine serves_aside bystander_recordAudit fun _ => ?_
      refine serves_bind (Upkeep.yields_tryCatch (serves_executePayout free) fun _ _ =>
        serves_handlePayoutError free) fun updated own => ?_
      exact serves_orThrow trivial fun r found => serves_payoutResponse (own r found)

/-! ## authorizePayoutBatch -/

/-- Returning the claimed legs stays within the client. -/
lemma serves_rollbackSlots {held : List PayoutRecord} (own : T.OwnPayouts held) :
    T.Serves (.promiseAll (held.map rollbackSlot)) fun l => ∀ b ∈ l, True :=
  serves_promiseAll fun c mem => ⟨updateAuthorized c.id _, _, rfl, (own c mem).free,
    fun _ _ => trivial, fun _ he => he⟩

/-- Failing the claimed legs stays within the client. -/
lemma serves_batchFailSlots {held : List PayoutRecord} {patch : PayoutPatch}
    (own : T.OwnPayouts held) :
    T.Serves (.promiseAll (held.map (batchFailSlot patch))) fun l => ∀ b ∈ l, True :=
  serves_promiseAll fun c mem => ⟨updateAuthorized c.id patch, _, rfl, (own c mem).free,
    fun _ _ => trivial, fun _ he => he⟩

/-- Recording the claimed legs stays within the client. -/
lemma serves_batchRecordSlots {held : List PayoutRecord} {exec : TransferExecution}
    {now : Timestamp} (own : T.OwnPayouts held) :
    T.Serves (.promiseAll (held.map (batchRecordSlot exec now))) fun l => ∀ o ∈ l, T.MayOwnPayout o :=
  serves_promiseAll fun c mem => ⟨updateAuthorized c.id _, _, rfl, (own c mem).free,
    fun _ own => own, fun _ he => he⟩

/-- `claimBatch` claims payouts of the client only. -/
lemma serves_claimBatch {now : Timestamp} {payouts claimed : List PayoutRecord}
    (own : T.OwnPayouts payouts) (held : T.OwnPayouts claimed) :
    T.Serves (claimBatch now payouts claimed) T.OwnPayouts := by
  induction payouts generalizing claimed with
  | nil => exact serves_pure held
  | cons payout payouts ih =>
    obtain ⟨first, rest⟩ := List.forall_mem_cons.1 own
    refine serves_bind (serves_updatePayout first.free) fun o own => ?_
    cases o with
    | none =>
      exact serves_bind (serves_rollbackSlots held) fun _ _ => serves_throw trivial
    | some authorized =>
      refine ih rest fun r mem => ?_
      rcases List.mem_append.1 mem with mem | mem
      · exact held r mem
      · exact List.mem_singleton.1 mem ▸ own authorized rfl

/-- `announceLeg` is a bystander. -/
lemma bystander_announceLeg {exec : TransferExecution} {o : Option PayoutRecord} :
    Bystander (announceLeg dto context exec o) := by
  refine Prog.uses_bind (Prog.uses_orThrow trivial) fun _ => ?_
  exact Prog.uses_bind bystander_recordAudit fun _ => bystander_announceConfirmed

/-- `executeBatch` stays within the client. -/
lemma serves_executeBatch {asset : SettlementAsset} {now : Timestamp} {claimed : List PayoutRecord}
    (held : T.OwnPayouts claimed) :
    T.Serves (executeBatch d asset now dto context claimed) fun l => ∀ o ∈ l, T.MayOwnPayout o := by
  refine serves_aside bystander_vaultPayoutBatch fun exec => ?_
  refine serves_bind (serves_batchRecordSlots held) fun updated own => ?_
  refine serves_aside (Prog.uses_forEach fun _ _ => bystander_announceLeg) fun _ => ?_
  exact serves_pure own

/-- `handleBatchError` stays within the client. -/
lemma serves_handleBatchError {claimed : List PayoutRecord} {e : Exception}
    (held : T.OwnPayouts claimed) (he : ErrorOf T.client e) :
    T.Serves (handleBatchError dto context claimed e) fun l => ∀ o ∈ l, T.MayOwnPayout o := by
  unfold handleBatchError
  dsimp only
  split
  case isTrue => exact serves_bind (serves_batchFailSlots held) fun _ _ => serves_throw he
  case isFalse =>
    refine serves_bind (serves_batchFailSlots held) fun _ _ => ?_
    refine serves_bind (serves_promiseAll (P := fun _ => True) fun c mem =>
      ⟨_, _, rfl, trivial, fun _ _ => trivial, fun _ he => he⟩) fun _ _ => ?_
    exact serves_throw trivial

/-- `settleBatch` serves the client with payouts of its own. -/
lemma serves_settleBatch {asset : SettlementAsset} {now : Timestamp} {claimed : List PayoutRecord}
    (held : T.OwnPayouts claimed) :
    T.Serves (settleBatch d asset now dto context claimed) (AllOf T.client PayoutOf) := by
  refine serves_bind (serves_promiseAll (P := fun _ => True) fun c mem =>
    ⟨_, _, rfl, trivial, fun _ _ => trivial, fun _ he => he⟩) fun _ _ => ?_
  refine serves_bind (Upkeep.yields_tryCatch (serves_executeBatch held) fun _ he =>
    serves_handleBatchError held he) fun updated own => ?_
  exact serves_payoutResponses fun r mem => own _ (List.reduceOption_mem_iff.1 mem) r rfl

/-- `authorizePayoutBatch` serves the client with payouts of its own. -/
lemma serves_authorizePayoutBatch {payoutIds : List Uuid} (mine : context.clientId = some T.client) :
    T.Serves (authorizePayoutBatch d payoutIds dto context) (AllOf T.client PayoutOf) := by
  refine serves_require trivial ?_
  split
  case h_1 => exact serves_throw trivial
  case h_2 =>
    have reads : T.Serves (.promiseAll (payoutIds.eraseDups.map (requirePayoutSlot context))) T.OwnPayouts := by
      refine serves_promiseAll fun id _ => ⟨.payoutFindById id context.clientId, _, rfl, mine,
        fun o own => ?_, fun _ he => he⟩
      cases o with
      | none => trivial
      | some r => exact (own r rfl).1
    refine serves_bind reads fun payouts own => ?_
    refine serves_orThrow trivial fun first _ => ?_
    refine serves_require trivial ?_
    refine serves_require trivial ?_
    refine serves_aside bystander_getAssetBalance fun _ => ?_
    refine serves_require trivial ?_
    refine serves_aside (bystander_request rfl) fun now => ?_
    exact serves_bind (serves_claimBatch own (List.forall_mem_nil _)) fun claimed held => serves_settleBatch held

/-! ## createPayout and reconcilePayout -/

/-- That an amount is above the cap is plain. -/
lemma plain_requireBelowCap {create : CreatePayoutDto} {assetConfig : AssetRuntimeConfig}
    {amount : Nat} : PlainResult (requireBelowCap d create assetConfig amount) := by
  unfold requireBelowCap
  split
  case h_1 => rintro _ ⟨⟩
  case h_2 =>
    split
    case h_1 =>
      rintro _ ⟨⟩
      trivial
    case h_2 =>
      split <;> rintro _ ⟨⟩
      trivial

/-- `createOrGetExisting` serves the client with a payout of its own. -/
lemma serves_createOrGetPayout (client : r.clientId = some T.client) :
    T.Serves (Payouts.createOrGetExisting r) fun p => T.OwnPayout p.1 := by
  refine serves_bind (serves_request (c := .payoutInsert r) client) fun o own => ?_
  cases o with
  | some inserted => exact serves_pure (own inserted rfl)
  | none =>
    refine serves_bind (serves_request (c := .payoutFindByExternalId r.clientId r.externalId) client)
      fun o own => ?_
    exact serves_orThrow trivial fun r found => serves_pure (own r found)

/-- `createPayout` serves the client with a payout of its own. -/
lemma serves_createPayout {create : CreatePayoutDto} (mine : context.clientId = some T.client) :
    T.Serves (createPayout d create context) (PayoutOf T.client) := by
  refine serves_compute plain_parseAmount fun _ _ => ?_
  refine serves_compute plain_requireBelowCap fun _ _ => ?_
  refine serves_aside (bystander_request rfl) fun now => ?_
  refine serves_aside (bystander_request rfl) fun id => ?_
  refine serves_bind (serves_createOrGetPayout mine) fun p own => ?_
  obtain ⟨record, existed⟩ := p
  dsimp only
  split
  case isTrue => exact serves_aside bystander_recordAudit fun _ => serves_payoutResponse own
  case isFalse =>
    refine serves_aside bystander_recordAudit fun _ => ?_
    split
    case isTrue => exact serves_authorizePayout mine
    case isFalse => exact serves_payoutResponse own

/-- `reconcilePayout` serves the client with a payout of its own. -/
lemma serves_reconcilePayout (mine : context.clientId = some T.client) :
    T.Serves (reconcilePayout d id context) (PayoutOf T.client) := by
  refine serves_bind (serves_requirePayout mine) fun payout own => ?_
  have free : FreePayout T.client T.start id := own.2 ▸ own.1.free
  refine serves_orThrow trivial fun hash _ => ?_
  refine serves_aside bystander_reconcileTransaction fun _ => ?_
  refine serves_aside (bystander_request rfl) fun now => ?_
  refine serves_bind (serves_updatePayout free) fun updated own => ?_
  refine serves_aside bystander_recordAudit fun _ => ?_
  exact serves_orThrow trivial fun r found => serves_payoutResponse (own r found)

end

end AvaSettle.Isolation.Tenant
