import AvaSettle.Contracts.Arguments
import AvaSettle.Contracts.PrivateSettlementRegistryRuns
import AvaSettle.Model.Frame
import AvaSettle.Settlements.Record

/-!
# What a revealed row means

`reveal` sends the preimage of a row to the registry, waits for the receipt and marks the row as
revealed, whatever the receipt says. So the row agrees with the registry just when the registry
accepts the preimage, or has it already.
-/

namespace AvaSettle.Settlements.Disclosure
open Async
open Blockchain
open Evm (Word Account Transaction)
open Contracts (OpenZeppelin)
open Contracts.PrivateSettlementRegistry (Preimage Discloses abi contract guarantee stays_of_moves
  revealed_transact)
open Data (Table)

/-- The preimage of a row, as the registry sees it. -/
def preimageOf (r : PrivateSettlementRecord) : Preimage :=
  ⟨.ofNat 256 r.amountAtomic, addressOf r.tokenAddress, addressOf r.counterparty, wordOf r.nonce⟩

section
variable {oz : OpenZeppelin} (time : Nat)

/-- The transaction at the registry that reveals a row. -/
def revealTransaction (account settlementId : Hex) (p : Preimage) : Transaction (abi oz) :=
  ⟨⟨addressOf account, time, .revealForAudit (wordOf settlementId) p⟩, 0, []⟩

/-- The transaction that an event submits to reveal a row. -/
def reveals : Event Api → Option (Transaction (abi oz))
  | ⟨.submit account (.revealForAudit _ settlementId amount asset counterparty nonce) _, o⟩ =>
    o.performed.map fun _ => revealTransaction time account settlementId
      ⟨.ofNat 256 amount, addressOf asset, addressOf counterparty, wordOf nonce⟩
  | _ => none

/-- The registry once the transactions of a call have been mined. -/
def mined (keccak256 : List Word → Word) (h : Hist Api) (v : Account (abi oz)) : Account (abi oz) :=
  Evm.run (contract keccak256) v (h.filterMap (reveals time))

end

/-- The row says revealed only if the registry does. -/
def Agrees {oz : OpenZeppelin} (w : World) (id : Uuid) (v : Account (abi oz)) : Prop :=
  ∀ r, w.settlements.find? id = some r → r.status = .revealed →
    (v.storage.records (wordOf r.settlementId)).status = .revealed

/-- The other calls leave the row alone. -/
def LeavesRow (id : Uuid) (_ : Hist Api) (w w' : World) : Prop :=
  w'.settlements.find? id = w.settlements.find? id

/-- The auditor of the deployment may reveal the row, and the registry has its commitment. -/
def Accepted {oz : OpenZeppelin} (d : Deployment) (keccak256 : List Word → Word)
    (v : Account (abi oz)) (r : PrivateSettlementRecord) : Prop :=
  ∃ auditor, requireAuditorAccount d = .ok auditor ∧
    Discloses keccak256 v.storage (addressOf auditor) (wordOf r.settlementId) (preimageOf r)

section
variable {oz : OpenZeppelin} {time : Nat} {d : Deployment} {id : Uuid} {context : RequestContext}
  {w w' : World} {h : Hist Api} {r : PrivateSettlementRecord} {ts : List (Transaction (abi oz))}

/-- The row of the call, and what the call has submitted. -/
structure At (time : Nat) (id : Uuid) (r : PrivateSettlementRecord) (ts : List (Transaction (abi oz)))
    (w : World) (h : Hist Api) : Prop where
  found : w.settlements.find? id = some r
  submitted : h.filterMap (reveals time) = ts

/-- What a call leaves that returns: a revealed row, and a reveal unless the row was revealed. -/
def Finished (time : Nat) (d : Deployment) (id : Uuid) (r : PrivateSettlementRecord) (oz : OpenZeppelin) :
    End Api World PrivateSettlementResponse
  | .error _, _, _ => True
  | .ok _, w, h => ∃ r', r'.status = .revealed ∧ r'.settlementId = r.settlementId ∧
      ((r.status = .revealed ∧ @At oz time id r' [] w h) ∨
        (r.status ≠ .revealed ∧ ∃ auditor, requireAuditorAccount d = .ok auditor ∧
          @At oz time id r' [revealTransaction time auditor r.settlementId (preimageOf r)] w h))

/-- An operation that neither writes settlements nor reveals one. -/
lemma leads_at {op : Call} {K : Outcome Exception op.Res → World → Hist Api → Prop}
    (writes : op.writes ≠ some .settlements) (silent : ∀ o, @reveals oz time ⟨op, o⟩ = none)
    (here : At time id r ts w h)
    (post : ∀ w₁ o w₂, w₁.settlements.find? id = some r → services.Reply op w₁ o w₂ →
      At time id r ts w₂ (h ++ [⟨op, o⟩]) → K o w₂ (h ++ [⟨op, o⟩])) :
    services.Leads (LeavesRow id) op K w h := by
  intro w₁ o w₂ move reply _
  have found : w₁.settlements.find? id = some r := move.trans here.found
  refine post w₁ o w₂ found reply ⟨?_, ?_⟩
  · cases o with
    | done b => rw [(World.exec_frame reply).settlements writes, found]
    | refused e => exact reply.2 ▸ found
    | lost b e => rw [(World.exec_frame reply.1).settlements writes, found]
  · rw [List.filterMap_append, List.filterMap_cons_none (silent o), List.filterMap_nil,
      List.append_nil]
    exact here.submitted

/-- The row is read, or the call ends. -/
lemma wp_requireRecord {Q : End Api World PrivateSettlementRecord} (here : At time id r ts w h)
    (ok : ∀ w h, At time id r ts w h → Q (.ok r) w h) (error : ∀ e w h, Q (.error e) w h) :
    services.wp (LeavesRow id) (requireRecord id context) Q w h := by
  have silent (o) : @reveals oz time ⟨.settlementFindById id context.clientId, o⟩ = none := rfl
  refine Machine.wp_bind (Machine.wp_await (leads_at nofun silent here
    fun w₁ o w₂ found reply here' => ?_))
  cases o with
  | refused e => exact error ..
  | lost b e => exact error ..
  | done b =>
    refine Machine.wp_orThrow (fun r' eq => ?_) fun _ => error ..
    subst eq
    obtain ⟨seen, -⟩ := Prod.mk.inj (Option.some.inj reply)
    obtain ⟨found', -⟩ := Option.filter_eq_some_iff.1 seen
    obtain rfl : r = r' := Option.some.inj (found.symm.trans found')
    exact ok _ _ here'

/-- The submission and the wait for its receipt, whatever the receipt says. -/
lemma wp_revealPrivateSettlement {Q : End Api World TransferExecution}
    (here : @At oz time id r [] w h)
    (ok : ∀ auditor exec w h, requireAuditorAccount d = .ok auditor →
      @At oz time id r [revealTransaction time auditor r.settlementId (preimageOf r)] w h →
        Q (.ok exec) w h) (error : ∀ e w h, Q (.error e) w h) :
    services.wp (LeavesRow id) (revealPrivateSettlement d r.settlementId r.amountAtomic r.tokenAddress
      r.counterparty r.nonce) Q w h := by
  refine Machine.wp_bind (Machine.wp_ofExcept.2 ?_)
  cases requireRegistryAddress d with
  | error e => exact error ..
  | ok registry =>
    refine Machine.wp_bind (Machine.wp_ofExcept.2 ?_)
    cases account : requireAuditorAccount d with
    | error e => exact error ..
    | ok auditor =>
      refine Machine.wp_bind (Machine.wp_await fun w₁ o w₂ move reply _ => ?_)
      cases o with
      | refused e => exact error ..
      | lost b e => exact error ..
      | done hash =>
        have found : w₂.settlements.find? id = some r := by
          cases reply
          exact move.trans here.found
        have here' : @At oz time id r
            [revealTransaction time auditor r.settlementId (preimageOf r)] w₂
            (h ++ [⟨.submit auditor (.revealForAudit registry r.settlementId r.amountAtomic
              r.tokenAddress r.counterparty r.nonce) [], .done hash⟩]) := by
          refine ⟨found, ?_⟩
          rw [List.filterMap_append, here.submitted]
          rfl
        change services.wp _ (toTransferExecution d hash) Q _ _
        unfold toTransferExecution
        split
        case isFalse => exact ok _ _ _ _ account here'
        case isTrue =>
          have silent (o) : @reveals oz time ⟨.waitForTransactionReceipt hash, o⟩ = none := rfl
          refine Machine.wp_bind (Machine.wp_await (leads_at nofun silent here'
            fun w₁ o w₂ found reply here' => ?_))
          cases o with
          | refused e => exact error ..
          | lost b e => exact error ..
          | done receipt => exact ok _ _ _ _ account here'

/-- The update that marks the row as revealed. -/
lemma leads_reveal {hash : Hex} {K : Outcome Exception (Option PrivateSettlementRecord) → World →
      Hist Api → Prop} (here : At time id r ts w h)
    (done : ∀ b r' w h, r'.status = .revealed → r'.settlementId = r.settlementId →
      At time id r' ts w h → K (.done b) w h)
    (error : ∀ o w h, o.threw = true → K o w h) :
    services.Leads (LeavesRow id) (.settlementUpdate id
      { status := some .revealed, revealTransactionHash := some (some hash) }) K w h := by
  intro w₁ o w₂ move reply _
  cases o with
  | refused e => exact error _ _ _ rfl
  | lost b e => exact error _ _ _ rfl
  | done b =>
    have found : w₁.settlements.find? id = some r := move.trans here.found
    obtain ⟨-, rfl⟩ := Prod.mk.inj (Option.some.inj reply)
    let r' : PrivateSettlementRecord := { r with
      status := .revealed
      revealTransactionHash := some hash
      updatedAt := w₁.now }
    refine done b r' _ _ rfl rfl ⟨?_, ?_⟩
    · change (w₁.settlements.update _ _ _).2.find? id = _
      rw [Table.find?_update, found]
      simp [r', PrivateSettlementPatch.toPatch, PrivateSettlementPatch.applyTo]
    · rw [List.filterMap_append, here.submitted]
      exact List.append_nil _

/-- A reveal that returns has revealed its row on the registry, or found it revealed. -/
lemma wp_reveal (here : @At oz time id r [] w h) :
    services.wp (LeavesRow id) (reveal d id context) (Finished time d id r oz) w h := by
  refine Machine.wp_bind (wp_requireRecord here (fun w h here => ?_) fun _ _ _ => trivial)
  dsimp only
  split
  case isTrue revealed => exact ⟨r, revealed, rfl, .inl ⟨revealed, here⟩⟩
  case isFalse unrevealed =>
    refine Machine.wp_bind (wp_revealPrivateSettlement here (fun auditor exec w h account here => ?_)
      fun _ _ _ => trivial)
    refine Machine.wp_bind (Machine.wp_await (leads_reveal here (fun b r' w h revealed same here => ?_)
      fun o w h threw => ?_))
    · have silent (o) : @reveals oz time ⟨.auditInsert ⟨.privateSettlementRevealed, id,
          toAuditActor context, .obj [("settlementId", .str r.settlementId),
            ("transactionHash", .str exec.hash)]⟩, o⟩ = none := rfl
      refine Machine.wp_bind (Machine.wp_await (leads_at nofun silent here
        fun w₁ o w₂ _ _ here => ?_))
      cases o with
      | refused e => trivial
      | lost b e => trivial
      | done b => exact ⟨r', revealed, same, .inr ⟨unrevealed, auditor, account, here⟩⟩
    · cases o with
      | refused e => trivial
      | lost b e => trivial
      | done b => cases threw

/-- When `reveal` has returned, the row agrees with the registry from then on, whatever happens there
    afterwards, just when the registry had the record revealed before, or the row was not revealed yet
    and the registry accepts its preimage. -/
theorem agrees_iff {keccak256 : List Word → Word} {response : PrivateSettlementResponse}
    {v : Account (abi oz)} (found : w.settlements.find? id = some r)
    (run : services.Runs (LeavesRow id) (reveal d id context) w [] (.ok response) w' h) :
    (∀ ts, Agrees w' id (Evm.run (contract keccak256) (mined time keccak256 h v) ts)) ↔
      (v.storage.records (wordOf r.settlementId)).status = .revealed ∨
        (r.status ≠ .revealed ∧ Accepted d keccak256 v r) := by
  obtain ⟨r', revealed, same, outcome⟩ := Machine.wp_sound (Q := Finished time d id r oz) run
    (wp_reveal ⟨found, rfl⟩)
  have stays {v' : Account (abi oz)} (onChain : (v'.storage.records (wordOf r.settlementId)).status =
      .revealed) (row : w'.settlements.find? id = some r') (ts) :
      Agrees w' id (Evm.run (contract keccak256) v' ts) := by
    rintro r'' found' -
    obtain rfl : r' = r'' := Option.some.inj (row.symm.trans found')
    rw [same]
    exact (stays_of_moves ((guarantee.run v' ts).moves _) (by rw [onChain]; nofun)).revealed onChain
  rcases outcome with ⟨before, here⟩ | ⟨before, auditor, account, here⟩
  · have same' : mined time keccak256 h v = v := by rw [mined, here.submitted]; rfl
    rw [same', or_iff_left fun accepted => accepted.1 before]
    exact ⟨fun agrees => same ▸ agrees [] r' here.found revealed, fun onChain => stays onChain here.found⟩
  · have step : ((Evm.transact (contract keccak256) v (revealTransaction time auditor
          r.settlementId (preimageOf r))).storage.records (wordOf r.settlementId)).status =
          .revealed ↔ (v.storage.records (wordOf r.settlementId)).status = .revealed ∨
            Discloses keccak256 v.storage (addressOf auditor) (wordOf r.settlementId)
              (preimageOf r) := revealed_transact rfl
    have after : mined time keccak256 h v = Evm.transact (contract keccak256) v
        (revealTransaction time auditor r.settlementId (preimageOf r)) := by
      rw [mined, here.submitted]
      rfl
    have accepted : Accepted d keccak256 v r ↔ Discloses keccak256 v.storage (addressOf auditor)
        (wordOf r.settlementId) (preimageOf r) := by
      simp [Accepted, account]
    rw [after, accepted, and_iff_right before]
    refine ⟨fun agrees => step.1 (same ▸ agrees [] r' here.found revealed), fun onChain =>
      stays (step.2 onChain) here.found⟩

end

/-! ## Concrete reveals -/

/-- A deployment with a registry and an auditor. -/
def auditedDeployment : Deployment :=
  { registryDeployment with
    settlementAuditorPrivateKey :=
      some "0x0000000000000000000000000000000000000000000000000000000000000001" }

/-- The row of the concrete settlement. -/
def sampleRow : PrivateSettlementRecord :=
  newSettlement sampleSettlement .sample World.sampleId sampleToken 1000000 sampleAddress sampleNonce
    sampleRef "0xf00aca4d88fe6f971f62b2d78362425c3cbe08c485bc019d42f3decb4815e856" sampleCommitment

/-- A ledger with this row, and a chain on which transactions end so. -/
def revealWorld (status : ReceiptStatus) : World :=
  { World.sample with
    settlements := ⟨[sampleRow], List.nodup_singleton _⟩
    chain := { World.sampleChain with receipts := fun _ => some ⟨status, 1⟩ } }

/-- A registry in which everybody is an auditor, with a record for every id. -/
def sampleRegistry (r : Contracts.PrivateSettlementRegistry.Record) : Account (abi .standard) :=
  ⟨⟨⟨1, 0, false, false⟩, fun _ => false, fun _ => true, fun _ => r⟩, []⟩

/-- The call that reveals the row returns. -/
lemma exists_reveal (status : ReceiptStatus) (p : World → Hist Api → Bool)
    (res : ((services.play Machine.always (reveal auditedDeployment World.sampleId .sample)
      (.replicate 5 .done) (revealWorld status) []).any fun q => q.1.toBool && p q.2.1 q.2.2) = true) :
    ∃ response w' h, services.Runs (LeavesRow World.sampleId)
      (reveal auditedDeployment World.sampleId .sample) (revealWorld status) [] (.ok response) w' h ∧
        p w' h = true := by
  obtain ⟨⟨r, w', h⟩, played, holds⟩ := (Option.any_eq_true _ _).1 res
  obtain ⟨returned, holds⟩ := Bool.and_eq_true_iff.1 holds
  cases r with
  | error e => cases returned
  | ok response =>
    exact ⟨response, w', h, Machine.runs_of_play (fun _ _ _ _ => trivial) (fun _ _ => rfl) played, holds⟩

/-- A reveal that the registry accepts. -/
theorem agrees_of_accepted : ∃ response w' h, services.Runs (LeavesRow World.sampleId)
    (reveal auditedDeployment World.sampleId .sample) (revealWorld .success) [] (.ok response) w' h ∧
      ∀ ts, Agrees w' World.sampleId (Evm.run (contract fun _ => 5)
        (mined 0 (fun _ => 5) h (sampleRegistry ⟨5, .recorded, 0, 1⟩)) ts) := by
  obtain ⟨response, w', h, run, -⟩ := exists_reveal .success (fun _ _ => true) (by decide)
  have found : (revealWorld .success).settlements.find? World.sampleId = some sampleRow := rfl
  exact ⟨response, w', h, run, (agrees_iff found run).2 (.inr ⟨nofun, _, rfl, rfl, nofun, rfl⟩)⟩

/-- The row is revealed, and the registry has no record for it. -/
def disagrees (w : World) (h : Hist Api) : Bool :=
  (w.settlements.find? World.sampleId).any fun r => decide (r.status = .revealed) &&
    decide (((mined 0 (fun _ => 5) h (sampleRegistry .empty)).storage.records
      (wordOf r.settlementId)).status ≠ .revealed)

/-- A reveal that the registry reverts, since it has no such record: the row says revealed. -/
theorem disagrees_of_reverted : ∃ response w' h, services.Runs (LeavesRow World.sampleId)
    (reveal auditedDeployment World.sampleId .sample) (revealWorld .reverted) [] (.ok response) w' h ∧
      auditedDeployment.waitForReceipt = true ∧
        ¬Agrees w' World.sampleId (mined 0 (fun _ => 5) h (sampleRegistry .empty)) := by
  obtain ⟨response, w', h, run, differs⟩ := exists_reveal .reverted disagrees (by decide +kernel)
  refine ⟨response, w', h, run, rfl, fun agrees => ?_⟩
  obtain ⟨r, found, differs⟩ := (Option.any_eq_true _ _).1 differs
  obtain ⟨revealed, differs⟩ := Bool.and_eq_true_iff.1 differs
  exact of_decide_eq_true differs (agrees r found (of_decide_eq_true revealed))

end AvaSettle.Settlements.Disclosure
