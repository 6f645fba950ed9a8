import AvaSettle.Async.Logic
import AvaSettle.Model.Frame
import AvaSettle.Settlements.Record

/-!
# Runs of the settlement service

The calls of the service, in any interleaving, with the operations that they use. A `record` inserts a
row, submits its commitment, stores the transaction and may delete the row again; the other calls do
none of this.
-/

namespace AvaSettle.Settlements
open Async
open Blockchain

/-! ## Calls -/

/-- The calls of the settlement service. -/
inductive Entry (d : Deployment) : Method Unit → Prop where
  | record {dto context} : Entry d (record d dto context).discard
  | list {query context} : Entry d (list query context).discard
  | get {id context} : Entry d (get id context).discard
  | reveal {id context} : Entry d (reveal d id context).discard

/-- The settlement services of a deployment. -/
abbrev settlementLedger (d : Deployment) (chain : Chain → Chain → Prop)
    (cond : Hist Api → World → Event Api → Prop) : Machine Api World :=
  machine chain (Entry d) cond

/-- The call inserts a settlement. -/
def isInsert : Call → Bool
  | .settlementInsert _ => true
  | _ => false

/-- The operation is one that only `record` uses. -/
def isRecording : Call → Bool
  | .settlementInsert _ => true
  | .settlementUpdate _ patch => patch.transactionHash.isSome
  | .settlementDelete _ => true
  | .submit _ (.recordSettlement ..) _ => true
  | _ => false

section
variable {d : Deployment} {E : Exception → Prop} {dto : CreateSettlementDto} {id : Uuid}
  {context : RequestContext}

/-- The rule of a computation: what it yields is known. -/
lemma uses_ofExcept_bind {α β : Type} {P : Call → Prop} {x : Except Exception α} {f : α → Method β}
    (rest : ∀ a, x = .ok a → (f a).Uses P fun _ => True) :
    (Prog.ofExcept (S := Api) x >>= f).Uses P fun _ => True := by
  cases x with
  | ok a => exact rest a rfl
  | error e => trivial

section
variable {P : Call → Prop} (others : ∀ c, isInsert c = false → P c)
include others

/-- Storing a settlement uses the insert and the read. -/
lemma uses_createOrGetExisting {input : PrivateSettlementRecord} (insert : P (.settlementInsert input)) :
    (createOrGetExisting input).Uses P fun _ => True := by
  refine Prog.uses_bind (Prog.uses_await insert) fun inserted => ?_
  cases inserted with
  | some record => exact Prog.uses_pure _
  | none =>
    refine Prog.uses_bind (Prog.uses_await (others _ rfl)) fun existing => ?_
    exact Prog.uses_bind (Prog.uses_orThrow trivial) fun _ => Prog.uses_pure _

/-- Reading a transaction back uses the questions for it. -/
lemma uses_toTransferExecution {hash : Hex} :
    (toTransferExecution d hash).Uses P fun _ => True := by
  unfold toTransferExecution
  split
  case isTrue => exact Prog.uses_bind (Prog.uses_await (others _ rfl)) fun _ => Prog.uses_pure _
  case isFalse => exact Prog.uses_pure _

/-- The audit uses its own insert. -/
lemma uses_recordAudit {type : AuditEventType} {actor : AuditActor}
    {payload : List (String × Json)} :
    (recordAudit type id actor payload).Uses P fun _ => True :=
  Prog.uses_await (others _ rfl)

/-- The body of the `try` uses what a recording uses. -/
lemma uses_publish {settlementRef settlementId commitment : Hex} {record : PrivateSettlementRecord} :
    (publish d context settlementRef settlementId commitment record).Uses P fun _ => True := by
  refine Prog.uses_bind ?_ fun exec => ?_
  · refine Prog.uses_bind (Prog.uses_ofExcept fun _ _ => trivial) fun registry => ?_
    refine Prog.uses_bind (Prog.uses_ofExcept fun _ _ => trivial) fun account => ?_
    exact Prog.uses_bind (Prog.uses_await (others _ rfl)) fun hash => uses_toTransferExecution others
  · refine Prog.uses_bind (Prog.uses_await (others _ rfl)) fun updated => ?_
    exact Prog.uses_bind (uses_recordAudit others) fun _ => Prog.uses_pure _

/-- What a `record` uses, where the row that it inserts is computed from the request. -/
lemma uses_record_of (insert : ∀ {id tokenAddress amountAtomic counterparty nonce settlementId commitment},
      parseAmount d dto.amount (d.getAssetConfig dto.asset).decimals = .ok amountAtomic →
      computeSettlementId d (settlementRefFromExternalId d dto.externalId) = .ok settlementId →
      P (.settlementInsert (newSettlement dto context id tokenAddress amountAtomic counterparty nonce
        (settlementRefFromExternalId d dto.externalId) settlementId commitment))) :
    (record d dto context).Uses P fun _ => True := by
  refine Prog.uses_bind (Prog.uses_require fun _ => trivial) fun _ => ?_
  refine Prog.uses_bind (Prog.uses_orThrow trivial) fun tokenAddress => ?_
  refine uses_ofExcept_bind fun amountAtomic parsed => uses_ofExcept_bind fun counterparty _ => ?_
  refine Prog.uses_bind (Prog.uses_await (others _ rfl)) fun nonce => ?_
  refine uses_ofExcept_bind fun settlementId eq => uses_ofExcept_bind fun commitment _ => ?_
  refine Prog.uses_bind (Prog.uses_await (others _ rfl)) fun id => ?_
  refine Prog.uses_bind (uses_createOrGetExisting others (insert parsed eq)) fun p => ?_
  obtain ⟨record, existed⟩ := p
  cases existed with
  | true => exact Prog.uses_pure _
  | false =>
    refine Prog.uses_tryCatch (uses_publish others) fun error _ => ?_
    exact Prog.uses_bind (Prog.uses_await (others _ rfl)) fun _ => Prog.uses_throw trivial

end

/-- Reading a row is no recording. -/
lemma uses_requireRecord {P : Call → Prop} (others : ∀ c, isRecording c = false → P c) :
    (requireRecord id context).Uses P fun _ => True :=
  Prog.uses_bind (Prog.uses_await (others _ rfl)) fun _ => Prog.uses_orThrow trivial

/-- A reveal is no recording. -/
lemma uses_reveal {P : Call → Prop} (others : ∀ c, isRecording c = false → P c) :
    (reveal d id context).Uses P fun _ => True := by
  refine Prog.uses_bind (uses_requireRecord others) fun record => ?_
  split
  case isTrue => exact Prog.uses_pure _
  case isFalse =>
    refine Prog.uses_bind ?_ fun exec => ?_
    · refine Prog.uses_bind (Prog.uses_ofExcept fun _ _ => trivial) fun registry => ?_
      refine Prog.uses_bind (Prog.uses_ofExcept fun _ _ => trivial) fun account => ?_
      refine Prog.uses_bind (Prog.uses_await (others _ rfl)) fun hash => ?_
      unfold toTransferExecution
      split
      case isTrue => exact Prog.uses_bind (Prog.uses_await (others _ rfl)) fun _ => Prog.uses_pure _
      case isFalse => exact Prog.uses_pure _
    · refine Prog.uses_bind (Prog.uses_await (others _ rfl)) fun updated => ?_
      exact Prog.uses_bind (Prog.uses_await (others _ rfl)) fun _ => Prog.uses_pure _

end

/-- Only `record` records. -/
lemma records_of_entry {d : Deployment} {p : Method Unit} (entry : Entry d p) :
    (∃ dto context, p = (record d dto context).discard) ∨
      p.Uses (fun c => isRecording c = false) fun _ => True := by
  cases entry with
  | record => exact .inl ⟨_, _, rfl⟩
  | list =>
    refine .inr (Prog.uses_bind ?_ fun _ => Prog.uses_pure _)
    exact Prog.uses_bind (Prog.uses_await rfl) fun _ => Prog.uses_pure _
  | get =>
    refine .inr (Prog.uses_bind ?_ fun _ => Prog.uses_pure _)
    exact Prog.uses_bind (uses_requireRecord fun _ other => other) fun _ => Prog.uses_pure _
  | reveal =>
    exact .inr (Prog.uses_bind (uses_reveal fun _ other => other) fun _ => Prog.uses_pure _)

end AvaSettle.Settlements
