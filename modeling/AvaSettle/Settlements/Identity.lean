import Mathlib.Algebra.Order.Group.Multiset
import AvaSettle.Contracts.Arguments
import AvaSettle.Contracts.PrivateSettlementRegistryRuns
import AvaSettle.Settlements.Runs

/-!
# The identity of a settlement on the registry

The registry tells settlements apart by the hash of a reference, and the service takes the hash of the
external id as the reference. The ledger keeps external ids distinct within a client only. So rows of
different clients, or of none, share a settlement id just when they share an external id, and only the
first of them can be recorded on the chain.

Where every row comes with an external id of its own, what is submitted under a reference is the
commitment of the row that has it. A row belongs to the call that has inserted it until that call is
over, so nobody else can put another row in its place before its commitment is submitted.
-/

namespace AvaSettle.Settlements.Identity
open Async
open Blockchain
open Evm (Word)
open Contracts (OpenZeppelin)
open Contracts.PrivateSettlementRegistry (abi construct contract recordSettlement recorded_by_transaction)
open Data (Table)

/-! ## Rows and submissions -/

/-- The ids of a row, in the ledger and on the registry, and its commitment. -/
structure RowIds where
  id : Uuid
  externalId : String
  settlementRef : Hex
  settlementId : Hex
  commitment : Hex

/-- The ids of a row. -/
def rowIdsOf (r : PrivateSettlementRecord) : RowIds :=
  ⟨r.id, r.externalId, r.settlementRef, r.settlementId, r.commitment⟩

/-- The ids of the rows of the ledger. -/
def rowIds (w : World) : List RowIds := w.settlements.rows.map rowIdsOf

/-- The reference and the commitment that a transaction records. -/
def recordedBy : Tx → Option (Hex × Hex)
  | .recordSettlement _ settlementRef commitment _ => some (settlementRef, commitment)
  | _ => none

/-- The references and commitments that have been submitted. -/
def published (w : World) : List (Hex × Hex) := w.submissions.filterMap fun s => recordedBy s.tx

/-- A row is inserted only under one of these external ids, where the ledger has no row with it, of any
    client, and no commitment has been submitted under it. -/
def Unshared (d : Deployment) (externalIds : List String) (_ : Hist Api) (w : World) : Event Api → Prop
  | ⟨.settlementInsert r, o⟩ => ∀ row, o.performed = some (some row) →
      r.externalId ∈ externalIds ∧ r.externalId ∉ w.settlements.rows.map (·.externalId) ∧
        settlementRefFromExternalId d r.externalId ∉ (published w).map Prod.fst
  | _ => True

/-- The service hashes the references of these external ids as the registry does. -/
def Hashes (d : Deployment) (keccak256 : List Word → Word) (externalIds : List String) : Prop :=
  ∀ e ∈ externalIds, ∀ id, computeSettlementId d (settlementRefFromExternalId d e) = .ok id →
    wordOf id = keccak256 [wordOf (settlementRefFromExternalId d e)]

/-- The hashes do not collide on these external ids: neither the references nor the ids. -/
structure CollisionFree (d : Deployment) (keccak256 : List Word → Word)
    (externalIds : List String) : Prop where
  refs : ∀ e ∈ externalIds, ∀ e' ∈ externalIds, wordOf (settlementRefFromExternalId d e) =
    wordOf (settlementRefFromExternalId d e') → e = e'
  ids : ∀ e ∈ externalIds, ∀ e' ∈ externalIds, keccak256 [wordOf (settlementRefFromExternalId d e)] =
    keccak256 [wordOf (settlementRefFromExternalId d e')] →
      wordOf (settlementRefFromExternalId d e) = wordOf (settlementRefFromExternalId d e')

/-! ## The invariant -/

/-- The ids of the row are those of its external id. -/
structure Derived (d : Deployment) (i : RowIds) : Prop where
  settlementRef : i.settlementRef = settlementRefFromExternalId d i.externalId
  settlementId : computeSettlementId d i.settlementRef = .ok i.settlementId

/-- The rows that calls have inserted and may take back, and whether their commitment is still to be
    submitted. -/
abbrev Shares := Multiset (RowIds × Bool)

/-- The invariant: rows have external ids of their own, a row stays while a call holds it, nothing is
    submitted under its reference before its commitment is, and what is submitted under the reference
    of a row is its commitment. -/
structure Apart (d : Deployment) (externalIds : List String) (rows : List RowIds)
    (sent : List (Hex × Hex)) (held : Shares) : Prop where
  known : ∀ i ∈ rows, i.externalId ∈ externalIds
  derived : ∀ i ∈ rows, Derived d i
  nodup : (rows.map RowIds.externalId).Nodup
  distinct : (held.map fun p => p.1.id).Nodup
  kept : ∀ p ∈ held, p.1 ∈ rows
  unsent : ∀ p ∈ held, p.2 = true → p.1.settlementRef ∉ sent.map Prod.fst
  refs : ∀ q ∈ sent, ∃ e ∈ externalIds, q.1 = settlementRefFromExternalId d e
  own : ∀ q ∈ sent, ∀ i ∈ rows, i.settlementRef = q.1 → i.commitment = q.2

namespace Apart
variable {d : Deployment} {keccak256 : List Word → Word} {externalIds : List String}
  {rows : List RowIds} {sent : List (Hex × Hex)} {held : Shares} {i i' : RowIds} {b : Bool}

/-- Rows with one external id are one row. -/
lemma eq_of_externalId (apart : Apart d externalIds rows sent held) (mem : i ∈ rows)
    (mem' : i' ∈ rows) (same : i.externalId = i'.externalId) : i = i' :=
  List.inj_on_of_nodup_map apart.nodup mem mem' same

/-- The row of a share has an id of its own among the shares. -/
lemma ne_of_mem {p : RowIds × Bool} (apart : Apart d externalIds rows sent ((i, b) ::ₘ held))
    (mem : p ∈ held) : p.1.id ≠ i.id := by
  have distinct := apart.distinct
  rw [Multiset.map_cons, Multiset.nodup_cons] at distinct
  intro eq
  exact distinct.1 (eq ▸ Multiset.mem_map_of_mem _ mem)

/-- A share may be dropped. -/
lemma drop {p : RowIds × Bool} (apart : Apart d externalIds rows sent (p ::ₘ held)) :
    Apart d externalIds rows sent held where
  known := apart.known
  derived := apart.derived
  nodup := apart.nodup
  distinct := by
    have distinct := apart.distinct
    rw [Multiset.map_cons, Multiset.nodup_cons] at distinct
    exact distinct.2
  kept p mem := apart.kept p (Multiset.mem_cons_of_mem mem)
  unsent p mem := apart.unsent p (Multiset.mem_cons_of_mem mem)
  refs := apart.refs
  own := apart.own

/-- A row is inserted, under an external id that nothing is known of. -/
lemma insert (apart : Apart d externalIds rows sent held) (known : i.externalId ∈ externalIds)
    (derived : Derived d i) (fresh : i.id ∉ rows.map RowIds.id)
    (new : i.externalId ∉ rows.map RowIds.externalId)
    (unsent : i.settlementRef ∉ sent.map Prod.fst) :
    Apart d externalIds (rows ++ [i]) sent ((i, true) ::ₘ held) := by
  constructor
  · intro i' mem
    rcases List.mem_append.1 mem with mem | mem
    · exact apart.known i' mem
    · exact List.mem_singleton.1 mem ▸ known
  · intro i' mem
    rcases List.mem_append.1 mem with mem | mem
    · exact apart.derived i' mem
    · exact List.mem_singleton.1 mem ▸ derived
  · rw [List.map_append]
    exact List.nodup_append_comm.1 (List.nodup_cons.2 ⟨new, apart.nodup⟩)
  · rw [Multiset.map_cons, Multiset.nodup_cons]
    refine ⟨fun mem => ?_, apart.distinct⟩
    obtain ⟨p, mem, eq⟩ := Multiset.mem_map.1 mem
    exact fresh (eq ▸ List.mem_map_of_mem (apart.kept p mem))
  · intro p mem
    rcases Multiset.mem_cons.1 mem with rfl | mem
    · exact List.mem_append_right _ (List.mem_singleton_self _)
    · exact List.mem_append_left _ (apart.kept p mem)
  · intro p mem
    rcases Multiset.mem_cons.1 mem with rfl | mem
    · exact fun _ => unsent
    · exact apart.unsent p mem
  · exact apart.refs
  · intro q mem i' mem' same
    rcases List.mem_append.1 mem' with mem' | mem'
    · exact apart.own q mem i' mem' same
    · obtain rfl := List.mem_singleton.1 mem'
      exact absurd (same ▸ List.mem_map_of_mem mem) unsent

/-- The commitment of a row is submitted by the call that holds the row. -/
lemma submit (free : CollisionFree d keccak256 externalIds)
    (apart : Apart d externalIds rows sent ((i, true) ::ₘ held)) :
    Apart d externalIds rows (sent ++ [(i.settlementRef, i.commitment)]) ((i, false) ::ₘ held) := by
  have row : i ∈ rows := apart.kept (i, true) (Multiset.mem_cons_self _ _)
  -- a row with the reference is this row
  have only {i' : RowIds} (mem : i' ∈ rows) (same : i'.settlementRef = i.settlementRef) : i' = i := by
    apply apart.eq_of_externalId mem row
    apply free.refs _ (apart.known i' mem) _ (apart.known i row)
    rw [← (apart.derived i' mem).settlementRef, ← (apart.derived i row).settlementRef, same]
  constructor
  · exact apart.known
  · exact apart.derived
  · exact apart.nodup
  · simpa using apart.distinct
  · intro p mem
    rcases Multiset.mem_cons.1 mem with rfl | mem
    · exact row
    · exact apart.kept p (Multiset.mem_cons_of_mem mem)
  · intro p mem unsent sent'
    rcases Multiset.mem_cons.1 mem with rfl | mem
    · cases unsent
    · rw [List.map_append] at sent'
      rcases List.mem_append.1 sent' with sent' | sent'
      · exact apart.unsent p (Multiset.mem_cons_of_mem mem) unsent sent'
      · have same := only (apart.kept p (Multiset.mem_cons_of_mem mem)) (List.mem_singleton.1 sent')
        exact apart.ne_of_mem mem (congrArg RowIds.id same)
  · intro q mem
    rcases List.mem_append.1 mem with mem | mem
    · exact apart.refs q mem
    · obtain rfl := List.mem_singleton.1 mem
      exact ⟨i.externalId, apart.known i row, (apart.derived i row).settlementRef⟩
  · intro q mem i' mem' same
    rcases List.mem_append.1 mem with mem | mem
    · exact apart.own q mem i' mem' same
    · obtain rfl := List.mem_singleton.1 mem
      rw [only mem' same]

/-- A row is taken back by the call that holds it. -/
lemma erase (apart : Apart d externalIds rows sent ((i, b) ::ₘ held)) :
    Apart d externalIds (rows.filter fun i' => !decide (i'.id = i.id)) sent held := by
  have rest := apart.drop
  have sub {i' : RowIds} (mem : i' ∈ rows.filter fun i' => !decide (i'.id = i.id)) : i' ∈ rows :=
    List.mem_of_mem_filter mem
  constructor
  · exact fun i' mem => rest.known i' (sub mem)
  · exact fun i' mem => rest.derived i' (sub mem)
  · exact rest.nodup.sublist (List.filter_sublist.map _)
  · exact rest.distinct
  · intro p mem
    apply List.mem_filter.2 ⟨rest.kept p mem, ?_⟩
    simpa using apart.ne_of_mem mem
  · exact rest.unsent
  · exact rest.refs
  · exact fun q mem i' mem' => rest.own q mem i' (sub mem')

end Apart

/-! ## Operations -/

/-- The operation leaves the ids of rows alone and submits no commitment. -/
def Leaves : Call → Prop
  | .settlementInsert _ => False
  | .settlementDelete _ => False
  | .submit _ tx _ => recordedBy tx = none
  | _ => True

/-- Only a recording inserts rows or submits commitments. -/
lemma leaves_of_not_recording (c : Call) (other : isRecording c = false) : Leaves c := by
  cases c with
  | settlementInsert => cases other
  | settlementDelete => cases other
  | submit _ tx _ =>
    cases tx with
    | recordSettlement => cases other
    | _ => rfl
  | _ => trivial

section
variable {d : Deployment} {chain : Chain → Chain → Prop} {keccak256 : List Word → Word}
  {externalIds : List String} {a : Shares} {w w' : World} {h : Hist Api} {i : RowIds} {α : Type}

/-- Neither a patch nor any other such operation touches the ids of a row. -/
lemma same_exec {c : Call} {b : c.Res} (leaves : Leaves c) (run : World.exec c w = some (b, w')) :
    rowIds w' = rowIds w ∧ published w' = published w := by
  constructor
  · by_cases writes : c.writes = some .settlements
    · cases c
      case settlementInsert => exact leaves.elim
      case settlementDelete => exact leaves.elim
      case settlementUpdate id patch =>
        cases run
        change (w.settlements.rows.map _).map rowIdsOf = w.settlements.rows.map rowIdsOf
        rw [List.map_map]
        apply List.map_congr_left
        intro r _
        unfold Data.Patch.applyIf Function.comp
        dsimp only
        split
        case isTrue => rfl
        case isFalse => rfl
      all_goals cases writes
    · rw [rowIds, (World.exec_frame run).settlements writes, rowIds]
  · by_cases writes : c.writes = some .submissions
    · cases c
      case submit account tx payouts =>
        cases run
        have quiet : recordedBy tx = none := leaves
        simp [published, quiet]
      all_goals cases writes
    · rw [published, (World.exec_frame run).submissions writes, published]

/-- What is maintained of the settlement services. -/
def spec (d : Deployment) (chain : Chain → Chain → Prop) (externalIds : List String) :
    Spec (settlementLedger d chain (Unshared d externalIds)) Shares where
  inv w a := Apart d externalIds (rowIds w) (published w) a
  le _ _ := True
  good _ := True
  good_nil := trivial
  le_refl _ := trivial
  le_trans _ _ := trivial
  env {w w' a} apart move := by
    have rows : rowIds w' = rowIds w := by rw [rowIds, move.settlements, rowIds]
    have sent : published w' = published w := by rw [published, move.submissions, published]
    exact ⟨rows ▸ sent ▸ apart, trivial⟩

/-- An operation that leaves the ids alone leaves the share of the call. -/
lemma op_leaves {o : Call} (leaves : Leaves o) :
    (spec d chain externalIds).op o (fun _ a' _ _ => a' = a) a w h := by
  intro w₁ f r w₂ _ apart reply _
  have after : Apart d externalIds (rowIds w₂) (published w₂) (a + f) := by
    cases r with
    | done b =>
      obtain ⟨rows, sent⟩ := same_exec leaves reply
      exact rows.symm ▸ sent.symm ▸ apart
    | refused e => exact reply.2 ▸ apart
    | lost b e =>
      obtain ⟨rows, sent⟩ := same_exec leaves reply.1
      exact rows.symm ▸ sent.symm ▸ apart
  exact ⟨trivial, a, after, trivial, rfl⟩

/-- An operation that leaves the ids alone, in a program. -/
lemma wp_leaves {o : Call} (leaves : Leaves o) {f : o.Res → Method α} {Q : Post Api World Shares α}
    (error : ∀ e w h, Q (.error e) a w h)
    (next : ∀ b w h, (spec d chain externalIds).wp (f b) Q a w h) :
    (spec d chain externalIds).wp (request o >>= f) Q a w h := by
  apply Spec.wp_bind
  apply Spec.wp_await
  apply Spec.op_mono ?_ (op_leaves leaves)
  intro r a' w h same
  subst same
  cases r.answer with
  | ok b => exact next b w h
  | error e => exact error e w h

/-- A program of such operations. -/
lemma wp_of_leaves {p : Method α} (uses : p.Uses Leaves fun _ => True) :
    (spec d chain externalIds).wp p Spec.triv 0 w h := by
  apply Spec.wp_mono (fun _ _ _ _ _ => trivial)
  apply Spec.wp_uses (R := fun a _ _ => a = 0) (fun _ _ _ _ => trivial) ?_ ?_ uses rfl
  · intro o a w h leaves none
    subst none
    exact op_leaves leaves
  · intro o a w h leaves _
    exact Spec.op_mono (fun _ _ _ _ _ => trivial) (op_leaves leaves)

/-! ## Recording -/

/-- What an insertion leaves: the call holds the row that it has inserted. -/
def Inserted (i : RowIds) : Outcome Exception (Option PrivateSettlementRecord) → Shares → World →
    Hist Api → Prop
  | .done (some record), a, _, _ => a = {(i, true)} ∧ rowIdsOf record = i
  | _, a, _, _ => a = 0

/-- A row that is inserted is inserted with its ids, next to the others. -/
lemma rowIds_insertSettlement {input : PrivateSettlementRecord}
    {record : PrivateSettlementRecord} (run : w.insertSettlement input = some (some record, w')) :
    rowIdsOf record = rowIdsOf input ∧ rowIds w' = rowIds w ++ [rowIdsOf input] ∧
      published w' = published w ∧ input.id ∉ (rowIds w).map RowIds.id := by
  unfold World.insertSettlement at run
  split at run
  case isTrue => cases run
  case isFalse =>
    obtain ⟨t, inserted, eq⟩ := Option.map_eq_some_iff.1 run
    cases eq
    refine ⟨rfl, ?_, rfl, ?_⟩
    · rw [rowIds, Table.rows_insert inserted, List.map_append]
      rfl
    · have free := Table.find?_eq_none_iff.1 (Table.fresh_of_insert inserted)
      rw [rowIds, List.map_map]
      exact free

/-- A row that is not inserted leaves the ledger as it was. -/
lemma eq_of_insertSettlement {input : PrivateSettlementRecord}
    (run : w.insertSettlement input = some (none, w')) : w' = w := by
  unfold World.insertSettlement at run
  split at run
  case isTrue =>
    cases run
    rfl
  case isFalse =>
    obtain ⟨t, -, eq⟩ := Option.map_eq_some_iff.1 run
    cases eq

/-- A row is inserted under the condition. -/
lemma apart_insertSettlement {input record : PrivateSettlementRecord}
    (derived : Derived d (rowIdsOf input)) (run : w.insertSettlement input = some (some record, w'))
    (unshared : input.externalId ∈ externalIds ∧
      input.externalId ∉ w.settlements.rows.map (·.externalId) ∧
        settlementRefFromExternalId d input.externalId ∉ (published w).map Prod.fst)
    (apart : Apart d externalIds (rowIds w) (published w) a) :
    Apart d externalIds (rowIds w') (published w') ((rowIdsOf input, true) ::ₘ a) := by
  obtain ⟨-, rows, sent, fresh⟩ := rowIds_insertSettlement run
  obtain ⟨known, new, unsent⟩ := unshared
  rw [rows, sent]
  apply apart.insert known derived fresh
  · rw [rowIds, List.map_map]
    exact new
  · exact derived.settlementRef ▸ unsent

/-- The insert gives the call the row that it has inserted. -/
lemma op_settlementInsert {input : PrivateSettlementRecord} (derived : Derived d (rowIdsOf input)) :
    (spec d chain externalIds).op (.settlementInsert input) (Inserted (rowIdsOf input)) 0 w
      h := by
  intro w₁ f r w₂ _ apart reply unshared
  cases r with
  | refused e => exact ⟨trivial, 0, reply.2 ▸ apart, trivial, rfl⟩
  | done b =>
    cases b with
    | none =>
      obtain rfl := eq_of_insertSettlement reply
      exact ⟨trivial, 0, apart, trivial, rfl⟩
    | some record =>
      have inserted := apart_insertSettlement derived reply (unshared record rfl) apart
      refine ⟨trivial, {(rowIdsOf input, true)}, ?_, trivial, rfl,
        (rowIds_insertSettlement reply).1⟩
      rw [zero_add] at inserted
      exact inserted
  | lost b e =>
    cases b with
    | none =>
      obtain rfl := eq_of_insertSettlement reply.1
      exact ⟨trivial, 0, apart, trivial, rfl⟩
    | some record =>
      -- the row is there, and nobody holds it
      have inserted := apart_insertSettlement derived reply.1 (unshared record rfl) apart
      exact ⟨trivial, 0, inserted.drop, trivial, rfl⟩

/-- Storing a settlement gives the call its row, unless it finds another. -/
lemma wp_createOrGetExisting {input : PrivateSettlementRecord}
    (derived : Derived d (rowIdsOf input)) :
    (spec d chain externalIds).wp (createOrGetExisting input)
      (fun r a _ _ => ∀ record, r = .ok (record, false) →
        a = {(rowIdsOf input, true)} ∧ rowIdsOf record = rowIdsOf input) 0 w h := by
  apply Spec.wp_bind
  apply Spec.wp_await
  apply Spec.op_mono ?_ (op_settlementInsert derived)
  intro r a w h inserted
  cases r with
  | refused e =>
    intro record eq
    cases eq
  | lost b e =>
    intro record eq
    cases eq
  | done b =>
    cases b with
    | some record =>
      intro record' eq
      cases eq
      exact inserted
    | none =>
      obtain rfl : a = 0 := inserted
      refine wp_leaves (o := .settlementFindByExternalId input.clientId input.externalId) trivial
        (fun e w h record eq => by cases eq) fun existing w h => ?_
      apply Spec.wp_bind
      apply Spec.wp_orThrow
      · intro existing' _ record eq
        cases eq
      · intro _ record eq
        cases eq

/-- The submission: where it is performed, the share of the call says so. -/
lemma wp_recordPrivateSettlement (free : CollisionFree d keccak256 externalIds) :
    (spec d chain externalIds).wp (recordPrivateSettlement d i.settlementRef i.commitment)
      (fun _ a _ _ => ∃ b, a = {(i, b)}) {(i, true)} w h := by
  apply Spec.wp_bind
  apply Spec.wp_ofExcept.2
  cases requireRegistryAddress d with
  | error e => exact ⟨true, rfl⟩
  | ok registry =>
    apply Spec.wp_bind
    apply Spec.wp_ofExcept.2
    cases requireRegistrarAccount d with
    | error e => exact ⟨true, rfl⟩
    | ok account =>
      apply Spec.wp_bind
      apply Spec.wp_await
      have submitted {w₁ w₂ : World} {f : Shares} {hash : Hex}
          (run : World.exec (.submit account
            (.recordSettlement registry i.settlementRef i.commitment "0x") []) w₁ = some (hash, w₂))
          (apart : Apart d externalIds (rowIds w₁) (published w₁) ({(i, true)} + f)) :
          Apart d externalIds (rowIds w₂) (published w₂) ({(i, false)} + f) := by
        cases run
        rw [Multiset.singleton_add] at apart ⊢
        have sent := apart.submit free
        simpa [rowIds, published, recordedBy] using sent
      intro w₁ f r w₂ _ apart reply _
      cases r with
      | refused e => exact ⟨trivial, {(i, true)}, reply.2 ▸ apart, trivial, true, rfl⟩
      | lost b e => exact ⟨trivial, {(i, false)}, submitted reply.1 apart, trivial, false, rfl⟩
      | done hash =>
        refine ⟨trivial, {(i, false)}, submitted reply apart, trivial, ?_⟩
        change (spec d chain externalIds).wp (toTransferExecution d hash) _ _ _ _
        unfold toTransferExecution
        split
        case isFalse => exact ⟨false, rfl⟩
        case isTrue =>
          exact wp_leaves (o := .waitForTransactionReceipt hash) trivial (fun _ _ _ => ⟨false, rfl⟩)
            fun _ _ _ => ⟨false, rfl⟩

/-- The submission uses up what the call holds of its row. -/
lemma wp_publish (free : CollisionFree d keccak256 externalIds) {context : RequestContext}
    {settlementId : Hex} {record : PrivateSettlementRecord} :
    (spec d chain externalIds).wp
      (publish d context i.settlementRef settlementId i.commitment record)
      (fun _ a _ _ => ∃ b, a = {(i, b)}) {(i, true)} w h := by
  apply Spec.wp_bind_of (wp_recordPrivateSettlement free)
  · intro exec a w h held
    refine wp_leaves (o := .settlementUpdate record.id { transactionHash := some (some exec.hash) })
      trivial (fun _ _ _ => held) fun updated w h => ?_
    exact wp_leaves (o := .auditInsert _) trivial (fun _ _ _ => held) fun _ _ _ => held
  · exact fun _ _ _ _ held => held

/-- The row of the call is taken back. -/
lemma wp_release {error : Exception} {b : Bool} :
    (spec d chain externalIds).wp (release i.id error) Spec.triv {(i, b)} w h := by
  apply Spec.wp_bind
  apply Spec.wp_await
  have erased {w₁ w₂ : World} {f : Shares}
      (run : World.exec (.settlementDelete i.id) w₁ = some ((), w₂))
      (apart : Apart d externalIds (rowIds w₁) (published w₁) ({(i, b)} + f)) :
      Apart d externalIds (rowIds w₂) (published w₂) (0 + f) := by
    cases run
    rw [Multiset.singleton_add] at apart
    have erased := apart.erase
    rw [zero_add]
    rw [rowIds, List.filter_map] at erased
    exact erased
  intro w₁ f r w₂ _ apart reply _
  cases r with
  | refused e => exact ⟨trivial, {(i, b)}, reply.2 ▸ apart, trivial, trivial⟩
  | done u => exact ⟨trivial, 0, erased reply apart, trivial, trivial⟩
  | lost u e => exact ⟨trivial, 0, erased reply.1 apart, trivial, trivial⟩

/-- The rule of a computation in `record`. -/
lemma wp_compute {β : Type} {x : Except Exception β} {f : β → Method α}
    (next : ∀ b, x = .ok b → (spec d chain externalIds).wp (f b) Spec.triv a w h) :
    (spec d chain externalIds).wp (.ofExcept x >>= f) Spec.triv a w h := by
  apply Spec.wp_bind
  apply Spec.wp_ofExcept.2
  cases x with
  | ok b => exact next b rfl
  | error e => trivial

/-- A recording keeps the ids apart. -/
lemma wp_record (free : CollisionFree d keccak256 externalIds) {dto : CreateSettlementDto}
    {context : RequestContext} :
    (spec d chain externalIds).wp (record d dto context) Spec.triv 0 w h := by
  apply Spec.wp_bind
  apply Spec.wp_require ?_ (fun _ => trivial)
  intro _
  apply Spec.wp_bind
  apply Spec.wp_orThrow ?_ (fun _ => trivial)
  intro tokenAddress _
  refine wp_compute fun amountAtomic _ => wp_compute fun counterparty _ => ?_
  refine wp_leaves (o := .randomBytes32) trivial (fun _ _ _ => trivial) fun nonce w h => ?_
  refine wp_compute fun settlementId eq => wp_compute fun commitment _ => ?_
  refine wp_leaves (o := .randomUUID) trivial (fun _ _ _ => trivial) fun id w h => ?_
  have derived : Derived d (rowIdsOf (newSettlement dto context id tokenAddress amountAtomic
      counterparty nonce (settlementRefFromExternalId d dto.externalId) settlementId commitment)) :=
    ⟨rfl, eq⟩
  apply Spec.wp_bind_of (wp_createOrGetExisting derived) ?_ (fun _ _ _ _ _ => trivial)
  intro p a w h created
  obtain ⟨record, existed⟩ := p
  cases existed with
  | true => trivial
  | false =>
    obtain ⟨rfl, own⟩ := created record rfl
    refine Spec.wp_tryCatch_of (wp_publish (i := rowIdsOf (newSettlement dto context id tokenAddress
      amountAtomic counterparty nonce (settlementRefFromExternalId d dto.externalId) settlementId
        commitment)) free) (fun _ _ _ _ _ => trivial) fun e a w h held => ?_
    obtain ⟨b, rfl⟩ := held
    rw [show record.id = (rowIdsOf record).id from rfl, own]
    exact wp_release

/-- Every call keeps them apart. -/
lemma sound (free : CollisionFree d keccak256 externalIds) :
    (spec d chain externalIds).Sound := by
  intro p entry w
  rcases records_of_entry entry with ⟨dto, context, rfl⟩ | uses
  · exact Spec.wp_bind_of (wp_record free) (fun _ _ _ _ _ => trivial) fun _ _ _ _ _ => trivial
  · exact wp_of_leaves (Prog.uses_mono leaves_of_not_recording uses)

end

/-- In every state that is reached without sharing external ids the rows are apart, and what is
    submitted under the reference of a row is its commitment. -/
theorem apart_of_reachable {d : Deployment} {keccak256 : List Word → Word}
    {chain : Chain → Chain → Prop} {externalIds : List String} {c : Chain} {now : Timestamp}
    {nextUuid : Uuid} {nextBytes32 : Hex} {s : Sys Api World}
    (free : CollisionFree d keccak256 externalIds)
    (reach : (settlementLedger d chain (Unshared d externalIds)).Reachable
      (.fresh c now nextUuid nextBytes32) s) :
    ∃ a, Apart d externalIds (rowIds s.world) (published s.world) a := by
  apply Spec.inv_of_reachable (σ := spec d chain externalIds) (sound free) ?_ reach
  constructor
  · exact List.forall_mem_nil _
  · exact List.forall_mem_nil _
  · exact List.nodup_nil
  · exact Multiset.nodup_zero
  · exact fun _ mem => absurd mem (Multiset.notMem_zero _)
  · exact fun _ mem => absurd mem (Multiset.notMem_zero _)
  · exact List.forall_mem_nil _
  · exact List.forall_mem_nil _

/-! ## The registry -/

section
variable (keccak256 : List Word → Word) {oz : OpenZeppelin}

/-- The id of a row on the registry. -/
def registryId (r : PrivateSettlementRecord) : Word := keccak256 [wordOf r.settlementRef]

/-- The registry refuses the commitment of the row as one that it has already. -/
def RefusesRecorded (v : Contracts.PrivateSettlementRegistry.Storage oz) (r : PrivateSettlementRecord) :
    Prop :=
  ∃ (θ : Type) (others : Evm.Others (abi oz) θ) (f : Evm.Frame (abi oz)) (sender : Evm.Address)
    (now : Nat) (publicMetadata : Evm.Bytes) (s : Evm.Account (abi oz) × θ) (id : Word),
    s.1.storage = v ∧
      ((recordSettlement keccak256 sender now (wordOf r.settlementRef) (wordOf r.commitment)
        publicMetadata).exec others f s).1 = .error (.settlementAlreadyRecorded id)

/-- What the transactions record has been submitted by the services. -/
def SentBy (w : World) (ts : List (Evm.Transaction (abi oz))) : Prop :=
  ∀ t ∈ ts, ∀ settlementRef commitment metadata,
    t.call = .recordSettlement settlementRef commitment metadata →
      ∃ q ∈ published w, wordOf q.1 = settlementRef ∧ wordOf q.2 = commitment

end

section
variable {keccak256 : List Word → Word} {oz : OpenZeppelin}
  {v : Contracts.PrivateSettlementRegistry.Storage oz} {r : PrivateSettlementRecord}

/-- Only what is recorded is refused as recorded. -/
lemma recorded_of_refusesRecorded (refuses : RefusesRecorded keccak256 v r) :
    (v.records (registryId keccak256 r)).status ≠ .none := by
  obtain ⟨θ, others, f, sender, now, publicMetadata, s, id, rfl, error⟩ := refuses
  refine Evm.Code.wp_sound (R := fun _ _ => True) (f := f) (Q := fun r' _ =>
    r' = .error (.settlementAlreadyRecorded id) →
      (s.1.storage.records (registryId keccak256 r)).status ≠ .none)
    (fun _ _ => trivial) ?_ error
  refine Evm.Code.wp_bind (Evm.Code.wp_read_bind.2 (Evm.Code.wp_require.2 ⟨fun _ => ?_, fun _ => nofun⟩))
  refine Evm.Code.wp_require_bind.2 ⟨fun _ => ?_, fun _ => nofun⟩
  refine Evm.Code.wp_require_bind.2 ⟨fun _ => ?_, fun _ => nofun⟩
  refine Evm.Code.wp_read_bind.2 (Evm.Code.wp_require_bind.2 ⟨fun _ => ?_, fun taken _ => taken⟩)
  exact nofun

/-- What is recorded is refused, if nothing else is wrong with it. -/
lemma refusesRecorded_of_recorded (sender : Evm.Address) (registrar : v.registrars sender = true)
    (ref : wordOf r.settlementRef ≠ 0) (commitment : wordOf r.commitment ≠ 0)
    (recorded : (v.records (registryId keccak256 r)).status ≠ .none) :
    RefusesRecorded keccak256 v r := by
  refine ⟨Unit, Empty.elim, ⟨⟨sender, 0, .setRegistrar 0 false⟩, 0, v⟩, sender, 0, [],
    ⟨⟨v, []⟩, ()⟩, registryId keccak256 r, rfl, ?_⟩
  refine Evm.Code.wp_sound (A := abi oz) (R := fun _ _ => True)
    (Q := fun r' _ => r' = .error (.settlementAlreadyRecorded (registryId keccak256 r)))
    (fun r => r.elim) ?_
  refine Evm.Code.wp_bind (Evm.Code.wp_read_bind.2 (Evm.Code.wp_require.2
    ⟨fun _ => ?_, fun stranger => absurd registrar stranger⟩))
  refine Evm.Code.wp_require_bind.2 ⟨fun _ => ?_, fun zero => absurd ref zero⟩
  refine Evm.Code.wp_require_bind.2 ⟨fun _ => ?_, fun zero => absurd commitment zero⟩
  exact Evm.Code.wp_read_bind.2 (Evm.Code.wp_require_bind.2
    ⟨fun free => absurd free recorded, fun _ => rfl⟩)

end

section
variable {d : Deployment} {keccak256 : List Word → Word} {externalIds : List String} {w : World}
  {a : Shares} {r r' : PrivateSettlementRecord} {oz : OpenZeppelin}

/-- The ids of a row are among those of the ledger. -/
lemma mem_rowIds (mem : r ∈ w.settlements.rows) : rowIdsOf r ∈ rowIds w := List.mem_map_of_mem mem

/-- A row that has the id of an external id on the registry has the external id. -/
lemma Apart.externalId_of_registryId (free : CollisionFree d keccak256 externalIds)
    (apart : Apart d externalIds (rowIds w) (published w) a) (mem : r ∈ w.settlements.rows)
    {e : String} (known : e ∈ externalIds)
    (same : registryId keccak256 r = keccak256 [wordOf (settlementRefFromExternalId d e)]) :
    r.externalId = e := by
  have mine := apart.known _ (mem_rowIds mem)
  have ref : r.settlementRef = settlementRefFromExternalId d r.externalId :=
    (apart.derived _ (mem_rowIds mem)).settlementRef
  rw [registryId, ref] at same
  exact free.refs _ mine _ known (free.ids _ mine _ known same)

/-- Rows with one settlement id are one row. -/
lemma Apart.eq_of_settlementId (hashes : Hashes d keccak256 externalIds)
    (free : CollisionFree d keccak256 externalIds)
    (apart : Apart d externalIds (rowIds w) (published w) a) (mem : r ∈ w.settlements.rows)
    (mem' : r' ∈ w.settlements.rows) (same : r.settlementId = r'.settlementId) : r = r' := by
  have word {r} (mem : r ∈ w.settlements.rows) : wordOf r.settlementId = registryId keccak256 r := by
    obtain ⟨ref, id⟩ := apart.derived _ (mem_rowIds mem)
    rw [ref] at id
    change r.settlementRef = _ at ref
    rw [registryId, ref]
    exact hashes _ (apart.known _ (mem_rowIds mem)) _ id
  have nodup : (w.settlements.rows.map (·.externalId)).Nodup := by
    have nodup := apart.nodup
    rw [rowIds, List.map_map] at nodup
    exact nodup
  apply List.inj_on_of_nodup_map nodup mem mem'
  apply apart.externalId_of_registryId free mem (apart.known _ (mem_rowIds mem'))
  have ref : r'.settlementRef = settlementRefFromExternalId d r'.externalId :=
    (apart.derived _ (mem_rowIds mem')).settlementRef
  change registryId keccak256 r = keccak256 [wordOf (settlementRefFromExternalId d r'.externalId)]
  rw [← word mem, same, word mem', registryId, ref]

/-- What is recorded under the id of a row is its commitment, which has been submitted. -/
lemma Apart.own_of_recorded (free : CollisionFree d keccak256 externalIds)
    (apart : Apart d externalIds (rowIds w) (published w) a) {initialOwner : Evm.Address}
    {s₀ : Evm.Account (abi oz)} {ts : List (Evm.Transaction (abi oz))}
    (init : construct oz initialOwner = .ok s₀) (sent : SentBy w ts) (mem : r ∈ w.settlements.rows)
    (recorded : ((Evm.run (contract keccak256) s₀ ts).storage.records
      (registryId keccak256 r)).status ≠ .none) :
    (r.settlementRef, r.commitment) ∈ published w ∧
      ((Evm.run (contract keccak256) s₀ ts).storage.records (registryId keccak256 r)).commitment =
        wordOf r.commitment := by
  obtain ⟨t, mem_t, settlementRef, metadata, call, hash⟩ := recorded_by_transaction init recorded
  obtain ⟨q, submitted, rfl, commitment⟩ := sent t mem_t _ _ _ call
  obtain ⟨e, known, ref⟩ := apart.refs q submitted
  -- the transaction names the reference of the row, so that it carries the commitment of the row
  have same : r.externalId = e := by
    apply apart.externalId_of_registryId free mem known
    rw [← hash, ref]
  have own : r.settlementRef = q.1 := by
    rw [ref, ← same]
    exact (apart.derived _ (mem_rowIds mem)).settlementRef
  have eq : r.commitment = q.2 := apart.own q submitted _ (mem_rowIds mem) own
  rw [own, eq]
  exact ⟨submitted, commitment.symm⟩

end

/-- As long as a row is inserted only under an external id that no row has and nothing has been
    submitted under, all rows have different settlement ids. A registry whose recordings the services
    have submitted refuses the commitment of a row as recorded only where just this commitment has been
    submitted, and what it has recorded under the id of the row is the commitment of the row. -/
theorem settlementIds_distinct {d : Deployment} {keccak256 : List Word → Word} {oz : OpenZeppelin}
    {chain : Chain → Chain → Prop} {externalIds : List String} {c : Chain} {now : Timestamp}
    {nextUuid : Uuid} {nextBytes32 : Hex} {s : Sys Api World}
    (hashes : Hashes d keccak256 externalIds) (free : CollisionFree d keccak256 externalIds)
    (reach : (settlementLedger d chain (Unshared d externalIds)).Reachable
      (.fresh c now nextUuid nextBytes32) s) :
    (s.world.settlements.rows.map (·.settlementId)).Nodup ∧
      ∀ (initialOwner : Evm.Address) (s₀ s₁ : Evm.Account (abi oz))
        (ts : List (Evm.Transaction (abi oz))), construct oz initialOwner = .ok s₀ →
          Evm.run (contract keccak256) s₀ ts = s₁ → SentBy s.world ts →
            ∀ r ∈ s.world.settlements.rows,
              (RefusesRecorded keccak256 s₁.storage r →
                (r.settlementRef, r.commitment) ∈ published s.world) ∧
                ((s₁.storage.records (registryId keccak256 r)).status ≠ .none →
                  (s₁.storage.records (registryId keccak256 r)).commitment = wordOf r.commitment) := by
  obtain ⟨a, apart⟩ := apart_of_reachable free reach
  constructor
  · have nodup : (s.world.settlements.rows.map (·.externalId)).Nodup := by
      have nodup := apart.nodup
      rw [rowIds, List.map_map] at nodup
      exact nodup
    apply List.Nodup.map_on ?_ nodup.of_map
    intro r mem r' mem' same
    exact apart.eq_of_settlementId hashes free mem mem' same
  · intro initialOwner s₀ s₁ ts init ran sent r mem
    subst ran
    constructor
    · intro refuses
      exact (apart.own_of_recorded free init sent mem (recorded_of_refusesRecorded refuses)).1
    · intro recorded
      exact (apart.own_of_recorded free init sent mem recorded).2

/-! ## Concrete settlements -/

/-- The random bytes of the second call. -/
def secondNonce : Hex := "0x0202020202020202020202020202020202020202020202020202020202020202"

/-- The encoding of the preimage that has them. -/
def secondPreimage : Hex :=
  "0x00000000000000000000000000000000000000000000000000000000000f4240" ++
    "0000000000000000000000005425890298aed601595a70ab815c96711a31bc65" ++
    "0000000000000000000000002b5ad5c4795c026514f8317c7a215e218dccd6cf" ++
    "0202020202020202020202020202020202020202020202020202020202020202"

/-- The commitment to it. -/
def secondCommitment : Hex := "0xb04801f1105a482cdfee274d64493668286c76284b5de16604f9ebb8dbdb124f"

/-- A deployment with a registry, with the hashes of a second external id and of a second preimage. -/
def secondDeployment : Deployment :=
  { registryDeployment with
    stringToBytes := fun s => if s = "inv-2" then "0x696e762d32" else "0x696e762d31"
    encodeAbiParameters := fun values =>
      if values.getLast? = some (.bytes32 secondNonce) then .ok secondPreimage
      else registryDeployment.encodeAbiParameters values
    keccak256 := fun bytes =>
      if bytes = "0x696e762d32" then secondRef
      else if bytes = secondRef then
        "0x4ff6d85eaa20d9d23c4a8e8937b32512b775d48d2db4118744a3d09a28859f8b"
      else if bytes = secondPreimage then secondCommitment
      else registryDeployment.keccak256 bytes }

/-- The hashes of words in the concrete runs. -/
def sampleKeccak (words : List Word) : Word :=
  if words = [0xca0665a2bc94cecf54a45f1b22557ea1bd3b0c2b4b2494b4d00226ff4e73fa29] then
    0x4ff6d85eaa20d9d23c4a8e8937b32512b775d48d2db4118744a3d09a28859f8b
  else 0xf00aca4d88fe6f971f62b2d78362425c3cbe08c485bc019d42f3decb4815e856

/-- The references of the two settlements, as words. -/
lemma wordOf_refs :
    wordOf sampleRef = 0x333f522a6bf5a56d4587088a64f5e0dc7a63a78e50ff3611cb307cb728bf9619 ∧
      wordOf secondRef = 0xca0665a2bc94cecf54a45f1b22557ea1bd3b0c2b4b2494b4d00226ff4e73fa29 := by
  decide +kernel

/-- Their commitments, as words. -/
lemma wordOf_commitments :
    wordOf sampleCommitment = 0x2ea1d518582380360d4feb177e8a29ddf9f476aaff2c7a9bc4ed6080a446ee84 ∧
      wordOf secondCommitment = 0xb04801f1105a482cdfee274d64493668286c76284b5de16604f9ebb8dbdb124f := by
  decide +kernel

/-- The two external ids hash to the references. -/
lemma settlementRefs :
    settlementRefFromExternalId secondDeployment "inv-1" = sampleRef ∧
      settlementRefFromExternalId secondDeployment "inv-2" = secondRef := by
  decide +kernel

/-- The id of the second row. -/
def secondId : Uuid := "00000000-0000-4000-8000-000000000001"

/-- Two clients record a settlement each, the second one under an external id of its choice. -/
def bothRecorded (externalId : String) : List (Choice Api World) :=
  .enter (record secondDeployment sampleSettlement .sample).discard :: (Choice.steps 0 7 ++
    .env (fun w => { w with
      nextUuid := secondId
      nextBytes32 := secondNonce }) ::
    .enter (record secondDeployment { sampleSettlement with externalId }
      { RequestContext.sample with clientId := some "other" }).discard :: Choice.steps 1 7)

/-- The schedule of the concrete run is a legal one. -/
lemma legal_bothRecorded {externalId : String} {cond : Hist Api → World → Event Api → Prop} :
    ∀ c ∈ bothRecorded externalId, c.Legal (settlementLedger secondDeployment Eq cond) := by
  simp only [bothRecorded, List.forall_mem_cons, List.forall_mem_append]
  exact ⟨.record, Choice.legal_steps,
    fun _ => ⟨rfl, rfl, rfl, rfl, rfl, rfl, rfl, rfl, rfl⟩, .record, Choice.legal_steps⟩

/-- A row is inserted only as the condition demands. -/
def unshared (externalIds : List String) (_ : Hist Api) (w : World) : Event Api → Bool
  | ⟨.settlementInsert r, _⟩ => decide (r.externalId ∈ externalIds) &&
      decide (r.externalId ∉ w.settlements.rows.map (·.externalId)) &&
        decide (settlementRefFromExternalId secondDeployment r.externalId ∉
          (published w).map Prod.fst)
  | _ => true

/-- The check of the concrete runs decides the condition. -/
lemma unshared_of_eval {externalIds : List String} {h : Hist Api} {w : World} {e : Event Api}
    (ok : unshared externalIds h w e = true) : Unshared secondDeployment externalIds h w e := by
  obtain ⟨op, o⟩ := e
  cases op
  case settlementInsert r =>
    intro _ _
    simp only [unshared, Bool.and_eq_true, decide_eq_true_eq] at ok
    exact ⟨ok.1.1, ok.1.2, ok.2⟩
  all_goals trivial

/-- The owner of the registry admits a registrar, who sends these recordings. -/
def recordings (rs : List (Hex × Hex)) : List (Evm.Transaction (abi .standard)) :=
  ⟨⟨1, 0, .setRegistrar 2 true⟩, 1, []⟩ ::
    rs.map fun q => ⟨⟨2, 0, .recordSettlement (wordOf q.1) (wordOf q.2) []⟩, 1, []⟩

/-- The registry after that. -/
def recorded (rs : List (Hex × Hex)) : Evm.Account (abi .standard) :=
  Evm.run (contract sampleKeccak) Contracts.PrivateSettlementRegistry.sampleRegistry (recordings rs)

/-- The recordings of what has been published have been submitted. -/
lemma sentBy_recordings {w : World} {rs : List (Hex × Hex)} (sub : ∀ q ∈ rs, q ∈ published w) :
    SentBy w (recordings rs) := by
  intro t mem settlementRef commitment metadata call
  rcases List.mem_cons.1 mem with rfl | mem
  · cases call
  · obtain ⟨q, sent, rfl⟩ := List.mem_map.1 mem
    cases call
    exact ⟨q, sub q sent, rfl, rfl⟩

/-- A reference is encoded as it is. -/
lemma computeSettlementId_second {ref : Hex} (other : ref ≠ secondNonce) :
    computeSettlementId secondDeployment ref = .ok (secondDeployment.keccak256 ref) := by
  have plain : secondDeployment.encodeAbiParameters [.bytes32 ref] = .ok ref :=
    if_neg (by simpa using other)
  rw [computeSettlementId, plain]
  rfl

/-- What the registry is sent where the external ids differ. -/
def bothSent : List (Hex × Hex) := [(sampleRef, sampleCommitment), (secondRef, secondCommitment)]

/-- The registry records both settlements. -/
lemma recorded_bothSent : ∀ ref ∈ [sampleRef, secondRef],
    ((recorded bothSent).storage.records (sampleKeccak [wordOf ref])).status = .recorded := by
  simp only [recorded, recordings, bothSent, List.map_cons, List.map_nil, List.forall_mem_cons,
    wordOf_refs, wordOf_commitments]
  exact ⟨by decide +kernel, by decide +kernel, List.forall_mem_nil _⟩

/-- The rows have the external ids and the references, and both commitments have been submitted. -/
def recordsBoth (s : Sys Api World) : Bool :=
  decide (s.world.settlements.rows.map (fun r => (r.externalId, r.settlementRef)) =
    [("inv-1", sampleRef), ("inv-2", secondRef)]) && decide (published s.world = bothSent)

/-- Two settlements under different external ids: the registry has the commitments of both. -/
theorem settlementIds_distinct_of_recorded : ∃ s, (settlementLedger secondDeployment Eq
    (Unshared secondDeployment ["inv-1", "inv-2"])).Reachable minedWorld s ∧
      s.world.settlements.rows.map (·.externalId) = ["inv-1", "inv-2"] ∧
        (s.world.settlements.rows.map (·.settlementId)).Nodup ∧
          ∀ r ∈ s.world.settlements.rows,
            ((recorded (published s.world)).storage.records
              (registryId sampleKeccak r)).status = .recorded ∧
              ((recorded (published s.world)).storage.records
                (registryId sampleKeccak r)).commitment = wordOf r.commitment := by
  obtain ⟨s, reach, seen⟩ := Machine.reachable_of_run
    (M := settlementLedger secondDeployment Eq (Unshared secondDeployment ["inv-1", "inv-2"]))
    (w := minedWorld) (unshared ["inv-1", "inv-2"]) (bothRecorded "inv-2") recordsBoth
    (fun _ _ _ => unshared_of_eval) legal_bothRecorded (by decide +kernel)
  rw [recordsBoth, Bool.and_eq_true, decide_eq_true_eq, decide_eq_true_eq] at seen
  obtain ⟨rows, sent⟩ := seen
  have hashes : Hashes secondDeployment sampleKeccak ["inv-1", "inv-2"] := by
    simp only [Hashes, List.forall_mem_cons]
    refine ⟨fun id eq => ?_, fun id eq => ?_, List.forall_mem_nil _⟩
    · rw [settlementRefs.1, computeSettlementId_second (by decide +kernel)] at eq
      cases eq
      rw [settlementRefs.1, wordOf_refs.1]
      decide +kernel
    · rw [settlementRefs.2, computeSettlementId_second (by decide +kernel)] at eq
      cases eq
      rw [settlementRefs.2, wordOf_refs.2]
      decide +kernel
  have free : CollisionFree secondDeployment sampleKeccak ["inv-1", "inv-2"] := by
    constructor
    all_goals
      simp only [List.forall_mem_cons, settlementRefs, wordOf_refs]
      decide +kernel
  have init : construct .standard 1 = .ok Contracts.PrivateSettlementRegistry.sampleRegistry := rfl
  obtain ⟨nodup, registry⟩ := settlementIds_distinct hashes free reach
  refine ⟨s, reach, ?_, nodup, fun r mem => ?_⟩
  · have ids := congrArg (List.map Prod.fst) rows
    rw [List.map_map] at ids
    exact ids
  · have status : ((recorded (published s.world)).storage.records
        (registryId sampleKeccak r)).status = .recorded := by
      have refs := congrArg (List.map Prod.snd) rows
      rw [List.map_map] at refs
      have ref := List.mem_map_of_mem (f := fun r : PrivateSettlementRecord => r.settlementRef) mem
      rw [show List.map (fun r => r.settlementRef) s.world.settlements.rows = _ from refs] at ref
      rw [sent, registryId]
      exact recorded_bothSent _ ref
    have known : ((recorded (published s.world)).storage.records
        (registryId sampleKeccak r)).status ≠ .none := by
      rw [status]
      simp
    exact ⟨status, (registry 1 _ (recorded (published s.world)) _ init rfl
      (sentBy_recordings fun _ mem => mem) r mem).2 known⟩

/-- The rows of two clients have one settlement id and two commitments, both submitted, and the
    registry holds the first. -/
def sharesId (s : Sys Api World) : Bool :=
  match s.world.settlements.rows with
  | [r, r'] => decide (r'.clientId ≠ r.clientId) && decide (r'.settlementId = r.settlementId) &&
      decide (r'.settlementRef = sampleRef ∧ r'.commitment = secondCommitment) &&
        decide (published s.world = [(sampleRef, sampleCommitment), (sampleRef, secondCommitment)])
  | _ => false

/-- Two clients record settlements under one external id: they share the settlement id, and once the
    registry has the commitment of the first it refuses that of the second. -/
theorem settlementIds_shared : ∃ s, (settlementLedger secondDeployment Eq
    fun _ _ _ => True).Reachable minedWorld s ∧
      ∃ r r', s.world.settlements.rows = [r, r'] ∧ r'.clientId ≠ r.clientId ∧
        r'.settlementId = r.settlementId ∧
          ∃ ts, SentBy s.world ts ∧ ∃ v : Evm.Account (abi .standard),
            Evm.run (contract sampleKeccak) Contracts.PrivateSettlementRegistry.sampleRegistry ts = v ∧
              RefusesRecorded sampleKeccak v.storage r' ∧
                (v.storage.records (registryId sampleKeccak r')).commitment ≠ wordOf r'.commitment := by
  obtain ⟨s, reach, shares⟩ := Machine.reachable_of_run
    (M := settlementLedger secondDeployment Eq fun _ _ _ => True) (w := minedWorld) Machine.always
    (bothRecorded "inv-1") sharesId (fun _ _ _ _ => trivial) legal_bothRecorded (by decide +kernel)
  unfold sharesId at shares
  split at shares
  case h_2 => cases shares
  case h_1 r r' rows =>
    simp only [Bool.and_eq_true, decide_eq_true_eq] at shares
    obtain ⟨⟨⟨client, id⟩, ref, commitment⟩, sent⟩ := shares
    have first : ∀ q ∈ [(sampleRef, sampleCommitment)], q ∈ published s.world := by
      rw [sent]
      simp
    have known : ((recorded [(sampleRef, sampleCommitment)]).storage.records
        (sampleKeccak [wordOf sampleRef])).status ≠ .none ∧
        ((recorded [(sampleRef, sampleCommitment)]).storage.records
          (sampleKeccak [wordOf sampleRef])).commitment ≠ wordOf secondCommitment := by
      simp only [recorded, recordings, List.map_cons, List.map_nil, wordOf_refs, wordOf_commitments]
      exact ⟨by decide +kernel, by decide +kernel⟩
    refine ⟨s, reach, r, r', rows, client, id, recordings [(sampleRef, sampleCommitment)],
      sentBy_recordings first, recorded [(sampleRef, sampleCommitment)], rfl, ?_, ?_⟩
    · apply refusesRecorded_of_recorded 2 (by decide +kernel)
      · rw [ref, wordOf_refs.1]
        decide
      · rw [commitment, wordOf_commitments.2]
        decide
      · rw [registryId, ref]
        exact known.1
    · rw [registryId, ref, commitment]
      exact known.2

end AvaSettle.Settlements.Identity
