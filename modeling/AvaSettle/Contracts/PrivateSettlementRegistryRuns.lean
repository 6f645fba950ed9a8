import Mathlib.Logic.Relation
import AvaSettle.Contracts.PrivateSettlementRegistry
import AvaSettle.Evm.Reentry

/-!
# Runs of PrivateSettlementRegistry

Whoever calls the registry, a record moves from nothing to recorded to revealed, and what it commits
to never changes. The journal says who wrote it and who has seen its preimage: every event about a
settlement is explained by the record, now and in every later state.
-/

namespace AvaSettle.Contracts.PrivateSettlementRegistry
open Evm

variable {oz : OpenZeppelin} {keccak256 : List Word → Word}

/-! ## Records -/

/-- What a transaction may do to a record. -/
inductive Move : Record → Record → Prop where
  | record {r r'} (free : r.status = .none) (recorded : r'.status = .recorded) : Move r r'
  | reveal {r} (recorded : r.status ≠ .none) : Move r { r with status := .revealed }

/-- What a run may do to a record. -/
abbrev Moves : Record → Record → Prop := Relation.ReflTransGen Move

/-- What was recorded stays: all but the status, which may become revealed. -/
structure Stays (r r' : Record) : Prop where
  status : r'.status ≠ .none
  commitment : r'.commitment = r.commitment
  recordedAt : r'.recordedAt = r.recordedAt
  registrar : r'.registrar = r.registrar
  revealed : r.status = .revealed → r'.status = .revealed

/-- A record that moves stays what it was. -/
lemma stays_of_moves {r r' : Record} (moves : Moves r r') (recorded : r.status ≠ .none) :
    Stays r r' := by
  induction moves with
  | refl => exact ⟨recorded, rfl, rfl, rfl, fun h => h⟩
  | tail _ move stays =>
    cases move with
    | record free => exact absurd free stays.status
    | reveal =>
      exact ⟨nofun, stays.commitment, stays.recordedAt, stays.registrar, fun _ => rfl⟩

/-! ## The journal -/

/-- The `PrivateSettlementRecorded` of an entry, with the call that emitted it. -/
def recordingOf (r : Evm.Record (abi oz)) : Option (Frame (abi oz) × Recorded) :=
  match r.item with
  | .event (.privateSettlementRecorded e) => some (r.frame, e)
  | _ => none

/-- The `PrivateSettlementRevealed` of an entry, with the call that emitted it. -/
def revealOf (r : Evm.Record (abi oz)) : Option (Frame (abi oz) × Revealed) :=
  match r.item with
  | .event (.privateSettlementRevealed e) => some (r.frame, e)
  | _ => none

/-- The `PrivateSettlementRecorded` events of the registry. -/
def recordings (j : List (Evm.Record (abi oz))) : List (Frame (abi oz) × Recorded) :=
  j.filterMap recordingOf

/-- The `PrivateSettlementRevealed` events of the registry. -/
def reveals (j : List (Evm.Record (abi oz))) : List (Frame (abi oz) × Revealed) :=
  j.filterMap revealOf

/-- The ids of the settlements recorded. -/
def recordedIds (j : List (Evm.Record (abi oz))) : List Word :=
  (recordings j).map fun p => p.2.settlementId

/-- The record is the one that the event announced, written by a registrar of that moment. -/
structure Writes (keccak256 : List Word → Word) (p : Frame (abi oz) × Recorded) (r : Record) :
    Prop where
  entitled : p.1.entry.registrars p.1.sender = true
  sender : p.2.registrar = p.1.sender
  settlementId : p.2.settlementId = keccak256 [p.2.settlementRef]
  status : r.status ≠ .none
  commitment : r.commitment = p.2.commitment
  recordedAt : r.recordedAt = .ofNat 64 p.1.time
  registrar : r.registrar = p.1.sender

/-- The preimage is that of the record. -/
structure Opens (keccak256 : List Word → Word) (p : Preimage) (r : Record) : Prop where
  status : r.status ≠ .none
  commitment : r.commitment = computeCommitment keccak256 p

/-- The event was emitted by an auditor of that moment, for the preimage of the record. -/
structure Attests (keccak256 : List Word → Word) (p : Frame (abi oz) × Revealed) (r : Record) :
    Prop where
  entitled : p.1.entry.auditors p.1.sender = true
  sender : p.2.auditor = p.1.sender
  status : r.status = .revealed
  preimage : ∃ q, p.1.call = .revealForAudit p.2.settlementId q ∧ Opens keccak256 q r

/-- The entry fits the records. -/
structure Explained (keccak256 : List Word → Word) (records : Word → Record)
    (r : Evm.Record (abi oz)) : Prop where
  recorded : ∀ p, recordingOf r = some p → Writes keccak256 p (records p.2.settlementId)
  revealed : ∀ p, revealOf r = some p → Attests keccak256 p (records p.2.settlementId)
  returned : r.item = .returned → ∀ id q, r.frame.call = .revealForAudit id q →
    Opens keccak256 q (records id)

/-- The books of the registry. -/
structure Books (keccak256 : List Word → Word) (s : Account (abi oz)) : Prop where
  explained : ∀ r ∈ s.journal, Explained keccak256 s.storage.records r
  known : ∀ id, (s.storage.records id).status ≠ .none → id ∈ recordedIds s.journal
  once : (recordedIds s.journal).Nodup

section
variable {p : Frame (abi oz) × Recorded} {q : Frame (abi oz) × Revealed} {i : Preimage}
  {r r' : Record} {e : Evm.Record (abi oz)} {records records' : Word → Record}

/-- What was written for a commitment stays written. -/
lemma Writes.stays (writes : Writes keccak256 p r) (moves : Moves r r') :
    Writes keccak256 p r' := by
  have stays := stays_of_moves moves writes.status
  exact ⟨writes.entitled, writes.sender, writes.settlementId, stays.status,
    stays.commitment.trans writes.commitment, stays.recordedAt.trans writes.recordedAt,
    stays.registrar.trans writes.registrar⟩

/-- What was opened stays opened. -/
lemma Opens.stays (opens : Opens keccak256 i r) (moves : Moves r r') : Opens keccak256 i r' := by
  have stays := stays_of_moves moves opens.status
  exact ⟨stays.status, stays.commitment.trans opens.commitment⟩

/-- What was attested stays attested. -/
lemma Attests.stays (attests : Attests keccak256 q r) (moves : Moves r r') :
    Attests keccak256 q r' := by
  obtain ⟨i, call, opens⟩ := attests.preimage
  exact ⟨attests.entitled, attests.sender,
    (stays_of_moves moves opens.status).revealed attests.status, i, call, opens.stays moves⟩

/-- What the records explain they explain ever after. -/
lemma Explained.stays (moves : ∀ id, Moves (records id) (records' id))
    (explained : Explained keccak256 records e) : Explained keccak256 records' e where
  recorded p eq := (explained.recorded p eq).stays (moves _)
  revealed p eq := (explained.revealed p eq).stays (moves _)
  returned eq id q call := (explained.returned eq id q call).stays (moves _)

/-- An entry that is not about settlements. -/
structure Plain (e : Evm.Record (abi oz)) : Prop where
  notRecorded : recordingOf e = none
  notRevealed : revealOf e = none
  notReturned : e.item = .returned → ∀ id q, e.frame.call ≠ .revealForAudit id q

/-- A plain item needs no explanation. -/
lemma Plain.explained (plain : Plain e) : Explained keccak256 records e where
  recorded p eq := by
    rw [plain.notRecorded] at eq
    cases eq
  revealed p eq := by
    rw [plain.notRevealed] at eq
    cases eq
  returned eq id q call := absurd call (plain.notReturned eq id q)

end

/-- The recorded ids after an item is noted. -/
lemma recordedIds_note {s : Account (abi oz)} {f : Frame (abi oz)} {item : Item (abi oz)} :
    recordedIds (s.note f item).journal =
      recordedIds s.journal ++ ((recordingOf ⟨f, item⟩).toList.map fun p => p.2.settlementId) := by
  rw [recordedIds, recordings, Account.filterMap_note, List.map_append]
  rfl

/-! ## Transactions -/

/-- What every call guarantees. -/
structure Guards (keccak256 : List Word → Word) (s s' : Account (abi oz)) : Prop where
  moves : ∀ id, Moves (s.storage.records id) (s'.storage.records id)
  books : Books keccak256 s → Books keccak256 s'

section
variable {s s₁ s₂ s₃ s' : Account (abi oz)} {f : Frame (abi oz)} {sender : Address}

/-- The records are kept when nothing happens. -/
lemma Guards.refl : Guards keccak256 s s := ⟨fun _ => .refl, fun books => books⟩

/-- Records that are kept twice are kept. -/
lemma Guards.trans (h₁ : Guards keccak256 s₁ s₂) (h₂ : Guards keccak256 s₂ s₃) :
    Guards keccak256 s₁ s₃ :=
  ⟨fun id => (h₁.moves id).trans (h₂.moves id), fun books => h₂.books (h₁.books books)⟩

/-- Entries that are not about settlements, over records that stay. -/
lemma Guards.plain {es : List (Evm.Record (abi oz))}
    (records : s'.storage.records = s.storage.records) (journal : s'.journal = s.journal ++ es)
    (plain : ∀ e ∈ es, Plain e) : Guards keccak256 s s' where
  moves id := records ▸ .refl
  books books := by
    have none : es.filterMap recordingOf = [] :=
      List.filterMap_eq_nil_iff.2 fun e mem => (plain e mem).notRecorded
    have ids : recordedIds s'.journal = recordedIds s.journal := by
      rw [recordedIds, recordings, journal, List.filterMap_append, none, List.append_nil]
      rfl
    refine ⟨fun e mem => ?_, fun id => ?_, ids ▸ books.once⟩
    · rw [journal] at mem
      rcases List.mem_append.1 mem with mem | mem
      · exact records ▸ books.explained e mem
      · exact (plain e mem).explained
    · rw [records, ids]
      exact books.known id

/-- A call that is entered. -/
lemma guards_entered : Guards keccak256 s (s.note f .entered) :=
  .plain rfl rfl (List.forall_mem_singleton.2 ⟨rfl, rfl, nofun⟩)

/-! ## Owner administration -/

/-- What a function leaves that is not about settlements, when it does not revert. -/
def Administers (keccak256 : List Word → Word) (s : Account (abi oz))
    (r : Except (Error oz) Unit) (s' : Account (abi oz)) : Prop :=
  r = .ok () → Guards keccak256 s s'

/-- What follows the check starts where the caller is the owner. -/
lemma wp_onlyOwner {k : Unit → Fn oz Unit}
    {Q : Except (Error oz) Unit → Account (abi oz) → Prop} (error : ∀ e s, Q (.error e) s)
    (ok : (k ()).wp (Guards keccak256) f Q s) :
    (inherits.onlyOwner sender >>= k).wp (Guards keccak256) f Q s :=
  Code.wp_bind (Code.wp_read_bind.2 (Code.wp_inherit.2 ⟨fun _ _ => ok, fun _ _ => error _ _⟩))

/-- `setRegistrar` administers. -/
lemma wp_setRegistrar {registrar : Address} {allowed : Bool} :
    (setRegistrar sender registrar allowed).wp (Guards keccak256) f (Administers keccak256 s) s := by
  refine wp_onlyOwner (fun _ _ => nofun) (Code.wp_require_bind.2 ⟨fun _ _ => ?_, fun _ => nofun⟩)
  exact .plain rfl rfl (List.forall_mem_singleton.2 ⟨rfl, rfl, nofun⟩)

/-- `setAuditor` administers. -/
lemma wp_setAuditor {auditor : Address} {allowed : Bool} :
    (setAuditor sender auditor allowed).wp (Guards keccak256) f (Administers keccak256 s) s := by
  refine wp_onlyOwner (fun _ _ => nofun) (Code.wp_require_bind.2 ⟨fun _ _ => ?_, fun _ => nofun⟩)
  exact .plain rfl rfl (List.forall_mem_singleton.2 ⟨rfl, rfl, nofun⟩)

/-- An inherited function administers. -/
lemma wp_inheritedFn {g : oz.Base → Except oz.Error (oz.Base × List oz.Event)} :
    (inherits.inheritedFn g).wp (Guards keccak256) f (Administers keccak256 s) s := by
  refine Code.wp_read_bind.2 (Code.wp_inherit_bind.2 ⟨fun r eq => ?_, fun _ _ => nofun⟩)
  refine Code.wp_modify_bind.2 (Code.wp_logAll.2 fun _ => .plain rfl rfl fun e mem => ?_)
  obtain ⟨event, emitted, rfl⟩ := List.mem_map.1 mem
  obtain ⟨inherited, -, rfl⟩ := List.mem_map.1 emitted
  exact ⟨rfl, rfl, nofun⟩

/-- A call that returns, and is no reveal. -/
lemma guards_returned (other : ∀ id q, f.call ≠ .revealForAudit id q) :
    Guards keccak256 s (s.note f .returned) :=
  .plain rfl rfl (List.forall_mem_singleton.2 ⟨rfl, rfl, fun _ => other⟩)

/-! ## Settlements -/

/-- The storage once a record is written. -/
def setRecord (v : Storage oz) (id : Word) (r : Record) : Storage oz :=
  { v with records := Function.update v.records id r }

/-- Writing a record moves that one only. -/
lemma moves_setRecord {v : Storage oz} {id : Word} {r : Record} (move : Move (v.records id) r)
    (k : Word) : Moves (v.records k) ((setRecord v id r).records k) := by
  by_cases eq : k = id
  · subst eq
    simpa [setRecord] using Relation.ReflTransGen.single move
  · simpa [setRecord, eq] using Relation.ReflTransGen.refl

/-- A settlement is recorded, announced, and the call returns. -/
lemma guards_record {e : Recorded} (entitled : f.entry.registrars f.sender = true)
    (sender : e.registrar = f.sender) (settlementId : e.settlementId = keccak256 [e.settlementRef])
    (free : (s.storage.records e.settlementId).status = .none)
    (other : ∀ id q, f.call ≠ .revealForAudit id q) :
    Guards keccak256 s (Account.note (Account.note { s with
        storage := setRecord s.storage e.settlementId
          ⟨e.commitment, .recorded, .ofNat 64 f.time, f.sender⟩ } f
      (.event (.privateSettlementRecorded e))) f .returned) := by
  have moves : ∀ k, Moves (s.storage.records k) ((setRecord s.storage e.settlementId
      ⟨e.commitment, .recorded, .ofNat 64 f.time, f.sender⟩).records k) :=
    moves_setRecord (.record free rfl)
  refine ⟨moves, fun books => ⟨?_, fun id known => ?_, ?_⟩⟩
  · intro r mem
    simp only [Account.note_journal, List.append_assoc, List.mem_append, List.mem_singleton] at mem
    rcases mem with mem | rfl | rfl
    · exact (books.explained r mem).stays moves
    · refine ⟨fun p eq => ?_, nofun, nofun⟩
      cases eq
      simp only [Account.note_storage, setRecord, Function.update_self]
      exact ⟨entitled, sender, settlementId, nofun, rfl, rfl, rfl⟩
    · exact ⟨nofun, nofun, fun _ id q call => absurd call (other id q)⟩
  · rw [recordedIds_note, recordedIds_note]
    by_cases eq : id = e.settlementId
    · simp [recordingOf, eq]
    · have before := books.known id
      simp only [Account.note_storage, setRecord, Function.update_of_ne eq] at known
      exact List.mem_append_left _ (List.mem_append_left _ (before known))
  · have new : e.settlementId ∉ recordedIds s.journal := fun mem => by
      obtain ⟨p, noted, eq⟩ := List.mem_map.1 mem
      obtain ⟨r, mem, announced⟩ := List.mem_filterMap.1 noted
      have writes := (books.explained r mem).recorded p announced
      exact writes.status (eq ▸ free)
    rw [recordedIds_note, recordedIds_note]
    simpa [recordingOf] using List.nodup_append_comm.1 (List.nodup_cons.2 ⟨new, books.once⟩)

/-- `recordSettlement` keeps the records. -/
lemma wp_recordSettlement {settlementRef commitment : Word} {publicMetadata : Bytes}
    (call : f.call = .recordSettlement settlementRef commitment publicMetadata)
    (entry : f.entry = s.storage) :
    (recordSettlement keccak256 f.sender f.time settlementRef commitment publicMetadata).wp
      (Guards keccak256) f (fun r s' => ∀ a, r = .ok a →
        Guards keccak256 s (s'.note f .returned)) s := by
  refine Code.wp_bind (Code.wp_read_bind.2 (Code.wp_require.2 ⟨fun entitled => ?_, fun _ => nofun⟩))
  refine Code.wp_require_bind.2 ⟨fun _ => ?_, fun _ => nofun⟩
  refine Code.wp_require_bind.2 ⟨fun _ => ?_, fun _ => nofun⟩
  refine Code.wp_read_bind.2 (Code.wp_require_bind.2 ⟨fun free => ?_, fun _ => nofun⟩)
  rintro id -
  exact guards_record (e := ⟨_, settlementRef, f.sender, commitment, publicMetadata⟩)
    (by rw [entry]; exact entitled) rfl rfl free fun id q eq => by
      rw [call] at eq
      cases eq

/-- A settlement is revealed, announced, and the call returns. -/
lemma guards_reveal {id : Word} {q : Preimage} (entitled : f.entry.auditors f.sender = true)
    (call : f.call = .revealForAudit id q) (opens : Opens keccak256 q (s.storage.records id)) :
    Guards keccak256 s (Account.note (Account.note { s with
        storage := setRecord s.storage id { s.storage.records id with status := .revealed } } f
      (.event (.privateSettlementRevealed ⟨id, f.sender⟩))) f .returned) := by
  have moves : ∀ k, Moves (s.storage.records k)
      ((setRecord s.storage id { s.storage.records id with status := .revealed }).records k) :=
    moves_setRecord (.reveal opens.status)
  have ids : recordedIds (Account.note (Account.note { s with
        storage := setRecord s.storage id { s.storage.records id with status := .revealed } } f
      (.event (.privateSettlementRevealed ⟨id, f.sender⟩))) f .returned).journal =
        recordedIds s.journal := by
    rw [recordedIds_note, recordedIds_note]
    exact (List.append_nil _).trans (List.append_nil _)
  refine ⟨moves, fun books => ⟨?_, fun k known => ?_, ids ▸ books.once⟩⟩
  · intro r mem
    simp only [Account.note_journal, List.append_assoc, List.mem_append, List.mem_singleton] at mem
    rcases mem with mem | rfl | rfl
    · exact (books.explained r mem).stays moves
    · refine ⟨nofun, fun p eq => ?_, nofun⟩
      cases eq
      refine ⟨entitled, rfl, ?_, q, call, opens.stays (moves id)⟩
      simp [setRecord]
    · refine ⟨nofun, nofun, fun _ id' q' call' => ?_⟩
      rw [call] at call'
      cases call'
      exact opens.stays (moves id)
  · rw [ids]
    by_cases eq : k = id
    · exact books.known k (eq ▸ opens.status)
    · have before := books.known k
      simp only [Account.note_storage, setRecord, Function.update_of_ne eq] at known
      exact before known

/-- `revealForAudit` keeps the records. -/
lemma wp_revealForAudit {id : Word} {q : Preimage} (call : f.call = .revealForAudit id q)
    (entry : f.entry = s.storage) :
    (revealForAudit keccak256 f.sender id q).wp (Guards keccak256) f
      (fun r s' => r = .ok () → Guards keccak256 s (s'.note f .returned)) s := by
  refine Code.wp_bind (Code.wp_read_bind.2 (Code.wp_require.2 ⟨fun entitled => ?_, fun _ => nofun⟩))
  refine Code.wp_bind (Code.wp_read_bind.2 (Code.wp_require_bind.2 ⟨fun status => ?_, fun _ => nofun⟩))
  refine Code.wp_require_bind.2 ⟨fun verified => ?_, fun _ => nofun⟩
  rintro -
  exact guards_reveal (by rw [entry]; exact entitled) call ⟨status, of_decide_eq_true verified⟩

/-! ## Runs -/

/-- Every call keeps to what is guaranteed. -/
theorem guarantee : Guarantee (contract keccak256) (@Guards oz keccak256) where
  refl _ := .refl
  trans := .trans
  call m s := by
    have administers {c : Fn oz Unit} (other : ∀ id q, m.call ≠ .revealForAudit id q)
        (wp : c.wp (Guards keccak256) (m.frame s)
          (Administers keccak256 (s.note (m.frame s) .entered)) (s.note (m.frame s) .entered)) :
        c.wp (Guards keccak256) (m.frame s)
          (fun r s' => r = .ok () → Guards keccak256 s (s'.note (m.frame s) .returned))
            (s.note (m.frame s) .entered) :=
      Code.wp_mono (fun r s' guards ok =>
        guards_entered.trans ((guards ok).trans (guards_returned other))) wp
    unfold contract
    split
    case h_1 eq => exact administers (by simp [eq]) wp_setRegistrar
    case h_2 eq => exact administers (by simp [eq]) wp_setAuditor
    case h_3 eq => exact administers (by simp [eq]) wp_inheritedFn
    case h_4 eq =>
      refine Code.wp_bind (Code.wp_mono (fun r s' guards => ?_) (wp_recordSettlement eq rfl))
      cases r with
      | error e => exact nofun
      | ok id => exact fun _ => guards_entered.trans (guards id rfl)
    case h_5 eq =>
      exact Code.wp_mono (fun r s' guards ok => guards_entered.trans (guards ok))
        (wp_revealForAudit eq rfl)

/-- The preimage is that of a record, and the sender may reveal it. -/
structure Discloses (keccak256 : List Word → Word) (v : Storage oz) (sender : Address) (id : Word)
    (p : Preimage) : Prop where
  auditor : v.auditors sender = true
  opens : Opens keccak256 p (v.records id)

/-- A record is revealed once a reveal has been mined, if it was before or the reveal succeeds. -/
theorem revealed_transact {t : Transaction (abi oz)} {id : Word} {p : Preimage}
    (call : t.call = .revealForAudit id p) :
    ((transact (contract keccak256) s t).storage.records id).status = .revealed ↔
      (s.storage.records id).status = .revealed ∨ Discloses keccak256 s.storage t.sender id p := by
  refine guarantee.storage (P := fun v => (v.records id).status = .revealed ↔
    (s.storage.records id).status = .revealed ∨ Discloses keccak256 s.storage t.sender id p) ?_
  -- a reveal that reverts leaves the record as it was, and does not disclose
  have reverts (fails : ¬Discloses keccak256 s.storage t.sender id p) :
      (s.storage.records id).status = .revealed ↔ (s.storage.records id).status = .revealed ∨
        Discloses keccak256 s.storage t.sender id p := by
    rw [or_iff_left fails]
  unfold contract
  rw [call]
  refine Code.wp_bind (Code.wp_read_bind.2 (Code.wp_require.2
    ⟨fun auditor => ?_, fun stranger => reverts fun d => stranger d.auditor⟩))
  refine Code.wp_bind (Code.wp_read_bind.2 (Code.wp_require_bind.2
    ⟨fun recorded => ?_, fun unknown => reverts fun d => unknown d.opens.status⟩))
  refine Code.wp_require_bind.2 ⟨fun verified => ?_, fun differs => reverts fun d =>
    differs (decide_eq_true d.opens.commitment)⟩
  have discloses : Discloses keccak256 s.storage t.sender id p :=
    ⟨auditor, recorded, of_decide_eq_true verified⟩
  refine Code.wp_modify_bind.2 (Code.wp_log.2 ?_)
  simp [discloses]

/-- The call records the commitment of the record under the id. -/
def RecordedBy (keccak256 : List Word → Word) (id : Word) (r : Record) (call : Call oz) : Prop :=
  ∃ settlementRef metadata, call = .recordSettlement settlementRef r.commitment metadata ∧
    keccak256 [settlementRef] = id

/-- What is recorded after a transaction was recorded before, or by the transaction. -/
lemma recorded_transact {t : Transaction (abi oz)} {id : Word}
    (recorded : ((transact (contract keccak256) s t).storage.records id).status ≠ .none) :
    ((s.storage.records id).status ≠ .none ∧
        ((transact (contract keccak256) s t).storage.records id).commitment =
          (s.storage.records id).commitment) ∨
      RecordedBy keccak256 id ((transact (contract keccak256) s t).storage.records id) t.call := by
  revert recorded
  apply guarantee.storage (P := fun v => (v.records id).status ≠ .none →
    ((s.storage.records id).status ≠ .none ∧
        (v.records id).commitment = (s.storage.records id).commitment) ∨
      RecordedBy keccak256 id (v.records id) t.call)
  have same {v : Storage oz} (records : v.records = s.storage.records)
      (recorded : (v.records id).status ≠ .none) : ((s.storage.records id).status ≠ .none ∧
        (v.records id).commitment = (s.storage.records id).commitment) ∨
      RecordedBy keccak256 id (v.records id) t.call := by
    rw [records] at recorded ⊢
    exact .inl ⟨recorded, rfl⟩
  unfold contract
  split
  case h_1 =>
    refine wp_onlyOwner (fun _ _ => same rfl) ?_
    exact Code.wp_require_bind.2 ⟨fun _ => same rfl, fun _ => same rfl⟩
  case h_2 =>
    refine wp_onlyOwner (fun _ _ => same rfl) ?_
    exact Code.wp_require_bind.2 ⟨fun _ => same rfl, fun _ => same rfl⟩
  case h_3 =>
    refine Code.wp_read_bind.2 (Code.wp_inherit_bind.2 ⟨fun r _ => ?_, fun _ _ => same rfl⟩)
    exact Code.wp_modify_bind.2 (Code.wp_logAll.2 (same rfl))
  case h_4 settlementRef commitment metadata call =>
    refine Code.wp_bind ?_
    refine Code.wp_bind (Code.wp_read_bind.2 (Code.wp_require.2 ⟨fun _ => ?_, fun _ => same rfl⟩))
    refine Code.wp_require_bind.2 ⟨fun _ => ?_, fun _ => same rfl⟩
    refine Code.wp_require_bind.2 ⟨fun _ => ?_, fun _ => same rfl⟩
    refine Code.wp_read_bind.2 (Code.wp_require_bind.2 ⟨fun _ => ?_, fun _ => same rfl⟩)
    intro recorded
    by_cases eq : id = keccak256 [settlementRef]
    · subst eq
      refine .inr ⟨settlementRef, metadata, ?_, rfl⟩
      simpa using call
    · simp only [Account.note_storage, Function.update_of_ne eq] at recorded ⊢
      exact .inl ⟨recorded, trivial⟩
  case h_5 settlementId p _ =>
    refine Code.wp_bind (Code.wp_read_bind.2 (Code.wp_require.2 ⟨fun _ => ?_, fun _ => same rfl⟩))
    refine Code.wp_bind (Code.wp_read_bind.2 (Code.wp_require_bind.2
      ⟨fun known => ?_, fun _ => same rfl⟩))
    refine Code.wp_require_bind.2 ⟨fun _ => ?_, fun _ => same rfl⟩
    -- a reveal changes the status of a record only
    intro recorded
    by_cases eq : id = settlementId
    · subst eq
      refine .inl ⟨known, ?_⟩
      simp
    · simp only [Account.note_storage, Function.update_of_ne eq] at recorded ⊢
      exact .inl ⟨recorded, trivial⟩

/-- What is on record after some transactions was there before, or one of them has recorded it. -/
lemma recorded_run {ts : List (Transaction (abi oz))} {id : Word}
    (recorded : ((run (contract keccak256) s ts).storage.records id).status ≠ .none) :
    ((s.storage.records id).status ≠ .none ∧
        ((run (contract keccak256) s ts).storage.records id).commitment =
          (s.storage.records id).commitment) ∨
      ∃ t ∈ ts, RecordedBy keccak256 id ((run (contract keccak256) s ts).storage.records id) t.call := by
  induction ts generalizing s with
  | nil => exact .inl ⟨recorded, rfl⟩
  | cons t ts ih =>
    rcases ih (s := transact (contract keccak256) s t) recorded with ⟨before, same⟩ | ⟨t', mem, by_⟩
    · rcases recorded_transact before with ⟨known, same'⟩ | ⟨ref, metadata, call, hash⟩
      · exact .inl ⟨known, same.trans same'⟩
      · exact .inr ⟨t, List.mem_cons_self, ref, metadata, by rw [call, ← same]; rfl, hash⟩
    · exact .inr ⟨t', List.mem_cons_of_mem t mem, by_⟩

/-- Every record of a registry was recorded by a transaction that called for its commitment. -/
theorem recorded_by_transaction {initialOwner : Address} {s₀ : Account (abi oz)}
    {ts : List (Transaction (abi oz))} {id : Word} (init : construct oz initialOwner = .ok s₀)
    (recorded : ((run (contract keccak256) s₀ ts).storage.records id).status ≠ .none) :
    ∃ t ∈ ts, RecordedBy keccak256 id ((run (contract keccak256) s₀ ts).storage.records id) t.call := by
  rcases recorded_run recorded with ⟨known, -⟩ | recorded
  · unfold construct at init
    split at init
    case h_1 => cases init
    case h_2 =>
      cases init
      exact absurd rfl known
  · exact recorded

/-- A new registry has empty books. -/
lemma books_construct {initialOwner : Address} (init : construct oz initialOwner = .ok s) :
    Books keccak256 s := by
  unfold construct at init
  split at init
  case h_1 => cases init
  case h_2 => cases init; exact ⟨nofun, fun _ known => absurd rfl known, .nil⟩

/-- Nobody is called. -/
def nobody : Others (abi oz) Unit := fun r => nomatch r

/-- The preimage has been accepted for the settlement: `verifyCommitment` says so now, or
    `revealForAudit` has returned for it. -/
def Accepted (keccak256 : List Word → Word) (s : Account (abi oz)) (id : Word) (p : Preimage) :
    Prop :=
  (∃ f, ((verifyCommitment keccak256 id p).exec nobody f (s, ())).1 = .ok true) ∨
    ∃ f, ⟨f, .returned⟩ ∈ s.journal ∧ f.call = .revealForAudit id p

/-- What has been accepted is the preimage of the record. -/
lemma opens_of_accepted {id : Word} {p : Preimage} (books : Books keccak256 s)
    (accepted : Accepted keccak256 s id p) : Opens keccak256 p (s.storage.records id) := by
  rcases accepted with ⟨f, verified⟩ | ⟨f, returned, call⟩
  · have wp : (verifyCommitment keccak256 id p).wp (fun _ _ => True) f
        (fun r _ => r = .ok true → Opens keccak256 p (s.storage.records id)) s := by
      refine Code.wp_read_bind.2 (Code.wp_require_bind.2 ⟨fun status => ?_, fun _ => nofun⟩)
      exact fun eq => ⟨status, of_decide_eq_true (Except.ok.inj eq)⟩
    exact Code.wp_sound (s := (s, ())) (fun _ _ => trivial) wp verified
  · exact (books.explained _ returned).returned rfl id p call

/-- In every run a record moves from nothing to recorded to revealed, and all else of it stays. It was
    written by a registrar of that moment, every reveal was attested by an auditor of that moment for
    the preimage of the record, and no two preimages are accepted for one settlement, unless their
    hashes collide. -/
theorem records_bound {initialOwner : Address} {s₀ : Account (abi oz)}
    {ts ts' : List (Transaction (abi oz))} (init : construct oz initialOwner = .ok s₀)
    (ran : run (contract keccak256) s₀ ts = s) (later : run (contract keccak256) s ts' = s') :
    (∀ id, Moves (s.storage.records id) (s'.storage.records id) ∧
      ((s.storage.records id).status ≠ .none →
        Stays (s.storage.records id) (s'.storage.records id))) ∧
      (∀ id, (s'.storage.records id).status ≠ .none → ∃ p ∈ recordings s'.journal,
        p.2.settlementId = id ∧ Writes keccak256 p (s'.storage.records id)) ∧
      (∀ p ∈ reveals s'.journal, Attests keccak256 p (s'.storage.records p.2.settlementId)) ∧
      ∀ id p p', Accepted keccak256 s id p → Accepted keccak256 s' id p' →
        (keccak256 p.words = keccak256 p'.words → p.words = p'.words) → p = p' := by
  subst ran later
  have before : Books keccak256 (run (contract keccak256) s₀ ts) :=
    (guarantee.run s₀ ts).books (books_construct init)
  have guards : Guards keccak256 _ _ := guarantee.run (run (contract keccak256) s₀ ts) ts'
  have after := guards.books before
  refine ⟨fun id => ⟨guards.moves id, stays_of_moves (guards.moves id)⟩, fun id known => ?_,
    fun p mem => ?_, fun id p p' accepted accepted' collisionFree => ?_⟩
  · obtain ⟨p, mem, rfl⟩ := List.mem_map.1 (after.known id known)
    obtain ⟨r, noted, announced⟩ := List.mem_filterMap.1 mem
    exact ⟨p, mem, rfl, (after.explained r noted).recorded p announced⟩
  · obtain ⟨r, noted, announced⟩ := List.mem_filterMap.1 mem
    exact (after.explained r noted).revealed p announced
  · have opens := (opens_of_accepted before accepted).stays (guards.moves id)
    have opens' := opens_of_accepted after accepted'
    exact Preimage.words_injective
      (collisionFree (opens.commitment.symm.trans opens'.commitment))

end

/-- A hash for a concrete run. -/
def sampleHash (preimage : List Word) : Word := .ofNat 256 (preimage.length + 1)

/-- The preimage of the concrete run. -/
def samplePreimage : Preimage := ⟨1000000, 4, 5, 6⟩

/-- The owner makes account 2 a registrar and account 3 an auditor, and the registrar records a
    settlement. -/
def sampleRecording : List (Transaction (abi .standard)) :=
  [⟨⟨1, 0, .setRegistrar 2 true⟩, 1, []⟩, ⟨⟨1, 1, .setAuditor 3 true⟩, 1, []⟩,
    ⟨⟨2, 2, .recordSettlement 7 (sampleHash samplePreimage.words) []⟩, 1, []⟩]

/-- The registrar may not record it again, and the auditor reveals it. -/
def sampleReveal : List (Transaction (abi .standard)) :=
  [⟨⟨2, 3, .recordSettlement 7 8 []⟩, 1, []⟩,
    ⟨⟨3, 4, .revealForAudit (sampleHash [7]) samplePreimage⟩, 1, []⟩]

/-- The state once the settlement is recorded. -/
def sampleState : Account (abi .standard) :=
  run (contract sampleHash) sampleRegistry sampleRecording

/-- The record that is revealed later. -/
theorem records_bound_of_reveal : (sampleState.storage.records 2).status = .recorded ∧
    ((run (contract sampleHash) sampleState sampleReveal).storage.records 2).status = .revealed ∧
    Stays (sampleState.storage.records 2)
      ((run (contract sampleHash) sampleState sampleReveal).storage.records 2) := by
  have init : construct .standard 1 = .ok sampleRegistry := rfl
  exact ⟨by decide, by decide, ((records_bound init rfl rfl).1 2).2 (by decide)⟩

end AvaSettle.Contracts.PrivateSettlementRegistry
