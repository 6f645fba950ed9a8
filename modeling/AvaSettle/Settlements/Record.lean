import AvaSettle.Async.Sequential
import AvaSettle.Settlements.Service

/-!
# What a recorded settlement leaves in the ledger

`record` inserts the preimage of a commitment, publishes the commitment, and deletes the preimage
again where anything throws. What is left of a call that has published is decided by the operations
from the submission on: the preimage is there unless one of them threw and the deletion was performed.
-/

namespace AvaSettle.Settlements
open Async
open Blockchain
open Data (Table)

/-! ## What a history says -/

/-- The id that an event drew. -/
def drawnOf : Event Api → Option Uuid
  | ⟨.randomUUID, .done id⟩ => some id
  | _ => none

/-- The commitment was submitted to the registry. -/
def publishes (commitment : Hex) : Event Api → Bool
  | ⟨.submit _ (.recordSettlement _ _ c _) _, o⟩ => decide (c = commitment) && o.performed.isSome
  | _ => false

/-- An awaited step from the submission on threw: the submission, the wait for its receipt, the
    ledger update or the audit write. -/
def throwsLate : Event Api → Bool
  | ⟨.submit _ _ _, o⟩ => o.threw
  | ⟨.waitForTransactionReceipt _, o⟩ => o.threw
  | ⟨.settlementUpdate _ _, o⟩ => o.threw
  | ⟨.auditInsert _, o⟩ => o.threw
  | _ => false

/-- The deletion had no effect. -/
def refusesDelete : Event Api → Bool
  | ⟨.settlementDelete _, .refused _⟩ => true
  | _ => false

/-- The ids that the call has drawn. -/
def drawn (h : Hist Api) : List Uuid := h.filterMap drawnOf

/-- The call submitted the commitment. -/
def Published (commitment : Hex) (h : Hist Api) : Prop := ∃ e ∈ h, publishes commitment e = true

/-- An awaited step of the call, from the submission on, threw. -/
def ThrewLate (h : Hist Api) : Prop := ∃ e ∈ h, throwsLate e = true

/-- The deletion of the call had no effect. -/
def DeleteRefused (h : Hist Api) : Prop := ∃ e ∈ h, refusesDelete e = true

/-! ## The preimage -/

/-- The preimage that a row holds. -/
def preimage (r : PrivateSettlementRecord) : Nat × Hex × Hex × Hex :=
  (r.amountAtomic, r.tokenAddress, r.counterparty, r.nonce)

/-- The row holds the preimage of the commitment. -/
def Opens (d : Deployment) (commitment : Hex) (r : PrivateSettlementRecord) : Prop :=
  computeSettlementCommitment d r.amountAtomic r.tokenAddress r.counterparty r.nonce = .ok commitment

/-- The row of the call still holds the preimage of the commitment. -/
def Kept (d : Deployment) (commitment : Hex) (w : World) (h : Hist Api) : Prop :=
  ∃ r ∈ w.settlements.rows, r.id ∈ drawn h ∧ Opens d commitment r

/-- What the rest of the world may do meanwhile: anything, but other calls have rows of their own, and
    leave the preimage in the row of this call as it is. -/
def Elsewhere (h : Hist Api) (w w' : World) : Prop :=
  ∀ id ∈ drawn h, (w'.settlements.find? id).map preimage = (w.settlements.find? id).map preimage

section
variable {d : Deployment} {commitment c : Hex} {id : Uuid} {w w' : World} {h : Hist Api}
  {e : Event Api}

/-- The ids that have been drawn once one more event has passed. -/
lemma drawn_append : drawn (h ++ [e]) = drawn h ++ (drawnOf e).toList := by
  cases eq : drawnOf e <;> simp [drawn, eq]

/-- What has been published once one more event has passed. -/
lemma published_append : Published c (h ++ [e]) ↔ Published c h ∨ publishes c e = true := by
  simp [Published, or_and_right, exists_or]

/-- What has thrown late once one more event has passed. -/
lemma threwLate_append : ThrewLate (h ++ [e]) ↔ ThrewLate h ∨ throwsLate e = true := by
  simp [ThrewLate, or_and_right, exists_or]

/-- What has not been deleted once one more event has passed. -/
lemma deleteRefused_append : DeleteRefused (h ++ [e]) ↔ DeleteRefused h ∨ refusesDelete e = true := by
  simp [DeleteRefused, or_and_right, exists_or]

/-- A commitment is opened by the preimage. -/
lemma Opens.of_preimage {r r' : PrivateSettlementRecord} (opens : Opens d commitment r)
    (eq : preimage r' = preimage r) : Opens d commitment r' := by
  simp only [preimage, Prod.mk.injEq] at eq
  obtain ⟨amount, token, counterparty, nonce⟩ := eq
  rw [Opens, amount, token, counterparty, nonce]
  exact opens

/-! ## States of the call -/

/-- Nothing that counts has happened. -/
structure Quiet (h : Hist Api) : Prop where
  unpublished : ∀ c, ¬Published c h
  inTime : ¬ThrewLate h
  undeleted : ¬DeleteRefused h

/-- The row of the call is in the ledger. -/
structure Stored (d : Deployment) (commitment : Hex) (id : Uuid) (w : World) (h : Hist Api) :
    Prop where
  drawn : drawn h = [id]
  row : ∃ r, w.settlements.find? id = some r ∧ Opens d commitment r
  own : ∀ c, Published c h → c = commitment
  undeleted : ¬DeleteRefused h

/-- What is owed of a finished call: of a commitment that was published the preimage is kept unless
    something threw late and the deletion was performed. -/
def Owed (d : Deployment) (w : World) (h : Hist Api) : Prop :=
  ∀ c, Published c h → (Kept d c w h ↔ ¬ThrewLate h ∨ DeleteRefused h)

/-- A call that has published nothing owes nothing. -/
lemma Quiet.owed (quiet : Quiet h) : Owed d w h :=
  fun c published => absurd published (quiet.unpublished c)

/-- A call that has done nothing is quiet. -/
lemma quiet_nil : Quiet [] := by
  constructor <;> simp [Published, ThrewLate, DeleteRefused]

/-- A call stays quiet with an event that does not count. -/
lemma Quiet.append (quiet : Quiet h) (unpublished : ∀ c, publishes c e = false)
    (inTime : throwsLate e = false) (undeleted : refusesDelete e = false) : Quiet (h ++ [e]) where
  unpublished c published := by
    rw [published_append, unpublished c] at published
    exact published.elim (quiet.unpublished c) nofun
  inTime late := by
    rw [threwLate_append, inTime] at late
    exact late.elim quiet.inTime nofun
  undeleted refused := by
    rw [deleteRefused_append, undeleted] at refused
    exact refused.elim quiet.undeleted nofun

/-- The row stays while the other calls leave it. -/
lemma Stored.move (stored : Stored d commitment id w h) (move : Elsewhere h w w') :
    Stored d commitment id w' h where
  drawn := stored.drawn
  row := by
    obtain ⟨r, found, opens⟩ := stored.row
    have same := move id (stored.drawn ▸ List.mem_singleton_self id)
    rw [found] at same
    obtain ⟨r', found', eq⟩ := Option.map_eq_some_iff.1 same
    exact ⟨r', found', opens.of_preimage eq⟩
  own := stored.own
  undeleted := stored.undeleted

/-- A stored row keeps the preimage of what was published. -/
lemma Stored.kept (stored : Stored d commitment id w h) (published : Published c h) :
    Kept d c w h := by
  obtain rfl := stored.own c published
  obtain ⟨r, found, opens⟩ := stored.row
  obtain ⟨mem, rfl⟩ := Table.find?_eq_some_iff.1 found
  exact ⟨r, mem, stored.drawn ▸ List.mem_singleton_self _, opens⟩

/-- A stored row owes nothing unless something has thrown late. -/
lemma Stored.owed (stored : Stored d commitment id w h) (inTime : ¬ThrewLate h) : Owed d w h :=
  fun _ published => ⟨fun _ => .inl inTime, fun _ => stored.kept published⟩

/-! ## Operations -/

/-- An operation from the submission on leaves the row where it is. -/
lemma leads_late {op : Call} (late : ∀ o, throwsLate ⟨op, o⟩ = o.threw)
    (own : ∀ c o, publishes c ⟨op, o⟩ = true → c = commitment)
    (undrawn : ∀ o, drawnOf ⟨op, o⟩ = none) (undeleted : ∀ o, refusesDelete ⟨op, o⟩ = false)
    (keeps : ∀ w b w' r, World.exec op w = some (b, w') → w.settlements.find? id = some r →
      ∃ r', w'.settlements.find? id = some r' ∧ preimage r' = preimage r)
    (stored : Stored d commitment id w h) (inTime : ¬ThrewLate h) :
    services.Leads Elsewhere op
      (fun o w h => Stored d commitment id w h ∧ (ThrewLate h ↔ o.threw = true)) w h := by
  intro w₁ o w₂ move reply _
  have before := stored.move move
  obtain ⟨r, found, opens⟩ := before.row
  have performed : ∀ b, World.exec op w₁ = some (b, w₂) →
      ∃ r', w₂.settlements.find? id = some r' ∧ Opens d commitment r' := fun b run => by
    obtain ⟨r', found', eq⟩ := keeps w₁ b w₂ r run found
    exact ⟨r', found', opens.of_preimage eq⟩
  refine ⟨⟨?_, ?_, fun c published => ?_, fun refused => ?_⟩, ?_⟩
  · rw [drawn_append, undrawn, stored.drawn]
    rfl
  · cases o with
    | done b => exact performed b reply
    | refused e =>
      obtain ⟨-, rfl⟩ := reply
      exact before.row
    | lost b e => exact performed b reply.1
  · exact (published_append.1 published).elim (stored.own c) (own c o)
  · rw [deleteRefused_append, undeleted] at refused
    exact refused.elim stored.undeleted nofun
  · rw [threwLate_append, late]
    exact ⟨fun h => h.elim (fun h => absurd h inTime) fun threw => threw, .inr⟩

/-- What the body of the `try` leaves: where it throws, it has thrown late or published nothing. -/
def Tried (d : Deployment) (commitment : Hex) (id : Uuid) {β : Type} : End Api World β
  | .ok _, w, h => Stored d commitment id w h ∧ ¬ThrewLate h
  | .error _, w, h => Stored d commitment id w h ∧ (ThrewLate h ∨ ∀ c, ¬Published c h)

/-- A step from the submission on, and what follows it where it does not throw. -/
lemma wp_late {β : Type} {op : Call} {f : op.Res → Method β}
    (late : ∀ o, throwsLate ⟨op, o⟩ = o.threw)
    (own : ∀ c o, publishes c ⟨op, o⟩ = true → c = commitment)
    (undrawn : ∀ o, drawnOf ⟨op, o⟩ = none) (undeleted : ∀ o, refusesDelete ⟨op, o⟩ = false)
    (keeps : ∀ w b w' r, World.exec op w = some (b, w') → w.settlements.find? id = some r →
      ∃ r', w'.settlements.find? id = some r' ∧ preimage r' = preimage r)
    (stored : Stored d commitment id w h) (inTime : ¬ThrewLate h)
    (next : ∀ b w h, Stored d commitment id w h → ¬ThrewLate h →
      services.wp Elsewhere (f b) (Tried d commitment id) w h) :
    services.wp Elsewhere (request op >>= f) (Tried d commitment id) w h := by
  refine Machine.wp_bind (Machine.wp_await (Machine.leads_mono ?_
    (leads_late late own undrawn undeleted keeps stored inTime)))
  rintro o w h ⟨stored, threw⟩
  cases o with
  | done b => exact next b w h stored (threw.not.2 nofun)
  | refused e => exact ⟨stored, .inl (threw.2 rfl)⟩
  | lost b e => exact ⟨stored, .inl (threw.2 rfl)⟩

/-- What an operation that does not write settlements keeps. -/
lemma keeps_of_eq {op : Call}
    (same : ∀ w b w', World.exec op w = some (b, w') → w'.settlements = w.settlements) :
    ∀ w b w' r, World.exec op w = some (b, w') → w.settlements.find? id = some r →
      ∃ r', w'.settlements.find? id = some r' ∧ preimage r' = preimage r := by
  intro w b w' r run found
  rw [same w b w' run]
  exact ⟨r, found, rfl⟩

/-- The audit leaves the settlements. -/
lemma settlements_of_audit {input : AuditInput} {b : Unit}
    (run : World.exec (.auditInsert input) w = some (b, w')) : w'.settlements = w.settlements := by
  cases run
  unfold World.insertAudit
  split
  case isTrue => rfl
  case isFalse => rfl

/-- The wait for a receipt leaves them. -/
lemma settlements_of_wait {hash : Hex} {b : Receipt}
    (run : World.exec (.waitForTransactionReceipt hash) w = some (b, w')) :
    w'.settlements = w.settlements := by
  obtain ⟨_, -, eq⟩ := Option.map_eq_some_iff.1 run
  cases eq
  rfl

/-- An update of a settlement leaves its preimage alone. -/
lemma keeps_of_update {patch : PrivateSettlementPatch} {b : Option PrivateSettlementRecord}
    {r : PrivateSettlementRecord} (run : World.exec (.settlementUpdate id patch) w = some (b, w'))
    (found : w.settlements.find? id = some r) :
    ∃ r', w'.settlements.find? id = some r' ∧ preimage r' = preimage r := by
  cases run
  change ∃ r', (w.settlements.update _ _ _).2.find? id = some r' ∧ _
  rw [Table.find?_update, found]
  exact ⟨_, rfl, by simp [PrivateSettlementPatch.toPatch, PrivateSettlementPatch.applyTo, preimage]⟩

/-- The submission: configuration errors come before it, and the wait for the receipt after. -/
lemma wp_recordPrivateSettlement {settlementRef : Hex} (stored : Stored d commitment id w h)
    (quiet : Quiet h) : services.wp Elsewhere (recordPrivateSettlement d settlementRef commitment)
      (Tried d commitment id) w h := by
  refine Machine.wp_bind (Machine.wp_ofExcept.2 ?_)
  cases requireRegistryAddress d with
  | error e => exact ⟨stored, .inr quiet.unpublished⟩
  | ok registry =>
    refine Machine.wp_bind (Machine.wp_ofExcept.2 ?_)
    cases requireRegistrarAccount d with
    | error e => exact ⟨stored, .inr quiet.unpublished⟩
    | ok account =>
      refine wp_late (fun _ => rfl) (fun c o published => ?_) (fun _ => rfl) (fun _ => rfl)
        (keeps_of_eq fun w b w' run => ?_) stored quiet.inTime fun hash w h stored inTime => ?_
      · exact (of_decide_eq_true (Bool.and_eq_true_iff.1 published).1).symm
      · cases run
        rfl
      · unfold toTransferExecution
        split
        case isTrue =>
          exact wp_late (fun _ => rfl) (fun _ _ => nofun) (fun _ => rfl) (fun _ => rfl)
            (keeps_of_eq fun _ _ _ => settlements_of_wait) stored inTime
            fun receipt w h stored inTime => ⟨stored, inTime⟩
        case isFalse => exact ⟨stored, inTime⟩

/-- The body of the `try` keeps the row. -/
lemma wp_publish {context : RequestContext} {settlementRef settlementId : Hex}
    {record : PrivateSettlementRecord} (key : record.id = id)
    (stored : Stored d commitment id w h) (quiet : Quiet h) :
    services.wp Elsewhere (publish d context settlementRef settlementId commitment record)
      (Tried d commitment id) w h := by
  subst key
  refine Machine.wp_bind (Machine.wp_mono (fun r w h tried => ?_)
    (wp_recordPrivateSettlement stored quiet))
  cases r with
  | error e => exact tried
  | ok exec =>
    refine wp_late (fun _ => rfl) (fun _ _ => nofun) (fun _ => rfl) (fun _ => rfl)
      (fun _ _ _ _ => keeps_of_update) tried.1 tried.2 fun updated w h stored inTime => ?_
    exact wp_late (fun _ => rfl) (fun _ _ => nofun) (fun _ => rfl) (fun _ => rfl)
      (keeps_of_eq fun _ _ _ => settlements_of_audit) stored inTime
      fun _ w h stored inTime => ⟨stored, inTime⟩

/-- The deletion, where it is performed, takes the preimage away. -/
lemma wp_release {error : Exception} (stored : Stored d commitment id w h)
    (thrown : ThrewLate h ∨ ∀ c, ¬Published c h) :
    services.wp Elsewhere (release id error) (fun _ => Owed d) w h := by
  refine Machine.wp_bind (Machine.wp_await fun w₁ o w₂ move reply _ => ?_)
  have before := stored.move move
  have published {c : Hex} (published : Published c (h ++ [⟨.settlementDelete id, o⟩])) :
      Published c h := (published_append.1 published).elim (fun h => h) nofun
  have late {c : Hex} (p : Published c (h ++ [⟨.settlementDelete id, o⟩])) :
      ThrewLate (h ++ [⟨.settlementDelete id, o⟩]) :=
    thrown.elim (fun late => threwLate_append.2 (.inl late)) fun none =>
      absurd (published p) (none c)
  -- the row is gone, and the deletion was not refused
  have gone (undeleted : refusesDelete ⟨.settlementDelete id, o⟩ = false)
      (run : World.exec (.settlementDelete id) w₁ = some ((), w₂)) :
      Owed d w₂ (h ++ [⟨.settlementDelete id, o⟩]) := fun c p => by
    refine ⟨fun ⟨r, mem, own, _⟩ => ?_, fun kept => ?_⟩
    · cases run
      rw [drawn_append, stored.drawn] at own
      obtain rfl := List.mem_singleton.1 own
      have found := Table.find?_of_mem mem
      rw [Table.find?_erase, if_pos rfl] at found
      cases found
    · rw [deleteRefused_append, undeleted] at kept
      rcases kept with inTime | refused | refused
      · exact absurd (late p) inTime
      · exact absurd refused stored.undeleted
      · cases refused
  cases o with
  | done b => exact gone rfl reply
  | lost b e => exact gone rfl reply.1
  | refused e =>
    obtain ⟨-, rfl⟩ := reply
    intro c p
    obtain ⟨r, mem, own, opens⟩ := before.kept (published p)
    refine ⟨fun _ => .inr (deleteRefused_append.2 (.inr rfl)), fun _ => ⟨r, mem, ?_, opens⟩⟩
    rw [drawn_append]
    exact List.mem_append_left _ own

/-! ## Creation -/

/-- What the claim of the external id leaves: the row of this call, or the row of another one. -/
def Claimed (d : Deployment) (commitment : Hex) (id : Uuid) :
    End Api World (PrivateSettlementRecord × Bool)
  | .ok (record, false), w, h => record.id = id ∧ Stored d commitment id w h ∧ Quiet h
  | _, _, h => Quiet h

/-- A row that was inserted is found, with the preimage that was inserted. -/
lemma found_of_insert {input record : PrivateSettlementRecord}
    (run : w.insertSettlement input = some (some record, w')) :
    w'.settlements.find? input.id = some record ∧ record.id = input.id ∧
      preimage record = preimage input := by
  unfold World.insertSettlement at run
  split at run
  case isTrue => cases run
  case isFalse =>
    obtain ⟨t, inserted, eq⟩ := Option.map_eq_some_iff.1 run
    cases eq
    refine ⟨?_, rfl, rfl⟩
    rw [Table.find?_insert inserted]
    exact if_pos rfl

/-- The claim of the external id stores the row, or finds another. -/
lemma wp_createOrGetExisting {input : PrivateSettlementRecord} (opens : Opens d commitment input)
    (own : drawn h = [input.id]) (quiet : Quiet h) :
    services.wp Elsewhere (createOrGetExisting input) (Claimed d commitment input.id) w h := by
  refine Machine.wp_bind (Machine.wp_await fun w₁ o w₂ _ reply _ => ?_)
  have quiet' : Quiet (h ++ [⟨.settlementInsert input, o⟩]) := quiet.append (fun _ => rfl) rfl rfl
  cases o with
  | refused e => exact quiet'
  | lost b e => exact quiet'
  | done b =>
    cases b with
    | none =>
      refine Machine.wp_bind (Machine.wp_await fun w₁ o w₂ _ reply _ => ?_)
      have quiet'' := quiet'.append (e := ⟨.settlementFindByExternalId input.clientId
        input.externalId, o⟩) (fun _ => rfl) rfl rfl
      cases o with
      | refused e => exact quiet''
      | lost b e => exact quiet''
      | done existing =>
        refine Machine.wp_bind ?_
        cases existing with
        | none => exact quiet''
        | some record => exact quiet''
    | some record =>
      obtain ⟨found, key, same⟩ := found_of_insert (w := w₁) reply
      refine ⟨key, ⟨?_, ⟨record, found, opens.of_preimage same⟩, fun c published => ?_, ?_⟩, quiet'⟩
      · rw [drawn_append, own]
        rfl
      · exact absurd published (quiet'.unpublished c)
      · exact quiet'.undeleted

/-- Before anything has happened, a call may fail. -/
lemma wp_ofExcept {α β : Type} {x : Except Exception α} {f : α → Method β} (quiet : Quiet h)
    (next : ∀ a, x = .ok a → services.wp Elsewhere (f a) (fun _ => Owed d) w h) :
    services.wp Elsewhere (.ofExcept x >>= f) (fun _ => Owed d) w h := by
  refine Machine.wp_bind (Machine.wp_ofExcept.2 ?_)
  cases eq : x with
  | ok a => exact next a eq
  | error e => exact quiet.owed

/-- The random bytes and the id are drawn before anything has happened. -/
lemma wp_draw {β : Type} {op : Call} {f : op.Res → Method β} (unpublished : ∀ c o, publishes c ⟨op, o⟩ = false)
    (inTime : ∀ o, throwsLate ⟨op, o⟩ = false) (undeleted : ∀ o, refusesDelete ⟨op, o⟩ = false)
    (quiet : Quiet h) (next : ∀ b w h', drawn h' = drawn h ++ (drawnOf ⟨op, .done b⟩).toList →
      Quiet h' → services.wp Elsewhere (f b) (fun _ => Owed d) w h') :
    services.wp Elsewhere (request op >>= f) (fun _ => Owed d) w h := by
  refine Machine.wp_bind (Machine.wp_await fun w₁ o w₂ _ _ _ => ?_)
  have quiet' : Quiet (h ++ [⟨op, o⟩]) :=
    quiet.append (fun c => unpublished c o) (inTime o) (undeleted o)
  cases o with
  | done b => exact next b w₂ _ drawn_append quiet'
  | refused e => exact quiet'.owed
  | lost b e => exact quiet'.owed

/-- A call of `record`, from the beginning to the end. -/
lemma wp_record {dto : CreateSettlementDto} {context : RequestContext} :
    services.wp Elsewhere (record d dto context) (fun _ => Owed d) w [] := by
  have quiet : Quiet [] := quiet_nil
  refine Machine.wp_bind (Machine.wp_require (fun _ => ?_) fun _ => quiet.owed)
  refine Machine.wp_bind ?_
  cases (d.getAssetConfig dto.asset).address with
  | none => exact quiet.owed
  | some tokenAddress =>
    refine wp_ofExcept quiet fun amountAtomic _ => wp_ofExcept quiet fun counterparty _ => ?_
    refine wp_draw (fun _ _ => rfl) (fun _ => rfl) (fun _ => rfl) quiet fun nonce w h undrawn quiet => ?_
    refine wp_ofExcept quiet fun settlementId _ => wp_ofExcept quiet fun commitment opens => ?_
    refine wp_draw (fun _ _ => rfl) (fun _ => rfl) (fun _ => rfl) quiet fun id w h own quiet => ?_
    rw [undrawn] at own
    refine Machine.wp_bind (Machine.wp_mono (fun r w h claimed => ?_)
      (wp_createOrGetExisting opens own quiet))
    rcases r with e | ⟨record, existed⟩
    · exact Quiet.owed claimed
    · cases existed with
      | true => exact Quiet.owed claimed
      | false =>
        obtain ⟨key, stored, quiet⟩ := claimed
        refine Machine.wp_tryCatch (Machine.wp_mono (fun r w h tried => ?_)
          (wp_publish key stored quiet))
        cases r with
        | ok response => exact tried.1.owed tried.2
        | error e => exact key ▸ wp_release tried.1 tried.2

/-- The preimage of a published commitment is kept, unless something threw late and the deletion was
    performed. -/
theorem preimage_kept_iff {dto : CreateSettlementDto} {context : RequestContext} {r}
    (run : services.Runs Elsewhere (record d dto context) w [] r w' h) (published : Published c h) :
    Kept d c w' h ↔ ¬ThrewLate h ∨ DeleteRefused h :=
  Machine.wp_sound run wp_record c published

end

/-! ## Concrete calls -/

/-- A deployment with a registry. -/
def registryDeployment : Deployment :=
  { Deployment.sample with
    privateSettlementRegistryAddress := some sampleAddress
    settlementRegistrarPrivateKey :=
      some "0x0000000000000000000000000000000000000000000000000000000000000001" }

/-- A settlement of one USDC. -/
def sampleSettlement : CreateSettlementDto :=
  ⟨"inv-1", .usdc, "1", sampleAddress, none⟩

/-- The commitment to it. -/
def sampleCommitment : Hex := "0x2ea1d518582380360d4feb177e8a29ddf9f476aaff2c7a9bc4ed6080a446ee84"

/-- The call that records it, with the fates chosen for its operations. -/
def sampleRecord (fates : List (Async.Fate Exception)) (w : World) :=
  services.play Machine.always (record registryDeployment sampleSettlement .sample) fates w []

/-- A world in which every transaction has been mined. -/
def minedWorld : World :=
  { World.sample with chain := { World.sampleChain with receipts := fun _ => some ⟨.success, 1⟩ } }

/-- A run of the concrete recording that the evaluation finds. -/
lemma runs_of_sampleRecord (fates : List (Async.Fate Exception)) (p : World → Hist Api → Bool)
    (res : (sampleRecord fates minedWorld).any (fun q => p q.2.1 q.2.2) = true) :
    ∃ r w' h, services.Runs Elsewhere (record registryDeployment sampleSettlement .sample) minedWorld []
      r w' h ∧ p w' h = true := by
  obtain ⟨⟨r, w', h⟩, played, holds⟩ := (Option.any_eq_true _ _).1 res
  exact ⟨r, w', h, Machine.runs_of_play (fun _ _ _ _ => trivial) (fun _ _ _ _ => rfl) played, holds⟩

/-- A settlement that is recorded. -/
theorem preimage_kept_of_recorded : ∃ r w' h, services.Runs Elsewhere
    (record registryDeployment sampleSettlement .sample) minedWorld [] r w' h ∧
      Published sampleCommitment h ∧
        (Kept registryDeployment sampleCommitment w' h ↔ ¬ThrewLate h ∨ DeleteRefused h) := by
  obtain ⟨r, w', h, run, res⟩ := runs_of_sampleRecord (.replicate 7 .done)
    (fun _ h => h.any (publishes sampleCommitment)) (by decide)
  have published : Published sampleCommitment h := List.any_eq_true.1 res
  exact ⟨r, w', h, run, published, preimage_kept_iff run published⟩

/-- A settlement whose receipt the node fails to deliver: the commitment is public, and its preimage
    is gone. -/
theorem preimage_lost : ∃ r w' h, services.Runs Elsewhere
    (record registryDeployment sampleSettlement .sample) minedWorld [] r w' h ∧
      Published sampleCommitment h ∧ ¬Kept registryDeployment sampleCommitment w' h := by
  obtain ⟨r, w', h, run, res⟩ := runs_of_sampleRecord
    (.replicate 4 .done ++ [.refused .unknown, .done])
    (fun w h => h.any (publishes sampleCommitment) && w.settlements.rows.isEmpty) (by decide)
  rw [Bool.and_eq_true] at res
  refine ⟨r, w', h, run, List.any_eq_true.1 res.1, ?_⟩
  rintro ⟨row, mem, -⟩
  rw [List.isEmpty_iff.1 res.2] at mem
  cases mem

end AvaSettle.Settlements
