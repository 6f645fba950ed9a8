import AvaSettle.Payins.Calls

/-!
# Calm operations

The operations of the pay-in calls that neither write what a client is told of a pay-in nor tell a
client that one is confirmed. All but the writes of a reconciliation and of a manual acceptance, and the
webhook that follows them, are of this kind.
-/

namespace AvaSettle.Payins
open Async
open Data (Table)
open Blockchain

/-! ## Worlds -/

/-- The client has been told of the pay-in. -/
def Announced (c : String) (id : Uuid) (w : World) : Prop :=
  ∃ e ∈ w.outbox, e.clientId = c ∧ e.announces "payin.confirmed" id = true

/-- The columns that decide what a client has to be told. -/
def marks (r : PayInRecord) : Option String × PayInStatus × Option Timestamp :=
  (r.clientId, r.status, r.confirmedAt)

/-- The webhook tells of a confirmed pay-in. -/
def isConfirmation (e : OutboxEvent) : Bool := decide (e.event = "payin.confirmed")

/-- The pay-ins stay what clients have been told of them, and nobody is told anything new. -/
structure Calm (w w' : World) : Prop where
  row : ∀ id, (w'.payins.find? id).map marks = (w.payins.find? id).map marks
  outbox : w'.outbox.filter isConfirmation = w.outbox.filter isConfirmation

/-- The operation neither writes what clients are told of nor tells them. -/
def IsCalm : Call → Prop
  | .outboxInsert _ event _ => event ≠ "payin.confirmed"
  | c => isAside c = true

/-- The operation is calm, or inserts a new pay-in. -/
def IsHarmless : Call → Prop
  | .payInInsert r => r.status = .pending ∧ r.confirmedAt = none
  | c => IsCalm c

section
variable {w w' w'' : World} {c : String} {id k : Uuid} {r r' u : PayInRecord} {patch : PayInPatch}
  {guard : PayInUpdateGuard}

/-- Staying is calm. -/
lemma Calm.refl : Calm w w := ⟨fun _ => rfl, rfl⟩

/-- Two calm moves are one. -/
lemma Calm.trans (h₁ : Calm w w') (h₂ : Calm w' w'') : Calm w w'' :=
  ⟨fun id => (h₂.row id).trans (h₁.row id), h₂.outbox.trans h₁.outbox⟩

/-- A row after a calm move was there before, with the same marks. -/
lemma Calm.found (calm : Calm w w') (found : w'.payins.find? id = some r) :
    ∃ r₀, w.payins.find? id = some r₀ ∧ marks r = marks r₀ := by
  have same := calm.row id
  rw [found] at same
  obtain ⟨r₀, before, eq⟩ := Option.map_eq_some_iff.1 same.symm
  exact ⟨r₀, before, eq.symm⟩

/-- A calm move is calm backwards. -/
lemma Calm.symm (calm : Calm w w') : Calm w' w :=
  ⟨fun id => (calm.row id).symm, calm.outbox.symm⟩

/-- A webhook that announces is a confirmation. -/
lemma isConfirmation_of_announces {e : OutboxEvent} (announces : e.announces "payin.confirmed" id = true) :
    isConfirmation e = true :=
  (Bool.and_eq_true_iff.1 announces).1

/-- A calm move announces nothing. -/
lemma Calm.announced (calm : Calm w w') (c : String) (id : Uuid) :
    Announced c id w' ↔ Announced c id w := by
  have kept {w w' : World} (same : w'.outbox.filter isConfirmation = w.outbox.filter isConfirmation)
      (announced : Announced c id w) : Announced c id w' := by
    obtain ⟨e, mem, client, announces⟩ := announced
    have mem' := List.mem_filter.2 ⟨mem, isConfirmation_of_announces announces⟩
    rw [← same] at mem'
    exact ⟨e, (List.mem_filter.1 mem').1, client, announces⟩
  exact ⟨kept calm.outbox.symm, kept calm.outbox⟩

/-- A move that keeps pay-ins and outbox is calm. -/
lemma calm_of_same (payins : w'.payins = w.payins) (outbox : w'.outbox = w.outbox) : Calm w w' :=
  ⟨fun _ => by rw [payins], by rw [outbox]⟩

/-- A calm operation moves the world calmly. -/
lemma calm_exec {op : Call} {b : op.Res} (run : World.exec op w = some (b, w')) (calm : IsCalm op) :
    Calm w w' := by
  by_cases update : ∃ id p g, op = .payInUpdate id p g
  · obtain ⟨id, p, g, rfl⟩ := update
    cases run
    refine ⟨fun k => ?_, rfl⟩
    change (Table.find? (Table.update _ _ _ _).2 k).map marks = _
    rw [Table.find?_update, Option.map_map]
    refine Option.map_congr fun r _ => ?_
    change sweepOnly p = true at calm
    simp only [sweepOnly, Bool.and_eq_true, Option.isNone_iff_eq_none] at calm
    simp only [Function.comp_apply]
    split
    · simp [marks, PayInPatch.toPatch, PayInPatch.applyTo, calm]
    · rfl
  · have insert : ∀ r, op ≠ .payInInsert r := by
      rintro r rfl
      cases calm
    have payins := (exec_elsewhere insert (fun id p g eq => update ⟨id, p, g, eq⟩) run).1
    by_cases tell : ∃ clientId event payload, op = .outboxInsert clientId event payload
    · obtain ⟨clientId, event, payload, rfl⟩ := tell
      cases run
      refine ⟨fun _ => rfl, ?_⟩
      change event ≠ "payin.confirmed" at calm
      simp [World.insertOutbox, isConfirmation, calm]
    · exact calm_of_same payins
        (World.outbox_exec_of_ne run fun clientId event payload eq => tell ⟨_, _, _, eq⟩)

/-- A quiet operation is calm. -/
lemma isCalm_of_isQuiet {op : Call} (quiet : isQuiet op = true) : IsCalm op := by
  cases op
  case outboxInsert => cases quiet
  all_goals exact quiet

/-! ## Updates -/

/-- An update leaves the other rows. -/
lemma find?_update_of_ne (ne : k ≠ id) :
    (w.updatePayIn id patch guard).2.payins.find? k = w.payins.find? k := by
  change Table.find? (Table.update _ _ _ _).2 k = _
  rw [Table.find?_update]
  cases w.payins.find? k <;> simp [ne]

/-- What is known of a row that an update has written. -/
structure Wrote (w w' : World) (id : Uuid) (patch : PayInPatch) (r u : PayInRecord) : Prop where
  before : w.payins.find? id = some r
  after : w'.payins.find? id = some u
  row : u = patch.applyTo w.now r
  others : ∀ k, k ≠ id → w'.payins.find? k = w.payins.find? k
  outbox : w'.outbox = w.outbox

/-- An update returns the row that it has written, or has written none. -/
lemma wrote_or_calm (w : World) (id : Uuid) (patch : PayInPatch) (guard : PayInUpdateGuard) :
    (∃ r u, (w.updatePayIn id patch guard).1 = some u ∧ guard.holds r = true ∧
      Wrote w (w.updatePayIn id patch guard).2 id patch r u) ∨
    ((w.updatePayIn id patch guard).1 = none ∧ Calm w (w.updatePayIn id patch guard).2) := by
  cases res : (w.updatePayIn id patch guard).1 with
  | none =>
    refine .inr ⟨rfl, fun k => ?_, rfl⟩
    exact congrArg (Option.map marks) (Table.find?_update_of_none res k)
  | some u =>
    obtain ⟨r, before, holds, rfl⟩ := Table.of_update res
    refine .inl ⟨r, _, rfl, holds, before, ?_, rfl, fun _ => find?_update_of_ne, rfl⟩
    change Table.find? (Table.update _ _ _ _).2 id = _
    rw [Table.find?_update, before]
    simp [holds]

section
variable (wrote : Wrote w w' id patch r u)
include wrote

/-- The write of a row announces nothing. -/
lemma Wrote.announced (c : String) (k : Uuid) : Announced c k w' ↔ Announced c k w := by
  rw [Announced, Announced, wrote.outbox]

/-- A row after the write is the written one or an old one. -/
lemma Wrote.found (found : w'.payins.find? k = some r') :
    k = id ∧ r' = u ∨ k ≠ id ∧ w.payins.find? k = some r' := by
  by_cases same : k = id
  · obtain rfl := same
    exact .inl ⟨rfl, Option.some_inj.1 (found.symm.trans wrote.after)⟩
  · exact .inr ⟨same, wrote.others k same ▸ found⟩

end

/-- An insert adds a row under a new key, or does nothing. -/
lemma find?_of_insertPayIn {o : Option PayInRecord} (run : w.insertPayIn r = some (o, w')) :
    w' = w ∨ w.payins.find? r.id = none ∧
      (∀ k, w'.payins.find? k = if k = r.id then some r else w.payins.find? k) ∧
        w'.outbox = w.outbox := by
  unfold World.insertPayIn at run
  split at run
  case isTrue =>
    cases run
    exact .inl rfl
  case isFalse =>
    split at run
    case isTrue => cases run
    case isFalse =>
      obtain ⟨t, inserted, eq⟩ := Option.map_eq_some_iff.1 run
      cases eq
      exact .inr ⟨Table.fresh_of_insert inserted, Table.find?_insert inserted, rfl⟩

end

/-! ## Programs -/

section
variable {d : Deployment} {context : RequestContext}

/-- A program on the side is calm. -/
lemma calm_of_quiet {α : Type} {p : Method α} (quiet : Quiet p) : p.Uses IsCalm fun _ => True :=
  Prog.uses_mono (fun _ => isCalm_of_isQuiet) quiet

/-- A webhook of another event is calm. -/
lemma calm_enqueue {clientId : Option String} {event : String} {payload : List (String × Json)}
    (other : event ≠ "payin.confirmed") :
    (enqueue clientId event payload).Uses IsCalm fun _ => True := by
  unfold enqueue
  split
  case h_1 => exact Prog.uses_pure _
  case h_2 => exact Prog.uses_awaitOr (S := Api) other

/-- The webhook of a first detection is calm. -/
lemma calm_announceDetected {first : Bool} {updated : PayInRecord} :
    (announceDetected first updated).Uses IsCalm fun _ => True := by
  unfold announceDetected
  split
  case isTrue => exact calm_enqueue (by decide)
  case isFalse => exact Prog.uses_pure _

/-- A response is calm. -/
lemma calm_toResponse {record : PayInRecord} {replay : Bool} :
    (toResponse record replay).Uses IsCalm fun _ => True :=
  calm_of_quiet quiet_toResponse

/-- A quiet operation is harmless. -/
lemma isHarmless_of_isQuiet {op : Call} (quiet : isQuiet op = true) : IsHarmless op := by
  cases op
  case payInInsert => cases quiet
  all_goals exact isCalm_of_isQuiet quiet

/-- A quiet program is harmless. -/
lemma harmless_of_quiet {α : Type} {p : Method α} (quiet : Quiet p) :
    p.Uses IsHarmless fun _ => True :=
  Prog.uses_mono (fun _ => isHarmless_of_isQuiet) quiet

/-- A quiet request is harmless. -/
lemma harmless_request {c : Call} (quiet : isQuiet c = true) :
    (request c).Uses IsHarmless fun _ => True :=
  harmless_of_quiet (quiet_request quiet)

/-! ### Creating a pay-in -/

/-- A call of a creation that is not the insert itself. -/
def isClerical : Call → Bool
  | .payInUpdate _ _ _ => false
  | c => isQuiet c

section
variable {O : Call → Prop}
  (clerical : ∀ c, isClerical c = true → c ≠ .claimNextPayInIndex → O c)
include clerical

/-- A clerical operation other than the counter is one that a creation may use. -/
lemma uses_clerical {c : Call} (quiet : isClerical c = true) (other : c ≠ .claimNextPayInIndex) :
    (request c).Uses O fun _ => True :=
  Prog.uses_await (S := Api) (clerical c quiet other)

/-- A response uses only such operations. -/
lemma uses_payInResponse {record : PayInRecord} {replay : Bool} :
    (toResponse record replay).Uses O fun _ => True :=
  Prog.uses_bind (uses_clerical clerical rfl nofun) fun _ => Prog.uses_pure _

/-- Storing a row uses them and the insert. -/
lemma uses_insertPayIn {record : PayInRecord} (insert : O (.payInInsert record)) :
    (insertPayIn context record).Uses O fun _ => True := by
  refine Prog.uses_bind (Prog.uses_bind (Prog.uses_await insert) fun inserted => ?_) fun result => ?_
  · cases inserted with
    | some inserted => exact Prog.uses_pure _
    | none =>
      exact Prog.uses_bind (uses_clerical clerical rfl nofun) fun _ =>
        Prog.uses_bind (Prog.uses_orThrow trivial) fun _ => Prog.uses_pure _
  · obtain ⟨record, existed⟩ := result
    dsimp only
    split
    case isTrue => exact uses_payInResponse clerical
    case isFalse =>
      have rest : ∀ {type : AuditEventType} {payload : List (String × Json)},
          (recordAudit type record.id (toAuditActor context) payload >>= fun _ =>
            toResponse record).Uses O fun _ => True :=
        Prog.uses_bind (uses_clerical clerical rfl nofun) fun _ => uses_payInResponse clerical
      split
      case h_1 => exact Prog.uses_bind (uses_clerical clerical rfl nofun) fun _ => rest
      case h_2 => exact rest

variable (claim : O .claimNextPayInIndex)
  (insert : ∀ r : PayInRecord, r.status = .pending → r.confirmedAt = none → O (.payInInsert r))
include claim insert

/-- A creation without a known key uses them, the insert and the counter. -/
lemma uses_createNewPayIn {dto : CreatePayInDto} :
    (createNewPayIn d dto context).Uses O fun _ => True := by
  refine Prog.uses_bind (Prog.uses_ofExcept fun _ _ => trivial) fun amount => ?_
  dsimp only
  split
  case h_1 =>
    refine Prog.uses_bind (Prog.uses_ofExcept fun _ _ => trivial) fun router => ?_
    refine Prog.uses_bind (uses_clerical clerical rfl nofun) fun start => ?_
    refine Prog.uses_bind (uses_clerical clerical rfl nofun) fun now => ?_
    refine Prog.uses_bind (uses_clerical clerical rfl nofun) fun id => ?_
    exact uses_insertPayIn clerical (insert _ rfl rfl)
  case h_2 =>
    refine Prog.uses_bind (uses_clerical clerical rfl nofun) fun start => ?_
    refine Prog.uses_bind (uses_clerical clerical rfl nofun) fun now => ?_
    refine Prog.uses_bind (Prog.uses_await claim) fun index => ?_
    refine Prog.uses_bind (Prog.uses_ofExcept fun _ _ => trivial) fun address => ?_
    refine Prog.uses_bind (uses_clerical clerical rfl nofun) fun id => ?_
    exact uses_insertPayIn clerical (insert _ rfl rfl)

/-- So does a creation. -/
lemma uses_createPayIn {dto : CreatePayInDto} :
    (createPayIn d dto context).Uses O fun _ => True := by
  unfold createPayIn
  split
  case h_1 => exact uses_createNewPayIn clerical claim insert
  case h_2 key =>
    refine Prog.uses_bind (Prog.uses_bind (uses_clerical clerical rfl nofun) fun recordId => ?_)
      fun prior => ?_
    · cases recordId with
      | none => exact Prog.uses_pure _
      | some id => exact uses_clerical clerical rfl nofun
    · cases prior with
      | none => exact uses_createNewPayIn clerical claim insert
      | some prior => exact uses_payInResponse clerical

end

/-- A creation is harmless. -/
lemma harmless_createPayIn {dto : CreatePayInDto} :
    (createPayIn d dto context).Uses IsHarmless fun _ => True := by
  refine uses_createPayIn (fun c quiet _ => ?_) (isHarmless_of_isQuiet rfl) fun _ status fresh =>
    ⟨status, fresh⟩
  cases c
  case payInUpdate => cases quiet
  all_goals exact isHarmless_of_isQuiet quiet

end

end AvaSettle.Payins
