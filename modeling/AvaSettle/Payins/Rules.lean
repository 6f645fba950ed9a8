import Mathlib.Algebra.Order.PUnit
import AvaSettle.Async.Logic
import AvaSettle.Data.Lists
import AvaSettle.Payins.Ledger

/-!
# Pay-in calls: the rules

The system of pay-in calls, what the history of a call says, and the rule of each operation. The
calls hold nothing exclusively: a reconciliation works on a copy of the row that may be out of date by
the time it writes, and the copy is in order against every later chain.
-/

namespace AvaSettle.Payins
open Async
open Data (Table)
open Blockchain

/-! ## What a history says -/

/-- The row that an event read. -/
def rowOf : Event Api → Option PayInRecord
  | ⟨.payInFindById _ _, .done r⟩ => r
  | _ => none

/-- The logs that an event was given, as records. -/
def logsOf (d : Deployment) (asset : SettlementAsset) : Event Api → List PayInTransferRecord
  | ⟨.getTransferLogs _ _ _ _, .done logs⟩ => logs.map (depositTransfer d asset)
  | ⟨.getInvoicePaidLogs _ _ _ _ _, .done logs⟩ => logs.map (routerTransfer d asset)
  | _ => []

/-- The head that an event wrote to a row. -/
def headWritten : Event Api → Option Nat
  | ⟨.payInUpdate _ patch _, _⟩ => patch.lastScannedBlock.join
  | _ => none

/-- The logs that a call has been given. -/
def collected (d : Deployment) (asset : SettlementAsset) (h : Hist Api) :
    List PayInTransferRecord :=
  h.flatMap (logsOf d asset)

/-- The head that a call has written is the one that it was told. -/
def Honest (h : Hist Api) : Prop :=
  ∀ e ∈ h, ∀ n, headWritten e = some n → h.findSome? headOf = some n

/-- The call has seen the payment of the row that it read. -/
def SeenPaid (d : Deployment) (h : Hist Api) : Prop :=
  ∃ payin n, h.findSome? rowOf = some payin ∧ h.findSome? headOf = some n ∧
    Paid d payin (mergeTransfers payin.transfers (collected d payin.asset h)) n

/-- A write of a status without a guard that meets a confirmed row comes from a call that has seen the
    payment itself. -/
def Timely (d : Deployment) (h : Hist Api) (w : World) (e : Event Api) : Prop :=
  ∀ id patch guard, e.op = .payInUpdate id patch guard → guard.expectedStatus = none →
    patch.status ≠ none → ∀ r, w.payins.find? id = some r → r.status = .confirmed → SeenPaid d h

/-- A router pay-in that is inserted has an invoice of its own. -/
def Apart (d : Deployment) (w : World) : Event Api → Prop
  | ⟨.payInInsert row, o⟩ => o.performed.join.isSome = true →
      ∀ r ∈ w.payins.rows, ¬SameInvoice d (account row) (account r)
  | _ => True

section
variable {h : Hist Api} {e : Event Api}

/-- The logs that have been read grow by those of the last event. -/
lemma collected_append {d : Deployment} {asset : SettlementAsset} :
    collected d asset (h ++ [e]) = collected d asset h ++ logsOf d asset e := by
  simp [collected]

/-- A call that has done nothing is honest. -/
lemma honest_nil : Honest [] := fun _ mem => absurd mem List.not_mem_nil

/-- A call stays honest that writes the head it has been told. -/
lemma Honest.append (honest : Honest h)
    (write : ∀ n, headWritten e = some n → h.findSome? headOf = some n) : Honest (h ++ [e]) := by
  intro e' mem n written
  rcases List.mem_append.1 mem with mem | mem
  · exact Data.findSome?_concat_of_some (honest e' mem n written)
  · rw [List.mem_singleton.1 mem] at written
    exact Data.findSome?_concat_of_some (write n written)

end

/-! ## Operations on the side -/

/-- The patch writes sweep columns only. -/
def sweepOnly (p : PayInPatch) : Bool :=
  p.status.isNone && p.receivedAmountAtomic.isNone && p.transfers.isNone &&
    p.lastScannedBlock.isNone && p.confirmedAt.isNone && p.acceptedAt.isNone

/-- The operations that neither insert pay-ins nor write what rows are judged by. -/
def isAside : Call → Bool
  | .payInInsert _ => false
  | .payInUpdate _ patch _ => sweepOnly patch
  | _ => true

/-- A write of the sweep leaves the judged columns. -/
lemma judged_of_sweepOnly {p : PayInPatch} (only : sweepOnly p = true) {now : Timestamp}
    {r : PayInRecord} : judged (p.applyTo now r) = judged r := by
  simp only [sweepOnly, Bool.and_eq_true, Option.isNone_iff_eq_none] at only
  simp [judged, account, tally, PayInPatch.applyTo, only]

/-- An operation that is no write to the pay-ins leaves them and the chain alone. -/
lemma exec_elsewhere {c : Call} {w w' : World} {b : c.Res} (insert : ∀ r, c ≠ .payInInsert r)
    (update : ∀ id p g, c ≠ .payInUpdate id p g) (run : World.exec c w = some (b, w')) :
    w'.payins = w.payins ∧ w'.chain = w.chain := by
  cases c
  case payInInsert r => exact absurd rfl (insert r)
  case payInUpdate id p g => exact absurd rfl (update id p g)
  case payoutInsert r =>
    simp only [World.exec, World.insertPayout] at run
    split at run
    case isTrue => cases run; exact ⟨rfl, rfl⟩
    case isFalse =>
      split at run
      case isTrue => cases run
      case isFalse =>
        obtain ⟨t, -, eq⟩ := Option.map_eq_some_iff.1 run
        cases eq
        exact ⟨rfl, rfl⟩
  case settlementInsert r =>
    simp only [World.exec, World.insertSettlement] at run
    split at run
    case isTrue => cases run; exact ⟨rfl, rfl⟩
    case isFalse =>
      obtain ⟨t, -, eq⟩ := Option.map_eq_some_iff.1 run
      cases eq
      exact ⟨rfl, rfl⟩
  case idempotencyKeyStore k id =>
    simp only [World.exec] at run
    split at run
    case isTrue => cases run; exact ⟨rfl, rfl⟩
    case isFalse => cases run; exact ⟨rfl, rfl⟩
  case auditInsert input =>
    cases run
    unfold World.insertAudit
    split
    case isTrue => exact ⟨rfl, rfl⟩
    case isFalse => exact ⟨rfl, rfl⟩
  case getTransactionReceipt hash =>
    obtain ⟨rc, -, eq⟩ := Option.map_eq_some_iff.1 run
    cases eq
    exact ⟨rfl, rfl⟩
  case waitForTransactionReceipt hash =>
    obtain ⟨rc, -, eq⟩ := Option.map_eq_some_iff.1 run
    cases eq
    exact ⟨rfl, rfl⟩
  all_goals first | (cases run; exact ⟨rfl, rfl⟩)

/-- An operation on the side keeps the ledger. -/
lemma inv_of_aside {T : Terms} {d : Deployment} {w w' : World} {c : Call} {b : c.Res}
    (aside : isAside c = true) (inv : Inv T d w) (run : World.exec c w = some (b, w')) :
    Inv T d w' ∧ Later T w w' := by
  by_cases update : ∃ id p g, c = .payInUpdate id p g
  · obtain ⟨id, p, g, rfl⟩ := update
    cases run
    have same {r : PayInRecord} : judged (p.applyTo w.now r) = judged r := judged_of_sweepOnly aside
    refine inv_of_update inv (fun r found _ => (inv.rows id r found).congr same)
      fun _ r found _ conf => ?_
    rw [← conf]
    exact congrArg (·.2.2.1) (same (r := r))
  · have insert : ∀ r, c ≠ .payInInsert r := by
      rintro r rfl
      cases aside
    obtain ⟨payins, chain⟩ := exec_elsewhere insert
      (fun id p g eq => update ⟨id, p, g, eq⟩) run
    have advances : T.grows → Advances w.chain w'.chain := fun _ => chain ▸ .refl
    exact ⟨inv.of_same payins advances, .of_same payins advances⟩

/-- It writes no head. -/
lemma headWritten_of_aside {c : Call} (aside : isAside c = true)
    (o : Outcome Exception (Call.Res c)) : headWritten ⟨c, o⟩ = none := by
  cases c
  case payInUpdate id p g =>
    simp only [isAside, sweepOnly, Bool.and_eq_true, Option.isNone_iff_eq_none] at aside
    simp [headWritten, aside]
  all_goals rfl

/-! ## The system -/

/-- What a proof about the system of pay-in calls is relative to. -/
structure Setting where
  deployment : Deployment
  terms : Terms
  /-- How the chain moves. -/
  chain : Chain → Chain → Prop
  /-- The calls that can be made. -/
  entry : Method Unit → Prop
  /-- The operations that are let happen. -/
  cond : Hist Api → World → Event Api → Prop
  advances : terms.grows → ∀ c c', chain c c' → Advances c c'
  apart : terms.distinct → ∀ h w e, cond h w e → Apart deployment w e
  timely : terms.timed → ∀ h w e, cond h w e → Timely deployment h w e

/-- The system of a setting. -/
abbrev Setting.machine (S : Setting) : Machine Api World :=
  AvaSettle.machine S.chain S.entry S.cond

/-- The invariant and the order of the ledger, with honest histories. -/
def Setting.spec (S : Setting) : Spec S.machine Unit where
  inv w _ := Inv S.terms S.deployment w
  le := Later S.terms
  good := Honest
  good_nil := honest_nil
  le_refl _ := .refl
  le_trans := Later.trans
  env := by
    intro w w' _ inv move
    have advances : S.terms.grows → Advances w.chain w'.chain := fun g =>
      S.advances g _ _ move.chain
    exact ⟨inv.of_same move.payins advances, .of_same move.payins advances⟩

section
variable {S : Setting} {u : Unit} {w w' : World} {h : Hist Api}

/-- What an operation owes, where nothing is held. -/
lemma op_of {c : Call} {K : Outcome Exception c.Res → World → Hist Api → Prop}
    (perform : ∀ w₁ o w₂, Later S.terms w w₁ → Inv S.terms S.deployment w₁ →
      S.machine.Reply c w₁ o w₂ → S.cond h w₁ ⟨c, o⟩ → Honest (h ++ [⟨c, o⟩]) ∧
        Inv S.terms S.deployment w₂ ∧ Later S.terms w₁ w₂ ∧ K o w₂ (h ++ [⟨c, o⟩])) :
    S.spec.op c (fun o _ => K o) u w h := by
  intro w₁ f o w₂ le inv reply ok
  obtain ⟨honest, inv', le', post⟩ := perform w₁ o w₂ le inv reply ok
  exact ⟨honest, (), inv', le', post⟩

/-- An operation on the side. -/
lemma op_aside {c : Call} {K : Outcome Exception c.Res → World → Hist Api → Prop}
    (aside : isAside c = true) (honest : Honest h)
    (next : ∀ w₁ o w₂, Later S.terms w w₁ → Inv S.terms S.deployment w₁ →
      S.machine.Reply c w₁ o w₂ → Later S.terms w₁ w₂ → Honest (h ++ [⟨c, o⟩]) →
        K o w₂ (h ++ [⟨c, o⟩])) :
    S.spec.op c (fun o _ => K o) u w h := by
  refine op_of fun w₁ o w₂ le inv reply _ => ?_
  have honest' : Honest (h ++ [⟨c, o⟩]) := honest.append fun n written => by
    rw [headWritten_of_aside aside] at written
    cases written
  have kept : Inv S.terms S.deployment w₂ ∧ Later S.terms w₁ w₂ := by
    cases o with
    | done b => exact inv_of_aside aside inv reply
    | refused e =>
      obtain ⟨-, rfl⟩ := reply
      exact ⟨inv, .refl⟩
    | lost b e => exact inv_of_aside aside inv reply.1
  exact ⟨honest', kept.1, kept.2, next w₁ o w₂ le inv reply kept.2 honest'⟩

/-- A request on the side. -/
lemma wp_request {c : Call} {Q : Except Exception c.Res → World → Hist Api → Prop}
    (aside : isAside c = true) (honest : Honest h)
    (next : ∀ w₁ o w₂, Later S.terms w w₁ → Inv S.terms S.deployment w₁ →
      S.machine.Reply c w₁ o w₂ → Later S.terms w₁ w₂ → Honest (h ++ [⟨c, o⟩]) →
        Q o.answer w₂ (h ++ [⟨c, o⟩])) :
    S.spec.wp (request c) (fun r _ w h => Q r w h) u w h :=
  Spec.wp_await (op_aside (K := fun o => Q o.answer) aside honest next)

/-- What is left once a call has nothing more to write. -/
def Final (_ : Unit) (_ : World) (h : Hist Api) : Prop := Honest h

/-- A program on the side. -/
abbrev Aside {α : Type} (p : Method α) : Prop :=
  p.Uses (fun c => isAside c = true) fun _ => True

/-- A program on the side keeps the ledger. -/
lemma wp_aside {α : Type} {p : Method α} (uses : Aside p) (honest : Honest h) :
    S.spec.wp p (fun _ => Final) u w h := by
  have keep : ∀ (c : Call) (u : Unit) w h, isAside c = true → Final u w h →
      S.spec.op c (fun _ => Final) u w h := fun c u w h aside honest =>
    op_aside aside honest fun _ _ _ _ _ _ _ honest => honest
  refine Spec.wp_mono (fun _ _ _ _ post => post.1) (Spec.wp_uses (E := fun _ => True)
    (fun _ _ _ _ => trivial) keep (fun c u w h aside honest => ?_) uses (R := Final) honest)
  exact Spec.op_mono (fun _ _ _ _ _ => trivial) (keep c 0 w h aside honest)

/-- A step on the side, before anything that counts. -/
lemma wp_aside_bind {α β : Type} {p : Method α} {f : α → Method β} (uses : Aside p)
    (honest : Honest h)
    (next : ∀ a u w h, Honest h → S.spec.wp (f a) (fun _ => Final) u w h) :
    S.spec.wp (p >>= f) (fun _ => Final) u w h :=
  Spec.wp_bind_of (wp_aside uses honest) (fun a u w h honest => next a u w h honest)
    fun _ _ _ _ honest => honest

end

/-! ## Programs on the side -/

/-- The operations on the side that tell nobody. -/
def isQuiet : Call → Bool
  | .outboxInsert _ _ _ => false
  | c => isAside c

/-- A program on the side that tells nobody. -/
abbrev Quiet {α : Type} (p : Method α) : Prop :=
  p.Uses (fun c => isQuiet c = true) fun _ => True

/-- A quiet operation is on the side. -/
lemma isAside_of_isQuiet {c : Call} (quiet : isQuiet c = true) : isAside c = true := by
  cases c
  case outboxInsert => cases quiet
  all_goals exact quiet

/-- A quiet program is on the side. -/
lemma Quiet.aside {α : Type} {p : Method α} (quiet : Quiet p) : Aside p :=
  Prog.uses_mono (fun _ => isAside_of_isQuiet) quiet

section
variable {d : Deployment} {id : Uuid} {context : RequestContext} {record : PayInRecord}

/-- A request on the side. -/
lemma aside_request {c : Call} (aside : isAside c = true) : Aside (request c) :=
  Prog.uses_await (S := Api) aside

/-- A webhook is on the side. -/
lemma aside_enqueue {clientId : Option String} {event : String} {payload : List (String × Json)} :
    Aside (enqueue clientId event payload) := by
  unfold enqueue
  split
  case h_1 => exact Prog.uses_pure _
  case h_2 => exact Prog.uses_awaitOr (S := Api) rfl

/-- A request that is quiet. -/
lemma quiet_request {c : Call} (quiet : isQuiet c = true) : Quiet (request c) :=
  Prog.uses_await (S := Api) quiet

/-- A computation is quiet. -/
lemma quiet_ofExcept {α : Type} {x : Except Exception α} : Quiet (.ofExcept x) :=
  Prog.uses_ofExcept fun _ _ => trivial

/-- Throwing for want of a value is quiet. -/
lemma quiet_orThrow {α : Type} {e : Exception} {x : Option α} : Quiet (.orThrow e x) :=
  Prog.uses_orThrow trivial

/-- A check is quiet. -/
lemma quiet_require {c : Prop} [Decidable c] {e : Exception} : Quiet (.require c e) :=
  Prog.uses_require fun _ => trivial

/-- The audit is quiet. -/
lemma quiet_recordAudit {type : AuditEventType} {actor : AuditActor}
    {payload : List (String × Json)} : Quiet (recordAudit type id actor payload) :=
  quiet_request rfl

/-- A response is quiet. -/
lemma quiet_toResponse {replay : Bool} : Quiet (toResponse record replay) :=
  Prog.uses_bind (quiet_request rfl) fun _ => Prog.uses_pure _

/-- Reading the pay-in is quiet. -/
lemma quiet_requirePayIn : Quiet (requirePayIn id context) :=
  Prog.uses_bind (quiet_request rfl) fun _ => quiet_orThrow

/-- Reading the rest of the chunks is quiet where reading one is. -/
lemma quiet_paginateFrom {T : Type} {fetchChunk : Nat → Nat → Method (List T)} {size : ℕ+}
    {toBlock fuel fromBlock : Nat} {results : List T} (chunk : ∀ f t, Quiet (fetchChunk f t)) :
    Quiet (paginateFrom fetchChunk size toBlock fuel fromBlock results) := by
  induction fuel generalizing fromBlock results with
  | zero => exact Prog.uses_pure _
  | succ fuel ih =>
    unfold paginateFrom
    split
    case isTrue => exact Prog.uses_bind (chunk _ _) fun _ => ih
    case isFalse => exact Prog.uses_pure _

/-- Reading in chunks is quiet where reading one is. -/
lemma quiet_paginateLogs {T : Type} {fetchChunk : Nat → Nat → Method (List T)} {size : ℕ+}
    {fromBlock toBlock : Nat} (chunk : ∀ f t, Quiet (fetchChunk f t)) :
    Quiet (paginateLogs fromBlock toBlock fetchChunk size) := by
  unfold paginateLogs
  split
  case isTrue => exact Prog.uses_pure _
  case isFalse => exact quiet_paginateFrom chunk

/-- A scan is quiet. -/
lemma quiet_findPayInTransfers {toBlock : Nat} : Quiet (findPayInTransfers d record toBlock) := by
  unfold findPayInTransfers
  split
  case h_1 =>
    refine Prog.uses_bind quiet_orThrow fun _ => Prog.uses_bind ?_ fun _ => Prog.uses_pure _
    refine Prog.uses_bind quiet_orThrow fun _ => Prog.uses_bind quiet_ofExcept fun _ =>
      Prog.uses_bind quiet_ofExcept fun _ => ?_
    split
    case isTrue => exact Prog.uses_pure _
    case isFalse =>
      exact Prog.uses_bind (quiet_paginateLogs fun _ _ => quiet_request rfl) fun _ => Prog.uses_pure _
  case h_2 =>
    refine Prog.uses_bind quiet_ofExcept fun _ => ?_
    split
    case isTrue => exact Prog.uses_pure _
    case isFalse =>
      exact Prog.uses_bind (quiet_paginateLogs fun _ _ => quiet_request rfl) fun _ => Prog.uses_pure _

/-- Asking whether the pay-in has expired is quiet. -/
lemma quiet_readExpired : Quiet (readExpired record) := by
  unfold readExpired
  split
  case h_1 => exact Prog.uses_pure _
  case h_2 => exact Prog.uses_bind (quiet_request rfl) fun _ => Prog.uses_pure _

/-- Reading a transaction back is quiet. -/
lemma quiet_toTransferExecution {hash : Hex} : Quiet (toTransferExecution d hash) := by
  unfold toTransferExecution
  split
  case isTrue => exact Prog.uses_bind (quiet_request rfl) fun _ => Prog.uses_pure _
  case isFalse => exact Prog.uses_pure _

/-- The transfer of a sweep is quiet. -/
lemma quiet_sweepDerivedPayIn {asset : SettlementAsset} {index : Int} {address : Hex}
    {amount : Option Nat} : Quiet (sweepDerivedPayIn d asset index address amount) :=
  Prog.uses_bind quiet_require fun _ => Prog.uses_bind quiet_ofExcept fun _ =>
    Prog.uses_bind quiet_ofExcept fun _ => Prog.uses_bind quiet_ofExcept fun _ =>
    Prog.uses_bind quiet_ofExcept fun _ => Prog.uses_bind quiet_require fun _ =>
    Prog.uses_bind (quiet_request rfl) fun _ => Prog.uses_bind quiet_require fun _ =>
    Prog.uses_bind quiet_ofExcept fun _ => Prog.uses_bind (quiet_request rfl) fun _ =>
    Prog.uses_bind quiet_require fun _ => Prog.uses_bind quiet_require fun _ =>
    Prog.uses_bind (quiet_request rfl) fun _ =>
    Prog.uses_bind quiet_toTransferExecution fun _ => Prog.uses_pure _

/-- Carrying out a sweep is quiet. -/
lemma quiet_executeSweep {dto : SweepPayInDto} {amount : Option Nat} :
    Quiet (executeSweep d id dto context record amount) :=
  Prog.uses_bind quiet_sweepDerivedPayIn fun _ => Prog.uses_bind (quiet_request rfl) fun _ =>
    Prog.uses_bind (quiet_request rfl) fun updated => Prog.uses_bind quiet_recordAudit fun _ => by
      cases updated with
      | none => exact Prog.uses_bind quiet_requirePayIn fun _ => Prog.uses_pure _
      | some r => exact Prog.uses_pure _

/-- Recording that a sweep failed is quiet. -/
lemma quiet_handleSweepError {dto : SweepPayInDto} {e : Exception} :
    Quiet (handleSweepError id dto context e) :=
  Prog.uses_bind (quiet_request rfl) fun failed => Prog.uses_bind quiet_recordAudit fun _ => by
    cases failed with
    | none => exact Prog.uses_throw trivial
    | some r => exact Prog.uses_pure _

end

end AvaSettle.Payins
