import Mathlib.Algebra.Order.Group.Multiset
import AvaSettle.Async.Logic
import AvaSettle.Payouts.Ledger

/-!
# Payout calls: what a history says

The system of payout calls, what counts in the history of a call, and the states a call goes through
on its way past the submission of a payment. Each operation of the services then gets one rule: what
it owes, from the state it is awaited in, for every fate it can have.
-/

namespace AvaSettle.Payouts
open Async
open Blockchain

/-! ## The system -/

/-- The operations that neither write payouts, nor send or await transactions. -/
def isNeutral : Call → Bool
  | .payoutInsert _ => false
  | .payoutUpdate _ _ _ => false
  | .waitForTransactionReceipt _ => false
  | .submit _ _ _ => false
  | _ => true

/-- What a neutral operation leaves alone. -/
lemma exec_neutral {c : Call} {w w' : World} {b : c.Res} (hc : isNeutral c = true)
    (run : World.exec c w = some (b, w')) :
    w'.payouts = w.payouts ∧ w'.submissions = w.submissions ∧ w'.chain = w.chain := by
  cases c
  case payInInsert r =>
    simp only [World.exec, World.insertPayIn] at run
    split at run
    case isTrue => cases run; exact ⟨rfl, rfl, rfl⟩
    case isFalse =>
      split at run
      case isTrue => cases run
      case isFalse =>
        obtain ⟨t, -, eq⟩ := Option.map_eq_some_iff.1 run
        cases eq
        exact ⟨rfl, rfl, rfl⟩
  case settlementInsert r =>
    simp only [World.exec, World.insertSettlement] at run
    split at run
    case isTrue => cases run; exact ⟨rfl, rfl, rfl⟩
    case isFalse =>
      obtain ⟨t, -, eq⟩ := Option.map_eq_some_iff.1 run
      cases eq
      exact ⟨rfl, rfl, rfl⟩
  case idempotencyKeyStore k id =>
    simp only [World.exec] at run
    split at run
    case isTrue => cases run; exact ⟨rfl, rfl, rfl⟩
    case isFalse => cases run; exact ⟨rfl, rfl, rfl⟩
  case auditInsert input =>
    cases run
    unfold World.insertAudit
    split
    case isTrue => exact ⟨rfl, rfl, rfl⟩
    case isFalse => exact ⟨rfl, rfl, rfl⟩
  case getTransactionReceipt hash =>
    obtain ⟨rc, -, eq⟩ := Option.map_eq_some_iff.1 run
    cases eq
    exact ⟨rfl, rfl, rfl⟩
  all_goals first | (cases hc; done) | (cases run; exact ⟨rfl, rfl, rfl⟩)

/-! ## Events that count -/

/-- A transaction that carries the payout was sent. -/
def sends (id : Uuid) : Event Api → Bool
  | ⟨.submit _ _ payouts, o⟩ => decide (id ∈ payouts) && o.performed.isSome
  | _ => false

/-- An awaited operation threw although a transaction had been sent: the submission itself, the wait
    for its receipt, or the ledger write that records its hash. -/
def late : Event Api → Bool
  | ⟨.submit _ _ _, .lost _ _⟩ => true
  | ⟨.waitForTransactionReceipt _, o⟩ => o.threw
  | ⟨.payoutUpdate _ patch _, o⟩ => patch.transactionHash.isSome && o.threw
  | _ => false

/-- A guarded update moved the payout to `failed`. -/
def marksFailed (id : Uuid) : Event Api → Bool
  | ⟨.payoutUpdate id' patch (some _), o⟩ =>
    decide (id' = id) && decide (patch.status = some .failed) &&
      (o.performed.map Option.isSome).getD false
  | _ => false

/-- The call sent a transaction that carries the payout. -/
def Submitted (id : Uuid) (h : Hist Api) : Prop := ∃ e ∈ h, sends id e = true

/-- An operation of the call threw after its transaction had been sent. -/
def LateThrow (h : Hist Api) : Prop := ∃ e ∈ h, late e = true

/-- The call moved the payout to `failed`. -/
def MarkedFailed (id : Uuid) (h : Hist Api) : Prop := ∃ e ∈ h, marksFailed id e = true

/-- A payout that the call has marked failed was sent by it exactly when something threw late. -/
def Good (h : Hist Api) : Prop :=
  ∀ id, MarkedFailed id h → (Submitted id h ↔ LateThrow h)

/-- The event does not count. -/
def Quiet (e : Event Api) : Prop :=
  (∀ id, sends id e = false) ∧ late e = false ∧ ∀ id, marksFailed id e = false

section
variable {strict : Prop} {h : Hist Api} {e : Event Api} {id : Uuid}

/-- What has been sent once one more event has passed. -/
lemma submitted_append : Submitted id (h ++ [e]) ↔ Submitted id h ∨ sends id e = true := by
  simp [Submitted, or_and_right, exists_or]

/-- What has thrown late once one more event has passed. -/
lemma lateThrow_append : LateThrow (h ++ [e]) ↔ LateThrow h ∨ late e = true := by
  simp [LateThrow, or_and_right, exists_or]

/-- What has been marked failed once one more event has passed. -/
lemma markedFailed_append :
    MarkedFailed id (h ++ [e]) ↔ MarkedFailed id h ∨ marksFailed id e = true := by
  simp [MarkedFailed, or_and_right, exists_or]

/-- An event that does not count sends nothing. -/
lemma Quiet.submitted (q : Quiet e) : Submitted id (h ++ [e]) ↔ Submitted id h := by
  simp [submitted_append, q.1]

/-- Nor does it throw late. -/
lemma Quiet.lateThrow (q : Quiet e) : LateThrow (h ++ [e]) ↔ LateThrow h := by
  simp [lateThrow_append, q.2.1]

/-- Nor does it mark a payout failed. -/
lemma Quiet.markedFailed (q : Quiet e) : MarkedFailed id (h ++ [e]) ↔ MarkedFailed id h := by
  simp [markedFailed_append, q.2.2]

/-- A history stays good with such an event. -/
lemma Good.quiet (good : Good h) (q : Quiet e) : Good (h ++ [e]) := by
  intro id marked
  rw [q.submitted, q.lateThrow]
  exact good id (q.markedFailed.1 marked)

/-- A neutral operation does not count. -/
lemma quiet_of_neutral {c : Call} (hc : isNeutral c = true)
    (o : Outcome Exception (Call.Res c)) : Quiet ⟨c, o⟩ := by
  cases c <;> first | exact ⟨fun _ => rfl, rfl, fun _ => rfl⟩ | cases hc

/-- Nor does an insert. -/
lemma quiet_of_insert (r : PayoutRecord) (o : Outcome Exception (Option PayoutRecord)) :
    Quiet ⟨.payoutInsert r, o⟩ :=
  ⟨fun _ => rfl, rfl, fun _ => rfl⟩

/-! ## The specification -/

/-- A chain that keeps successful receipts. -/
def KeepsReceipts (chain : Chain → Chain → Prop) : Prop :=
  ∀ c c', chain c c' → ∀ h rc, c.receipts h = some rc → rc.status = .success →
    ∃ rc', c'.receipts h = some rc' ∧ rc'.status = .success

/-- What a proof about the system of payout calls is relative to. -/
structure Setting where
  /-- The chain keeps successful receipts and reconciliations are well timed. -/
  strict : Prop
  /-- How the chain moves. -/
  chain : Chain → Chain → Prop
  /-- The calls that can be made. -/
  entry : Method Unit → Prop
  /-- The operations that are let happen. -/
  cond : Hist Api → World → Event Api → Prop
  keeps : strict → KeepsReceipts chain

/-- The system of a setting. -/
abbrev Setting.machine (S : Setting) : Machine Api World :=
  AvaSettle.machine S.chain S.entry S.cond

/-- The invariant and the order of the ledger, with the histories in which nothing is marked failed
    that was sent, unless something threw late. -/
def Setting.spec (S : Setting) : Spec S.machine Claims where
  inv := Inv S.strict
  le := Later S.strict
  good := Good
  good_nil := by
    rintro id ⟨e, mem, -⟩
    cases mem
  le_refl _ := .refl
  le_trans := Later.trans
  env := by
    intro w w' a inv move
    have paid : w'.paid = w.paid := by simp [World.paid, move.submissions]
    have find : ∀ k, w'.payouts.find? k = w.payouts.find? k := by simp [move.payouts]
    have later : Later S.strict w w' :=
      .of_same find paid fun st h rc found ok => S.keeps st _ _ move.chain h rc found ok
    exact ⟨inv.of_same find paid later, later⟩

end

end AvaSettle.Payouts
