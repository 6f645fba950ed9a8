import AvaSettle.Async.Observed
import AvaSettle.Async.Session
import AvaSettle.Payouts.Stranded
import AvaSettle.Payouts.Terms

/-!
# Batches that are all or nothing

A batch claims its payouts one by one, sends one transaction for all of them, and writes the outcome to
each row. Claims are given back by the status of the row and not by its owner; that no other call is
robbed of its claim is because a call owns what it has claimed until it writes the row itself. So where
only the chain fails, a batch ends with all of its payouts in one transaction, or with all of them failed,
or with every claim given back by it. What it has given back is free again at once, also while it is still
giving back the rest.
-/

namespace AvaSettle.Payouts.Atomic
open Async
open Blockchain
open Trail (moves Moved moved_append moves_of_performed)
open Stranded (Authorized Authorizes authorized_of_ne isSome_of_authorized isNone_of_authorized of_moves)

/-! ## The system -/

/-- The operation is a request to the node. -/
def asksNode : Call → Bool
  | .getBlockNumber => true
  | .getBalance _ => true
  | .balanceOf _ _ => true
  | .vaultFunder _ => true
  | .allowance _ _ _ => true
  | .getTransferLogs _ _ _ _ => true
  | .getInvoicePaidLogs _ _ _ _ _ => true
  | .getTransactionReceipt _ => true
  | .waitForTransactionReceipt _ => true
  | .submit _ _ _ => true
  | _ => false

/-- No operation fails but the requests to the node. -/
def OnlyChainFails (w : World) (e : Event Api) : Prop :=
  asksNode e.op = false → e.Faultless World.exec w

/-- The authorizations of all instances, single ones and batches, on any chain. -/
abbrev authorizations (chain : Chain → Chain → Prop) : Machine Api World :=
  machine chain (fun p => ∃ d, Authorizes d p) fun _ => OnlyChainFails

/-! ## How a batch ends -/

/-- The operation is one of the transfer of a batch. -/
def reaches : Call → Bool
  | .vaultFunder _ => true
  | .allowance _ _ _ => true
  | .waitForTransactionReceipt _ => true
  | .submit _ _ _ => true
  | _ => false

/-- The call has not come to the transfer. -/
def Unreached (h : Hist Api) : Prop := ∀ e ∈ h, reaches e.op = false

/-- The transaction of an event. -/
def txOf : Event Api → Option Tx
  | ⟨.submit _ tx _, _⟩ => some tx
  | _ => none

/-- The transaction that pays the payouts in their order. -/
def legsTx (vault batchRef token : Hex) (claimed : List PayoutRecord) : Tx :=
  .vaultPayoutBatch vault batchRef token (claimed.map PayoutRecord.beneficiaryAddress)
    (claimed.map PayoutRecord.amountAtomic) "0x"

/-- The call has sent one transaction, which pays the payouts in their order. -/
def SentOnce (hash : Hex) (claimed : List PayoutRecord) (w : World) (h : Hist Api) : Prop :=
  ∃ account vault batchRef token, h.filterMap txOf = [legsTx vault batchRef token claimed] ∧
    ⟨hash, account, legsTx vault batchRef token claimed, claimed.map PayoutRecord.id⟩ ∈ w.submissions

/-- The row of the payout has the status. -/
def HasStatus (status : PayoutStatus) (id : Uuid) (w : World) : Prop :=
  ∃ r, w.payouts.find? id = some r ∧ r.status = status

/-- The row of the payout has its terms, the status and the transaction. -/
def HasOutcome (hash : Hex) (status : PayoutStatus) (c : PayoutRecord) (w : World) : Prop :=
  ∃ r, w.payouts.find? c.id = some r ∧ termsOf r = termsOf c ∧ r.status = status ∧
    r.transactionHash = some hash

/-- How a batch of payouts ends. -/
inductive Ends (ids : List Uuid) (w : World) (h : Hist Api) :
    Except Exception (List PayoutResponse) → Prop where
  /-- All payouts are in one transaction. -/
  | sent {responses claimed hash status} (payouts : claimed.map PayoutRecord.id = ids) (once : ids.Nodup)
      (sent : SentOnce hash claimed w h) (outcome : status = .broadcasted ∨ status = .confirmed)
      (rows : ∀ c ∈ claimed, HasOutcome hash status c w) : Ends ids w h (.ok responses)
  /-- All payouts have been claimed, and all have been marked failed. -/
  | failed {e} (claims : ∀ id ∈ ids, Moved id .authorized h) (fails : ∀ id ∈ ids, Moved id .failed h)
      (rows : ∀ id ∈ ids, HasStatus .failed id w) : Ends ids w h (.error e)
  /-- All payouts have been claimed, and all have been given back. -/
  | released {e} (claims : ∀ id ∈ ids, Moved id .authorized h)
      (returns : ∀ id ∈ ids, Moved id .prepared h) : Ends ids w h (.error e)
  /-- The chain has not been reached, and what has been claimed has been given back. -/
  | unreached {e} (unreached : Unreached h)
      (returns : ∀ id, Moved id .authorized h → Moved id .prepared h) : Ends ids w h (.error e)

/-! ## The ledger -/

/-- The payouts that calls hold are authorized, and each is held by one call. -/
structure Held (w : World) (a : Claims) : Prop where
  nodup : a.Nodup
  authorized : ∀ id ∈ a, Authorized id w

/-- How a row may change while a call is waiting. -/
structure RowLater (r r' : PayoutRecord) : Prop where
  terms : termsOf r' = termsOf r
  settled : r.status ≠ .prepared → r.status ≠ .authorized → r' = r

/-- How the world may change while a call is waiting. -/
structure Later (w w' : World) : Prop where
  row : ∀ id r, w.payouts.find? id = some r → ∃ r', w'.payouts.find? id = some r' ∧ RowLater r r'
  submissions : w.submissions <+: w'.submissions

section
variable {w w' w₁ w₂ w₃ : World} {a f : Claims} {id : Uuid} {c r r' : PayoutRecord} {patch : PayoutPatch}
  {status : PayoutStatus} {hash : Hex} {l : List PayoutStatus}

/-- The world may stay. -/
lemma Later.refl : Later w w := ⟨fun _ r row => ⟨r, row, rfl, fun _ _ => rfl⟩, List.prefix_rfl⟩

/-- Two changes are one. -/
lemma Later.trans (first : Later w₁ w₂) (second : Later w₂ w₃) : Later w₁ w₃ := by
  refine ⟨fun id r row => ?_, first.submissions.trans second.submissions⟩
  obtain ⟨r₂, row₂, later₂⟩ := first.row id r row
  obtain ⟨r₃, row₃, later₃⟩ := second.row id r₂ row₂
  refine ⟨r₃, row₃, later₃.terms.trans later₂.terms, fun prepared authorized => ?_⟩
  obtain rfl := later₂.settled prepared authorized
  exact later₃.settled prepared authorized

/-- Where rows stay, more may have been sent. -/
lemma Later.of_same (payouts : w'.payouts = w.payouts) (submissions : w.submissions <+: w'.submissions) :
    Later w w' :=
  ⟨fun _ r row => ⟨r, payouts ▸ row, rfl, fun _ _ => rfl⟩, submissions⟩

/-- Where rows stay, what is held stays authorized. -/
lemma Held.of_same (held : Held w a) (payouts : w'.payouts = w.payouts) : Held w' a := by
  refine ⟨held.nodup, fun id mem => ?_⟩
  rw [Authorized, payouts]
  exact held.authorized id mem

/-- A write to an open row leaves the settled ones. -/
lemma later_updatePayout (open' : ∀ status ∈ l, status = .prepared ∨ status = .authorized) :
    Later w (w.updatePayout id patch (some l)).2 := by
  cases res : (w.updatePayout id patch (some l)).1 with
  | none =>
    exact ⟨fun k r row => ⟨r, (same_of_update res k).trans row, rfl, fun _ _ => rfl⟩, List.prefix_rfl⟩
  | some r' =>
    obtain ⟨r, written, holds, rfl⟩ := written_of_update res
    have guarded : r.status ∈ l := of_decide_eq_true holds
    refine ⟨fun k r₀ row => ?_, List.prefix_rfl⟩
    by_cases key : k = id
    · subst key
      obtain rfl : r₀ = r := Option.some_inj.1 (row.symm.trans written.old)
      refine ⟨_, (written.find k).trans (if_pos rfl), rfl, fun prepared authorized => ?_⟩
      exact absurd (open' _ guarded) (by simp [prepared, authorized])
    · exact ⟨r₀, (written.find k).trans ((if_neg key).trans row), rfl, fun _ _ => rfl⟩

/-- A write that finds no row leaves what is held. -/
lemma Held.of_none {guard : Option (List PayoutStatus)} (held : Held w a)
    (res : (w.updatePayout id patch guard).1 = none) : Held (w.updatePayout id patch guard).2 a := by
  refine ⟨held.nodup, fun k mem => ?_⟩
  obtain ⟨r, row, status⟩ := held.authorized k mem
  exact ⟨r, (same_of_update res k).trans row, status⟩

/-- A claim that finds its row. -/
lemma Held.claim {now : Timestamp} (held : Held w a)
    (res : (w.updatePayout id (claimPatch now) (some [.prepared])).1 = some r) :
    Held (w.updatePayout id (claimPatch now) (some [.prepared])).2 ({id} + a) := by
  have free : id ∉ a := fun mem => by
    rw [isNone_of_authorized (held.authorized id mem)] at res
    cases res
  refine ⟨Multiset.nodup_cons.2 ⟨free, held.nodup⟩, fun k mem => ?_⟩
  rcases Multiset.mem_add.1 mem with mem | mem
  · obtain rfl := Multiset.mem_singleton.1 mem
    obtain ⟨r₀, written, -, rfl⟩ := written_of_update res
    exact ⟨_, (written.find k).trans (if_pos rfl), rfl⟩
  · exact authorized_of_ne (fun same => free (same ▸ mem)) (held.authorized k mem)

/-- A call's own write ends its claim. -/
lemma Held.write (held : Held w ({id} + a)) : Held (w.updatePayout id patch (some [.authorized])).2 a := by
  have nodup := Multiset.nodup_cons.1 held.nodup
  refine ⟨nodup.2, fun k mem => authorized_of_ne (fun same => nodup.1 (same ▸ mem)) ?_⟩
  exact held.authorized k (Multiset.mem_add.2 (.inr mem))

/-- Its write finds the row. -/
lemma Held.finds (held : Held w ({id} + a)) :
    ∃ r', (w.updatePayout id patch (some [.authorized])).1 = some r' :=
  Option.isSome_iff_exists.1 (isSome_of_authorized (held.authorized id (by simp)))

/-- The row of a payout has its terms. -/
def HasTerms (c : PayoutRecord) (w : World) : Prop :=
  ∃ r, w.payouts.find? c.id = some r ∧ termsOf r = termsOf c

/-- A row keeps its terms. -/
lemma HasTerms.later (later : Later w w') (terms : HasTerms c w) : HasTerms c w' := by
  obtain ⟨r, row, same⟩ := terms
  obtain ⟨r', row', kept⟩ := later.row _ r row
  exact ⟨r', row', kept.terms.trans same⟩

/-- A failed row stays failed. -/
lemma HasStatus.later (later : Later w w') (failed : HasStatus .failed id w) : HasStatus .failed id w' := by
  obtain ⟨r, row, status⟩ := failed
  obtain ⟨r', row', kept⟩ := later.row _ r row
  obtain rfl := kept.settled (by simp [status]) (by simp [status])
  exact ⟨r', row', status⟩

/-- A row that has its outcome keeps it. -/
lemma HasOutcome.later (later : Later w w') (sent : status = .broadcasted ∨ status = .confirmed)
    (outcome : HasOutcome hash status c w) : HasOutcome hash status c w' := by
  obtain ⟨r, row, terms, rfl, transaction⟩ := outcome
  obtain ⟨r', row', kept⟩ := later.row _ r row
  obtain rfl := kept.settled (by rcases sent with eq | eq <;> simp [eq])
    (by rcases sent with eq | eq <;> simp [eq])
  exact ⟨r', row', terms, rfl, transaction⟩

/-- A transaction that has been sent stays sent. -/
lemma SentOnce.later {claimed : List PayoutRecord} {h : Hist Api} (later : Later w w')
    (sent : SentOnce hash claimed w h) : SentOnce hash claimed w' h := by
  obtain ⟨account, vault, batchRef, token, once, mem⟩ := sent
  exact ⟨account, vault, batchRef, token, once, later.submissions.subset mem⟩

/-- How a batch has ended does not change any more. -/
lemma Ends.later {ids : List Uuid} {h : Hist Api} {r : Except Exception (List PayoutResponse)}
    (later : Later w w') (ends : Ends ids w h r) : Ends ids w' h r := by
  cases ends with
  | sent payouts once sent outcome rows =>
    exact .sent payouts once (sent.later later) outcome fun c mem => (rows c mem).later later outcome
  | failed claims fails rows => exact .failed claims fails fun id mem => (rows id mem).later later
  | released claims returns => exact .released claims returns
  | unreached unreached returns => exact .unreached unreached returns

end

/-! ## The operations -/

/-- The ledger and its claims, with histories of any kind. -/
def spec (chain : Chain → Chain → Prop) : Spec (authorizations chain) Claims where
  inv := Held
  le := Later
  good _ := True
  good_nil := trivial
  le_refl _ := .refl
  le_trans := .trans
  env held move :=
    ⟨held.of_same move.payouts, .of_same move.payouts (move.submissions ▸ List.prefix_rfl)⟩

/-- The operation does not write payouts. -/
abbrev IsApart (c : Call) : Prop := c.writes ≠ some .payouts

/-- The operation neither writes payouts nor sends a transaction. -/
def IsCalm (c : Call) : Prop := IsApart c ∧ c.writes ≠ some .submissions

/-- The operation is calm, and not one of the transfer of a batch. -/
def IsQuiet (c : Call) : Prop := IsCalm c ∧ reaches c = false

/-- The operation reads the database, or adds to what is beside the ledger. -/
def IsBook : Call → Prop
  | .clock => True
  | .payoutFindById _ _ => True
  | .auditInsert _ => True
  | .auditListBySubject _ => True
  | .outboxInsert _ _ _ => True
  | _ => False

/-- The operation is the guarded write of a patch. -/
def IsWrite (patch : PayoutPatch) (c : Call) : Prop := ∃ id, c = updateAuthorized id patch

/-- The assertion outlasts what the other calls do, and some operations of the call itself. -/
structure Lasts (P : Call → Prop) (R : World → Hist Api → Prop) : Prop where
  later : ∀ {w w' h}, Later w w' → R w h → R w' h
  append : ∀ {w h} {c : Call} {o : Outcome Exception c.Res}, P c → R w h → R w (h ++ [⟨c, o⟩])

section
variable {chain : Chain → Chain → Prop} {P : Call → Prop} {R : World → Hist Api → Prop} {a : Claims}
  {id : Uuid} {w w' : World} {h : Hist Api} {c : Call} {o : Outcome Exception c.Res} {patch : PayoutPatch}
  {claimed : List PayoutRecord} {d : Deployment} {dto : AuthorizePayoutDto} {context : RequestContext}

/-- A book operation is quiet. -/
lemma quiet_of_book (book : IsBook c) : IsQuiet c := by
  cases c <;> first | exact book.elim | exact ⟨by simp [IsCalm, Call.writes], rfl⟩

/-- An operation that is apart leaves the payouts, and takes no transaction back. -/
lemma same_of_apart (apart : IsApart c) (reply : (authorizations chain).Reply c w o w') :
    w'.payouts = w.payouts ∧ w.submissions <+: w'.submissions := by
  have same : ∀ b, World.exec c w = some (b, w') →
      w'.payouts = w.payouts ∧ w.submissions <+: w'.submissions := fun b run => by
    refine ⟨(World.exec_frame run).payouts apart, ?_⟩
    by_cases sends : c.writes = some .submissions
    · cases c <;> cases sends
      cases run
      exact List.prefix_append _ _
    · exact (World.exec_frame run).submissions sends ▸ List.prefix_rfl
  cases o with
  | done b => exact same b reply
  | refused e => exact reply.2 ▸ ⟨rfl, List.prefix_rfl⟩
  | lost b e => exact same b reply.1

/-- An operation that is no request to the node, and has an answer, gives it. -/
lemma done_of_allowed (node : asksNode c = false) (answers : World.exec c w ≠ none)
    (allowed : OnlyChainFails w ⟨c, o⟩) : ∃ b, o = .done b := by
  have faultless := allowed node
  cases o with
  | done b => exact ⟨b, rfl⟩
  | refused e => exact absurd faultless answers
  | lost b e => exact faultless.elim

/-- A book operation does not throw. -/
lemma done_of_book (book : IsBook c) (allowed : OnlyChainFails w ⟨c, o⟩) : ∃ b, o = .done b := by
  refine done_of_allowed ?_ ?_ allowed
  · cases c <;> first | exact book.elim | rfl
  · cases c <;> first | exact book.elim | simp [World.exec]

/-- An operation that is apart keeps what lasts, and throws only where it is no book operation. -/
lemma op_apart (apart : IsApart c) (here : P c) (lasts : Lasts P R) (hR : R w h) :
    (spec chain).op c (fun o a' w h => (a' = a ∧ R w h) ∧ ∀ e, o.answer = .error e → ¬IsBook c) a w h := by
  intro w₁ f o w₂ le held reply allowed
  obtain ⟨payouts, submissions⟩ := same_of_apart apart reply
  have later : Later w₁ w₂ := .of_same payouts submissions
  refine ⟨trivial, a, held.of_same payouts, later,
    ⟨rfl, lasts.append here (lasts.later (le.trans later) hR)⟩, fun e threw book => ?_⟩
  obtain ⟨b, rfl⟩ := done_of_book book allowed
  cases threw

/-- A program that is apart keeps what lasts. -/
lemma wp_apart {α : Type} {p : Method α} (apart : ∀ c, P c → IsApart c) (uses : p.Uses P fun _ => True)
    (lasts : Lasts P R) (hR : R w h) :
    (spec chain).wp p (fun _ a' w h => a' = a ∧ R w h) a w h := by
  refine Spec.wp_mono (fun _ _ _ _ post => post.1) (Spec.wp_uses_of (P := P) (E := fun _ => True)
    (R := fun a' w h => a' = a ∧ R w h) (fun c a' w h here holds => ?_) (fun c a' w h here holds => ?_) uses
      ⟨rfl, hR⟩)
  · obtain ⟨rfl, hR⟩ := holds
    exact Spec.op_mono (fun _ _ _ _ post => ⟨post.1, fun _ _ => trivial⟩)
      (op_apart (apart c here) here lasts hR)
  · exact Spec.op_mono (fun _ _ _ _ _ => trivial) (op_apart (apart c here) here lasts holds.2)

/-- A program of book operations does not throw. -/
lemma wp_book {α : Type} {p : Method α} (uses : p.Uses IsBook fun _ => False) (lasts : Lasts IsBook R)
    (hR : R w h) : (spec chain).wp p (fun r a' w h => (a' = a ∧ R w h) ∧ ∃ b, r = .ok b) a w h := by
  refine Spec.wp_mono (fun r _ _ _ post => ⟨post.1, ?_⟩) (Spec.wp_uses_of (P := IsBook)
    (E := fun _ => False) (R := fun a' w h => a' = a ∧ R w h) (fun c a' w h book holds => ?_)
      (fun c a' w h book holds => ?_) uses ⟨rfl, hR⟩)
  · cases r with
    | ok b => exact ⟨b, rfl⟩
    | error e => exact (post.2 e rfl).elim
  · obtain ⟨rfl, hR⟩ := holds
    exact Spec.op_mono (fun _ _ _ _ post => ⟨post.1, fun e threw => post.2 e threw book⟩)
      (op_apart (quiet_of_book book).1.1 book lasts hR)
  · exact Spec.op_mono (fun _ _ _ _ _ => trivial) (op_apart (quiet_of_book book).1.1 book lasts holds.2)

/-- What comes before is apart, and may throw. -/
lemma wp_before {α β : Type} {p : Method α} {f : α → Method β} {Q : Post Api World Claims β}
    (apart : ∀ c, P c → IsApart c) (uses : p.Uses P fun _ => True) (lasts : Lasts P R) (hR : R w h)
    (rest : ∀ b w h, R w h → (spec chain).wp (f b) Q a w h)
    (error : ∀ e w h, R w h → Q (.error e) a w h) : (spec chain).wp (p >>= f) Q a w h := by
  refine Spec.wp_bind_of (wp_apart apart uses lasts hR) ?_ ?_
  · rintro b _ w h ⟨rfl, hR⟩
    exact rest b w h hR
  · rintro e _ w h ⟨rfl, hR⟩
    exact error e w h hR

/-- What comes before is a matter of books, and does not throw. -/
lemma wp_after {α β : Type} {p : Method α} {f : α → Method β} {Q : Post Api World Claims β}
    (uses : p.Uses IsBook fun _ => False) (lasts : Lasts IsBook R) (hR : R w h)
    (rest : ∀ b w h, R w h → (spec chain).wp (f b) Q a w h) : (spec chain).wp (p >>= f) Q a w h := by
  refine Spec.wp_bind_of (wp_book uses lasts hR) ?_ ?_
  · rintro b _ w h ⟨⟨rfl, hR⟩, -⟩
    exact rest b w h hR
  · rintro e _ w h ⟨-, b, eq⟩
    cases eq

/-! ### Claims and writes -/

/-- The payouts that the call has claimed, and no others. -/
structure Claimed (claimed : List PayoutRecord) (w : World) (h : Hist Api) : Prop where
  terms : ∀ c ∈ claimed, HasTerms c w
  moved : ∀ id, Moved id .authorized h ↔ id ∈ claimed.map PayoutRecord.id

/-- An operation that is apart moves nothing. -/
lemma moves_of_apart {status : PayoutStatus} (apart : IsApart c) : moves id status ⟨c, o⟩ = false := by
  cases c <;> first | rfl | exact absurd rfl apart

/-- The claims outlast whatever moves no payout to `authorized`. -/
lemma lasts_claimed (still : ∀ c, P c → ∀ id (o : Outcome Exception c.Res),
    moves id .authorized ⟨c, o⟩ = false) : Lasts P (Claimed claimed) where
  later later state := ⟨fun c mem => (state.terms c mem).later later, state.moved⟩
  append here state := by
    refine ⟨state.terms, fun id => ?_⟩
    rw [moved_append, still _ here id]
    simpa using state.moved id

/-- What the claim of a payout leaves. -/
def AfterClaim (claimed : List PayoutRecord) (id : Uuid) (a : Claims) :
    Except Exception (Option PayoutRecord) → Assertion
  | .ok none => fun a' w h => a' = a ∧ Claimed claimed w h ∧ Unreached h
  | .ok (some r) => fun a' w h => r.id = id ∧ a' = {id} + a ∧ Claimed (claimed ++ [r]) w h ∧ Unreached h
  | .error _ => fun _ _ _ => False

/-- The transfer stays unreached with an operation that is none of it. -/
lemma Unreached.append (unreached : Unreached h) (quiet : reaches c = false) :
    Unreached (h ++ [⟨c, o⟩]) := by
  intro e mem
  rcases List.mem_append.1 mem with mem | mem
  · exact unreached e mem
  · exact List.mem_singleton.1 mem ▸ quiet

/-- A claim. -/
lemma op_claim {now : Timestamp} (state : Claimed claimed w h) (unreached : Unreached h) :
    (spec chain).op (.payoutUpdate id (claimPatch now) (some [.prepared]))
      (fun o => AfterClaim claimed id a o.answer) a w h := by
  intro w₁ f o w₂ le held reply allowed
  obtain ⟨b, rfl⟩ := done_of_allowed rfl (by simp [World.exec]) allowed
  obtain ⟨res, rfl⟩ := Prod.mk.inj (Option.some.inj reply)
  have later : Later w₁ (w₁.updatePayout id (claimPatch now) (some [.prepared])).2 :=
    later_updatePayout (by simp)
  have terms : ∀ c ∈ claimed, HasTerms c (w₁.updatePayout id (claimPatch now) (some [.prepared])).2 :=
    fun c mem => (state.terms c mem).later (le.trans later)
  have unreached' : Unreached (h ++ [⟨.payoutUpdate id (claimPatch now) (some [.prepared]), .done b⟩]) :=
    unreached.append rfl
  refine ⟨trivial, ?_⟩
  cases b with
  | none =>
    refine ⟨a, held.of_none res, later, rfl, ⟨terms, fun k => ?_⟩, unreached'⟩
    rw [moved_append]
    simpa [moves, Outcome.performed] using state.moved k
  | some r =>
    obtain ⟨r₀, written, -, rfl⟩ := written_of_update res
    have key := written.id_eq
    refine ⟨{id} + a, ?_, later, key, rfl, ⟨List.forall_mem_append.2 ⟨terms, ?_⟩, fun k => ?_⟩, unreached'⟩
    · rw [add_assoc]
      exact held.claim res
    · refine List.forall_mem_singleton.2 ⟨_, ?_, rfl⟩
      rw [key]
      exact (written.find id).trans (if_pos rfl)
    · have status : (claimPatch now).status = some .authorized := rfl
      rw [moved_append, state.moved k]
      simp [moves, Outcome.performed, status, key, eq_comm]

/-- What a write of the call's own leaves of the row. -/
def Wrote (patch : PayoutPatch) (id : Uuid) (w w' : World) : Prop :=
  ∃ r, w'.payouts.find? id = some r ∧ (∀ r₀, w.payouts.find? id = some r₀ → termsOf r = termsOf r₀) ∧
    (∀ status, patch.status = some status → r.status = status) ∧
      ∀ transaction, patch.transactionHash = some transaction → r.transactionHash = transaction

/-- A write to a payout that the call has claimed. -/
lemma op_write : (spec chain).op (updateAuthorized id patch) (fun o a' w' h' =>
    a' = a ∧ Wrote patch id w w' ∧ Later w w' ∧ (∃ r, o = .done (some r)) ∧
      h' = h ++ [⟨updateAuthorized id patch, o⟩]) ({id} + a) w h := by
  intro w₁ f o w₂ le held reply allowed
  rw [add_assoc] at held
  obtain ⟨b, rfl⟩ := done_of_allowed rfl (by simp [World.exec, updateAuthorized]) allowed
  obtain ⟨res, rfl⟩ := Prod.mk.inj (Option.some.inj reply)
  obtain ⟨r, found⟩ : ∃ r, (w₁.updatePayout id patch (some [.authorized])).1 = some r := held.finds
  obtain rfl := res.symm.trans found
  obtain ⟨r₀, written, -, rfl⟩ := written_of_update found
  have later : Later w₁ (w₁.updatePayout id patch (some [.authorized])).2 := later_updatePayout (by simp)
  refine ⟨trivial, a, held.write, later, rfl, ⟨_, (written.find id).trans (if_pos rfl), ?_, ?_, ?_⟩,
    le.trans later, ⟨_, rfl⟩, rfl⟩
  · intro r₁ row
    obtain ⟨r₂, row₂, kept⟩ := le.row id r₁ row
    obtain rfl := Option.some_inj.1 (row₂.symm.trans written.old)
    exact kept.terms
  · intro status eq
    simp [PayoutPatch.applyTo, eq]
  · intro transaction eq
    simp [PayoutPatch.applyTo, eq]

end

/-! ## The writes of a batch -/

/-- Where the writes of a batch are: those of `left` are in flight, the others have left what they leave. -/
structure Writing {β : Type} (patch : PayoutPatch) (slot : PayoutRecord → Slot Api β) (G : β → Prop)
    (F : PayoutRecord → World → Hist Api → Prop) (R : World → Hist Api → Prop)
    (claimed left : List PayoutRecord) (slots : List (Slot Api β)) (a : Claims) (w : World) (h : Hist Api) :
    Prop where
  share : a = (left.map PayoutRecord.id : List Uuid)
  pending : Slot.pending slots = left.map fun c => updateAuthorized c.id patch
  each : ∀ s ∈ slots, (∃ b, s = .done b ∧ G b) ∨ ∃ c, s = slot c
  terms : ∀ c ∈ left, HasTerms c w
  written : ∀ c ∈ claimed, c ∈ left ∨ F c w h
  rest : R w h

section
variable {chain : Chain → Chain → Prop} {β : Type} {patch : PayoutPatch} {slot : PayoutRecord → Slot Api β}
  {R : World → Hist Api → Prop} {a : Claims} {w : World}
  {h : Hist Api} {claimed left : List PayoutRecord}

/-- The writes of a batch are performed side by side. -/
lemma wp_writeAll (after : Except Exception (Option PayoutRecord) → Except Exception β) (G : β → Prop)
    (F : PayoutRecord → World → Hist Api → Prop)
    (shape : ∀ c, slot c = .todo (updateAuthorized c.id patch) after)
    (answers : ∀ r, ∃ b, after (.ok (some r)) = .ok b ∧ G b)
    (writes : ∀ c w w' h r, HasTerms c w → Wrote patch c.id w w' →
      F c w' (h ++ [⟨updateAuthorized c.id patch, .done (some r)⟩]))
    (lastsF : ∀ c, Lasts (IsWrite patch) (F c)) (lastsR : Lasts (IsWrite patch) R)
    (share : a = (claimed.map PayoutRecord.id : List Uuid)) (terms : ∀ c ∈ claimed, HasTerms c w)
    (rest : R w h) :
    (spec chain).wp (.promiseAll (claimed.map slot)) (fun r a w h => a = 0 ∧ (∀ c ∈ claimed, F c w h) ∧
      R w h ∧ ∃ bs, r = .ok bs ∧ ∀ b ∈ bs, G b) a w h := by
  refine Spec.wp_promiseAll (J := fun slots a w h =>
    ∃ left, Writing patch slot G F R claimed left slots a w h) ⟨?_, ?_⟩
      ⟨claimed, share, ?_, ?_, terms, fun c mem => .inl mem, rest⟩
  · rintro xs op post ys a w h ⟨left, writing⟩
    obtain ⟨b, eq, -⟩ | ⟨c₀, eq⟩ := writing.each (.todo op post) (by simp)
    · cases eq
    rw [shape] at eq
    cases eq
    -- The write is that of one of those that are left.
    have pending := writing.pending
    rw [Slot.pending_append] at pending
    change Slot.pending xs ++ updateAuthorized c₀.id patch :: Slot.pending ys = _ at pending
    obtain ⟨l, right, rfl, before, rest⟩ := List.map_eq_append_iff.1 pending.symm
    obtain ⟨c, r, rfl, same, behind⟩ := List.map_eq_cons_iff.1 rest
    have key : c.id = c₀.id := by injection same
    have split : a = {c₀.id} + ((l ++ r).map PayoutRecord.id : List Uuid) := by
      rw [writing.share, ← key, Multiset.singleton_add, Multiset.cons_coe, Multiset.coe_eq_coe]
      simp
    rw [split]
    refine Spec.op_mono ?_ op_write
    rintro o a' w' h' ⟨rfl, wrote, later, ⟨row, rfl⟩, rfl⟩
    obtain ⟨b', answer, good⟩ := answers row
    refine ⟨fun b res => ?_, fun e res => ?_⟩
    · obtain rfl := Except.ok.inj (answer.symm.trans res)
      refine ⟨l ++ r, rfl, ?_, Slot.forall_fulfil writing.each (.inl ⟨b', rfl, good⟩), fun c' mem => ?_,
        fun c' mem => ?_, lastsR.append ⟨_, rfl⟩ (lastsR.later later writing.rest)⟩
      · rw [Slot.pending_append, Slot.pending_done, ← before, ← behind, List.map_append]
      · exact (writing.terms c' (by simp at mem ⊢; tauto)).later later
      · rcases writing.written c' mem with mem | done
        · rcases List.mem_append.1 mem with mem | mem
          · exact .inl (List.mem_append_left _ mem)
          rcases List.mem_cons.1 mem with rfl | mem
          · rw [← key] at wrote ⊢
            exact .inr (writes c' w w' h row (writing.terms c' (by simp)) wrote)
          · exact .inl (List.mem_append_right _ mem)
        · exact .inr ((lastsF c').append ⟨_, rfl⟩ ((lastsF c').later later done))
    · rw [show after (.ok (some row)) = .error e from res] at answer
      cases answer
  · rintro slots bs a w h ⟨left, writing⟩ res
    have pending := writing.pending
    rw [Slot.pending_of_results res] at pending
    obtain rfl := List.map_eq_nil_iff.1 pending.symm
    refine ⟨writing.share, fun c mem => (writing.written c mem).resolve_left (by simp), writing.rest, bs,
      rfl, fun b mem => ?_⟩
    obtain ⟨b', eq, good⟩ | ⟨c, eq⟩ := writing.each _ (Slot.mem_of_results res mem)
    · cases eq
      exact good
    · rw [shape] at eq
      cases eq
  · exact Slot.pending_map fun c => by rw [shape]; rfl
  · intro s mem
    obtain ⟨c, -, rfl⟩ := List.mem_map.1 mem
    exact .inr ⟨c, rfl⟩

end

/-! ## The batch -/

/-- The outcome of a transfer that has been written to the row of a payout. -/
def Recorded (exec : TransferExecution) (c : PayoutRecord) (w : World) (_ : Hist Api) : Prop :=
  HasOutcome exec.hash (statusOf exec.status) c w

/-- The payout has been moved to the status. -/
def Given (status : PayoutStatus) (c : PayoutRecord) (_ : World) (h : Hist Api) : Prop :=
  Moved c.id status h

/-- The payout has been marked failed. -/
def Failed (c : PayoutRecord) (w : World) (h : Hist Api) : Prop :=
  Moved c.id .failed h ∧ HasStatus .failed c.id w

section
variable {chain : Chain → Chain → Prop} {P : Call → Prop} {a : Claims} {id : Uuid} {w : World}
  {h : Hist Api} {claimed payouts : List PayoutRecord} {d : Deployment} {dto : AuthorizePayoutDto}
  {context : RequestContext} {now : Timestamp} {status : PayoutStatus} {patch : PayoutPatch}
  {exec : TransferExecution} {asset : SettlementAsset} {ids : List Uuid}

/-- The status of an outcome is one of a payout that has been sent. -/
lemma statusOf_sent : statusOf exec.status = .broadcasted ∨ statusOf exec.status = .confirmed := by
  cases exec.status with
  | confirmed => exact .inr rfl
  | broadcasted => exact .inl rfl

/-- What has moved has moved. -/
lemma lasts_given {c : PayoutRecord} : Lasts P (Given status c) where
  later _ given := given
  append _ given := moved_append.2 (.inl given)

/-- What has failed stays failed. -/
lemma lasts_failed {c : PayoutRecord} : Lasts P (Failed c) where
  later later failed := ⟨failed.1, failed.2.later later⟩
  append _ failed := ⟨moved_append.2 (.inl failed.1), failed.2⟩

/-- What has been recorded stays recorded. -/
lemma lasts_recorded {c : PayoutRecord} : Lasts P (Recorded exec c) where
  later later recorded := recorded.later later statusOf_sent
  append _ recorded := recorded

/-- Nothing else is claimed. -/
lemma lasts_moved : Lasts P fun _ h => ∀ id ∈ ids, Moved id status h where
  later _ moved := moved
  append _ moved id mem := moved_append.2 (.inl (moved id mem))

/-- A write that returns a row has moved it. -/
lemma moved_of_write {r : PayoutRecord} (eq : patch.status = some status) :
    Moved id status (h ++ [⟨updateAuthorized id patch, .done (some r)⟩]) :=
  moved_append.2 (.inr (moves_of_performed eq rfl))

end

section
variable {chain : Chain → Chain → Prop} {P : Call → Prop} {R : World → Hist Api → Prop} {a : Claims}
  {id : Uuid} {w : World} {h : Hist Api} {claimed payouts : List PayoutRecord} {d : Deployment}
  {dto : AuthorizePayoutDto} {context : RequestContext} {now : Timestamp} {status : PayoutStatus}
  {patch : PayoutPatch} {exec : TransferExecution} {asset : SettlementAsset} {ids : List Uuid}

/-- A write that is no claim claims nothing. -/
lemma still_of_write (eq : patch.status = some status) (ne : status ≠ .authorized) {c : Call}
    (write : IsWrite patch c) (id : Uuid) (o : Outcome Exception c.Res) :
    moves id .authorized ⟨c, o⟩ = false := by
  obtain ⟨id', rfl⟩ := write
  exact Bool.eq_false_iff.2 fun moved => ne (Option.some.inj (eq.symm.trans (of_moves moved).2.1))

/-- The payouts of a batch are given back. -/
lemma wp_releaseAll {slot : PayoutRecord → Slot Api Unit} (prepared : patch.status = some .prepared)
    (shape : ∀ c, slot c = .todo (updateAuthorized c.id patch) fun r => r.map fun _ => ())
    (lasts : Lasts (IsWrite patch) R) (share : a = (claimed.map PayoutRecord.id : List Uuid))
    (terms : ∀ c ∈ claimed, HasTerms c w) (hR : R w h) :
    (spec chain).wp (.promiseAll (claimed.map slot)) (fun r _ w h => (∃ bs, r = .ok bs) ∧ R w h ∧
      ∀ id ∈ claimed.map PayoutRecord.id, Moved id .prepared h) a w h := by
  refine Spec.wp_mono ?_ (wp_writeAll (fun r => r.map fun _ => ()) (fun _ => True) (Given .prepared) shape
    (fun _ => ⟨(), rfl, trivial⟩) (fun _ _ _ _ _ _ _ => moved_of_write prepared) (fun _ => lasts_given)
      lasts share terms hR)
  rintro r a w h ⟨-, given, rest, bs, rfl, -⟩
  exact ⟨⟨bs, rfl⟩, rest, List.forall_mem_map.2 given⟩

/-- What the claims of a batch leave. -/
def AfterClaims (ids : List Uuid) : Post Api World Claims (List PayoutRecord)
  | .ok claimed => fun a w h => a = (claimed.map PayoutRecord.id : List Uuid) ∧
      claimed.map PayoutRecord.id = ids ∧ Claimed claimed w h ∧ Unreached h
  | .error _ => fun _ _ h => Unreached h ∧ ∀ id, Moved id .authorized h → Moved id .prepared h

/-- The claims of a batch: all are made, or those that have been made are given back. -/
lemma wp_claimBatch (share : a = (claimed.map PayoutRecord.id : List Uuid)) (state : Claimed claimed w h)
    (unreached : Unreached h) : (spec chain).wp (claimBatch now payouts claimed)
      (AfterClaims ((claimed ++ payouts).map PayoutRecord.id)) a w h := by
  induction payouts generalizing claimed a w h with
  | nil => exact ⟨share, by simp, state, unreached⟩
  | cons payout payouts ih =>
    refine Spec.wp_bind (Spec.wp_await (Spec.op_mono ?_ (op_claim state unreached)))
    rintro ((_ | authorized) | e | ⟨b, e⟩) a' w h post
    · obtain ⟨rfl, state, unreached⟩ := post
      have lasts : Lasts (IsWrite rollbackPatch) fun _ h =>
          Unreached h ∧ ∀ id, Moved id .authorized h → id ∈ claimed.map PayoutRecord.id := by
        refine ⟨fun _ holds => holds, fun {w h c o} write holds => ⟨?_, fun id moved => holds.2 id ?_⟩⟩
        · obtain ⟨id, rfl⟩ := write
          exact holds.1.append rfl
        · rw [moved_append, still_of_write rfl (by simp) write id o] at moved
          simpa using moved
      refine Spec.wp_bind_of (wp_releaseAll rfl (fun _ => rfl) lasts share state.terms
        ⟨unreached, fun id => (state.moved id).1⟩) ?_ ?_
      · rintro _ _ _ h ⟨-, ⟨unreached, only⟩, given⟩
        exact ⟨unreached, fun id moved => given id (only id moved)⟩
      · rintro _ _ _ _ ⟨⟨bs, eq⟩, -⟩
        cases eq
    · obtain ⟨key, rfl, state, unreached⟩ := post
      have keys : (claimed ++ [authorized] ++ payouts).map PayoutRecord.id =
          (claimed ++ payout :: payouts).map PayoutRecord.id := by simp [key]
      have owned : {payout.id} + a = ((claimed ++ [authorized]).map PayoutRecord.id : List Uuid) := by
        rw [share, ← key, add_comm, List.map_append]
        rfl
      have rest := ih owned state unreached
      rw [keys] at rest
      exact rest
    · exact post.elim
    · exact post.elim

/-- The one transaction stays the only one. -/
lemma lasts_sentOnce {hash : Hex} (none : ∀ c, P c → ∀ o : Outcome Exception c.Res, txOf ⟨c, o⟩ = none) :
    Lasts P (SentOnce hash claimed) where
  later later sent := sent.later later
  append {w h c o} here sent := by
    obtain ⟨account, vault, batchRef, token, once, mem⟩ := sent
    refine ⟨account, vault, batchRef, token, ?_, mem⟩
    rw [List.filterMap_append, once]
    simp [none c here o]

/-- A calm operation sends nothing. -/
lemma txOf_of_calm {c : Call} (calm : IsCalm c) (o : Outcome Exception c.Res) : txOf ⟨c, o⟩ = none := by
  cases c <;> first | rfl | exact absurd rfl calm.2

/-- A write sends nothing. -/
lemma txOf_of_write {c : Call} (write : IsWrite patch c) (o : Outcome Exception c.Res) :
    txOf ⟨c, o⟩ = none := by
  obtain ⟨id, rfl⟩ := write
  rfl

/-- The claims, and that nothing has been sent, outlast calm operations. -/
lemma lasts_unsent : Lasts IsCalm fun w h => Claimed claimed w h ∧ h.filterMap txOf = [] := by
  have lasts : Lasts IsCalm (Claimed claimed) := lasts_claimed fun c calm _ _ => moves_of_apart calm.1
  refine ⟨fun later holds => ⟨lasts.later later holds.1, holds.2⟩, fun {w h c o} calm holds => ?_⟩
  refine ⟨lasts.append calm holds.1, ?_⟩
  rw [List.filterMap_append, holds.2]
  simp [txOf_of_calm calm o]

/-- The claims and the transaction outlast calm operations. -/
lemma lasts_sent {hash : Hex} :
    Lasts IsCalm fun w h => Claimed claimed w h ∧ SentOnce hash claimed w h := by
  have lasts : Lasts IsCalm (Claimed claimed) := lasts_claimed fun c calm _ _ => moves_of_apart calm.1
  have once : Lasts IsCalm (SentOnce hash claimed) := lasts_sentOnce fun c calm => txOf_of_calm calm
  exact ⟨fun later holds => ⟨lasts.later later holds.1, once.later later holds.2⟩,
    fun calm holds => ⟨lasts.append calm holds.1, once.append calm holds.2⟩⟩

/-- What the submission of a batch leaves. -/
lemma op_submit (account vault batchRef token : Hex) (state : Claimed claimed w h)
    (unsent : h.filterMap txOf = []) :
    (spec chain).op (.submit account (legsTx vault batchRef token claimed) (claimed.map PayoutRecord.id))
      (fun o a' w h => a' = a ∧ Claimed claimed w h ∧
        ∀ hash, o.answer = .ok hash → SentOnce hash claimed w h) a w h := by
  intro w₁ f o w₂ le held reply allowed
  have lasts : Lasts IsApart (Claimed claimed) := lasts_claimed fun c apart _ _ => moves_of_apart apart
  have apart : IsApart (.submit account (legsTx vault batchRef token claimed)
      (claimed.map PayoutRecord.id)) := by simp [Call.writes]
  obtain ⟨-, a', held', later, ⟨rfl, state'⟩, -⟩ :=
    op_apart apart apart lasts state w₁ f o w₂ le held reply allowed
  refine ⟨trivial, a', held', later, rfl, state', fun hash answer => ?_⟩
  obtain rfl := Outcome.eq_done_of_answer answer
  obtain ⟨rfl, rfl⟩ := Prod.mk.inj (Option.some.inj reply)
  refine ⟨account, vault, batchRef, token, ?_, List.mem_append_right _ (List.mem_singleton_self _)⟩
  rw [List.filterMap_append, unsent]
  rfl

/-- A question to the chain is calm. -/
lemma calm_of_asks (c : Call) (asks : Asks c) : IsCalm c := by
  cases c <;> first | exact asks.elim | simp [IsCalm, Call.writes]

/-- The receipt of a transaction changes nothing. -/
lemma wp_toTransferExecution {hash : Hex} (lasts : Lasts IsCalm R) (hR : R w h) :
    (spec chain).wp (toTransferExecution d hash) (fun r a' w h => a' = a ∧ R w h ∧
      ∀ exec, r = .ok exec → exec.hash = hash) a w h := by
  have waits : IsCalm (.waitForTransactionReceipt hash) := by simp [IsCalm, Call.writes]
  unfold toTransferExecution
  split
  case isTrue =>
    refine wp_before (fun _ calm => calm.1) (Prog.uses_await waits) lasts hR (fun rc w h hR => ?_)
      fun e w h hR => ⟨rfl, hR, fun _ eq => by cases eq⟩
    exact ⟨rfl, hR, fun _ eq => by cases eq; rfl⟩
  case isFalse => exact ⟨rfl, hR, fun _ eq => by cases eq; rfl⟩

/-- What the transfer of a batch leaves: the claims, and one transaction unless it has thrown. -/
def Transferred (claimed : List PayoutRecord) (a : Claims) : Post Api World Claims TransferExecution :=
  fun r a' w h => a' = a ∧ Claimed claimed w h ∧ ∀ exec, r = .ok exec → SentOnce exec.hash claimed w h

/-- The transfer of a batch sends one transaction, or throws. -/
lemma wp_vaultPayoutBatch {batchRef : Hex} (state : Claimed claimed w h) (unsent : h.filterMap txOf = []) :
    (spec chain).wp (vaultPayoutBatch d asset batchRef (claimed.map PayoutRecord.beneficiaryAddress)
      (claimed.map PayoutRecord.amountAtomic) (claimed.map PayoutRecord.id)) (Transferred claimed a) a w h := by
  have next {α : Type} {p : Method α} {f : α → Method TransferExecution} {w h}
      (uses : p.Uses IsCalm fun _ => True) (holds : Claimed claimed w h ∧ h.filterMap txOf = [])
      (rest : ∀ b w h, Claimed claimed w h ∧ h.filterMap txOf = [] →
        (spec chain).wp (f b) (Transferred claimed a) a w h) :
      (spec chain).wp (p >>= f) (Transferred claimed a) a w h :=
    wp_before (fun _ calm => calm.1) uses lasts_unsent holds rest fun e w h holds =>
      ⟨rfl, holds.1, fun exec eq => by cases eq⟩
  refine next (Prog.uses_ofExcept fun _ _ => trivial) ⟨state, unsent⟩ fun vault w h holds => ?_
  refine next (Prog.uses_ofExcept fun _ _ => trivial) holds fun config w h holds => ?_
  refine next (Prog.uses_ofExcept fun _ _ => trivial) holds fun _ w h holds => ?_
  refine next (Prog.uses_mono calm_of_asks asks_ensureVaultAllowance) holds fun _ w h holds => ?_
  refine next (Prog.uses_ofExcept fun _ _ => trivial) holds fun account w h holds => ?_
  refine Spec.wp_bind_of (P := fun r a' w h => a' = a ∧ Claimed claimed w h ∧
    ∀ hash, r = .ok hash → SentOnce hash claimed w h) (Spec.wp_await ?_) ?_ ?_
  · exact op_submit account vault batchRef config.address holds.1 holds.2
  · rintro hash _ w h ⟨rfl, state, sent⟩
    refine Spec.wp_mono ?_ (wp_toTransferExecution lasts_sent ⟨state, sent hash rfl⟩)
    rintro r _ w h ⟨rfl, ⟨state, sent⟩, same⟩
    exact ⟨rfl, state, fun exec eq => same exec eq ▸ sent⟩
  · rintro e _ w h ⟨rfl, state, -⟩
    exact ⟨rfl, state, fun exec eq => by cases eq⟩

/-! ### The outcome -/

/-- The audit is a matter of books. -/
lemma book_recordAudit {E : Exception → Prop} {type : AuditEventType} {actor : AuditActor}
    {payload : List (String × Json)} : (recordAudit type id actor payload).Uses IsBook E :=
  Prog.uses_await trivial

/-- So is the webhook of a row. -/
lemma book_announceConfirmed {E : Exception → Prop} {status : TransferStatus} {r : PayoutRecord} :
    (announceConfirmed status (some r)).Uses IsBook E := by
  unfold announceConfirmed
  split
  case isTrue =>
    refine Prog.uses_bind (Prog.uses_pure r) fun u => ?_
    unfold enqueue
    split
    · trivial
    · exact Prog.uses_awaitOr trivial
  case isFalse => trivial

/-- So is a response. -/
lemma book_toResponse {E : Exception → Prop} {r : PayoutRecord} {replay : Bool} :
    (toResponse r replay).Uses IsBook E :=
  Prog.uses_bind (Prog.uses_await trivial) fun _ => trivial

/-- All payouts have their outcome, of one transaction. -/
def Done (claimed : List PayoutRecord) (w : World) (h : Hist Api) : Prop :=
  ∃ exec : TransferExecution, SentOnce exec.hash claimed w h ∧ ∀ c ∈ claimed, Recorded exec c w h

/-- That all is done outlasts book operations. -/
lemma lasts_done : Lasts IsBook (Done claimed) := by
  have once {hash} : Lasts IsBook (SentOnce hash claimed) :=
    lasts_sentOnce fun c book => txOf_of_calm (quiet_of_book book).1
  refine ⟨?_, ?_⟩
  · rintro w w' h later ⟨exec, sent, rows⟩
    exact ⟨exec, once.later later sent,
      fun c mem => (lasts_recorded (P := IsBook)).later later (rows c mem)⟩
  · rintro w h c o book ⟨exec, sent, rows⟩
    exact ⟨exec, once.append book sent,
      fun c' mem => (lasts_recorded (P := IsBook)).append book (rows c' mem)⟩

/-- What the body of the `try` of a batch leaves. -/
def Executed {α : Type} (claimed : List PayoutRecord) : Post Api World Claims α
  | .ok _ => fun _ w h => Done claimed w h
  | .error _ => fun a w h => a = (claimed.map PayoutRecord.id : List Uuid) ∧ Claimed claimed w h

/-- The outcome of a write that records it. -/
lemma recorded_of_wrote {c : PayoutRecord} {w' : World} {h : Hist Api} (terms : HasTerms c w)
    (wrote : Wrote (recordPatch exec now) c.id w w') : Recorded exec c w' h := by
  obtain ⟨r, row, same, status, transaction⟩ := wrote
  obtain ⟨r₀, row₀, eq⟩ := terms
  exact ⟨r, row, (same r₀ row₀).trans eq, status _ rfl, transaction _ rfl⟩

/-- The body of the `try` sends the legs once and writes the outcome of all, or nothing. -/
lemma wp_executeBatch (share : a = (claimed.map PayoutRecord.id : List Uuid)) (state : Claimed claimed w h)
    (unsent : h.filterMap txOf = []) :
    (spec chain).wp (executeBatch d asset now dto context claimed) (Executed claimed) a w h := by
  refine Spec.wp_bind_of (wp_vaultPayoutBatch state unsent) ?_ ?_
  · rintro exec _ w h ⟨rfl, state, sent⟩
    refine Spec.wp_bind_of (wp_writeAll id (fun u => u.isSome = true) (Recorded exec)
      (R := SentOnce exec.hash claimed) (fun _ => rfl) (fun r => ⟨some r, rfl, rfl⟩)
        (fun _ _ _ _ _ terms wrote => recorded_of_wrote terms wrote) (fun _ => lasts_recorded)
          (lasts_sentOnce fun _ => txOf_of_write) share state.terms (sent exec rfl)) ?_ ?_
    · rintro updated _ w h ⟨rfl, rows, sent, bs, eq, some⟩
      cases eq
      refine wp_after (Prog.uses_forEach fun u mem => ?_) lasts_done ⟨exec, sent, rows⟩
        fun _ w h done => done
      obtain ⟨r, rfl⟩ := Option.isSome_iff_exists.1 (some u mem)
      refine Prog.uses_bind (Prog.uses_pure r) fun u => ?_
      exact Prog.uses_bind book_recordAudit fun _ => book_announceConfirmed
    · rintro e _ w h ⟨-, -, -, bs, eq, -⟩
      cases eq
  · rintro e _ w h ⟨rfl, state, -⟩
    exact ⟨share, state⟩

/-- What a batch leaves that has claimed its payouts. -/
def Settled {α : Type} (claimed : List PayoutRecord) : Post Api World Claims α
  | .ok _ => fun _ w h => Done claimed w h
  | .error e => fun _ w h => Ends (claimed.map PayoutRecord.id) w h (.error e)

/-- The handler gives all legs back, or marks all failed. -/
lemma wp_handleBatchError {e : Exception} (share : a = (claimed.map PayoutRecord.id : List Uuid))
    (state : Claimed claimed w h) :
    (spec chain).wp (handleBatchError dto context claimed e) (Settled claimed) a w h := by
  have claims : ∀ id ∈ claimed.map PayoutRecord.id, Moved id .authorized h := fun id => (state.moved id).2
  unfold handleBatchError
  dsimp only
  split
  case isTrue =>
    refine Spec.wp_bind_of (wp_releaseAll rfl (fun _ => rfl) lasts_moved share state.terms claims) ?_ ?_
    · rintro _ _ _ h ⟨-, claims, given⟩
      exact .released claims given
    · rintro _ _ _ _ ⟨⟨bs, eq⟩, -⟩
      cases eq
  case isFalse =>
    refine Spec.wp_bind_of (wp_writeAll (fun r => r.map fun _ => ()) (fun _ => True) Failed
      (fun _ => rfl) (fun _ => ⟨(), rfl, trivial⟩) ?_ (fun _ => lasts_failed) lasts_moved share state.terms
        claims) ?_ ?_
    · rintro c w w' h r - ⟨row, found, -, status, -⟩
      exact ⟨moved_of_write rfl, row, found, status _ rfl⟩
    · rintro _ a w h ⟨-, fails, claims, -⟩
      have lasts : Lasts IsBook fun w h => (∀ id ∈ claimed.map PayoutRecord.id, Moved id .authorized h) ∧
          ∀ c ∈ claimed, Failed c w h :=
        ⟨fun later holds =>
            ⟨holds.1, fun c mem => (lasts_failed (P := IsBook)).later later (holds.2 c mem)⟩,
          fun {w h c o} book holds => ⟨lasts_moved.append (w := w) book holds.1,
            fun c mem => lasts_failed.append book (holds.2 c mem)⟩⟩
      refine wp_after (Prog.uses_promiseAll fun s mem => ?_) lasts ⟨claims, fails⟩ fun _ w h holds => ?_
      · obtain ⟨c, -, rfl⟩ := List.mem_map.1 mem
        exact ⟨trivial, fun _ thrown => thrown⟩
      · exact .failed holds.1 (List.forall_mem_map.2 fun c mem => (holds.2 c mem).1)
          (List.forall_mem_map.2 fun c mem => (holds.2 c mem).2)
    · rintro e _ w h ⟨-, -, -, bs, eq, -⟩
      cases eq

/-- A batch that has claimed its payouts. -/
lemma wp_settleBatch (share : a = (claimed.map PayoutRecord.id : List Uuid)) (state : Claimed claimed w h)
    (unreached : Unreached h) (once : (claimed.map PayoutRecord.id).Nodup) :
    (spec chain).wp (settleBatch d asset now dto context claimed)
      (fun r _ w h => Ends (claimed.map PayoutRecord.id) w h r) a w h := by
  have unsent : h.filterMap txOf = [] := by
    refine List.filterMap_eq_nil_iff.2 fun e mem => ?_
    obtain ⟨op, o⟩ := e
    cases op <;> first | rfl | exact absurd (unreached _ mem) (by simp [reaches])
  have lasts : Lasts IsBook fun w h => Claimed claimed w h ∧ h.filterMap txOf = [] :=
    ⟨lasts_unsent.later, fun book => lasts_unsent.append (quiet_of_book book).1⟩
  refine wp_after (Prog.uses_promiseAll fun s mem => ?_) lasts ⟨state, unsent⟩ fun _ w h holds => ?_
  · obtain ⟨c, -, rfl⟩ := List.mem_map.1 mem
    exact ⟨trivial, fun _ thrown => thrown⟩
  have body : (spec chain).wp ((executeBatch d asset now dto context claimed).tryCatch
      (handleBatchError dto context claimed)) (Settled claimed) a w h :=
    Spec.wp_tryCatch_of (wp_executeBatch share holds.1 holds.2) (fun _ _ _ _ done => done)
      fun e a w h caught => wp_handleBatchError caught.1 caught.2
  refine Spec.wp_bind_of body (fun updated a w h done => ?_) fun _ _ _ _ ends => ends
  refine Spec.wp_mono ?_ (wp_book (Prog.uses_promiseAll fun s mem => ?_) lasts_done done)
  · rintro _ _ w h ⟨⟨rfl, exec, sent, rows⟩, responses, rfl⟩
    exact .sent rfl once sent statusOf_sent rows
  · obtain ⟨c, -, rfl⟩ := List.mem_map.1 mem
    exact ⟨trivial, fun r ok e thrown => by cases r <;> first | exact (ok _ rfl) | cases thrown⟩

/-! ### Before the claims -/

/-- The payout that an element of the first `Promise.all` is about. -/
def subject : Slot Api PayoutRecord → Uuid
  | .todo (.payoutFindById id _) _ => id
  | .todo _ _ => ""
  | .done r => r.id

/-- Nothing has been claimed yet. -/
def Blank (_ : World) (h : Hist Api) : Prop := Unreached h ∧ ∀ id, ¬Moved id .authorized h

/-- That nothing has been claimed outlasts quiet operations. -/
lemma lasts_blank : Lasts IsQuiet Blank := by
  refine ⟨fun _ blank => blank, fun quiet blank => ⟨blank.1.append quiet.2, fun id moved => ?_⟩⟩
  rw [moved_append, moves_of_apart quiet.1.1] at moved
  exact blank.2 id (by simpa using moved)

/-- A batch that throws before its claims. -/
lemma Blank.ends {e : Exception} (blank : Blank w h) : Ends ids w h (.error e) :=
  .unreached blank.1 fun id moved => absurd moved (blank.2 id)

/-- Nothing has been claimed. -/
lemma Blank.claims (blank : Blank w h) : Claimed [] w h :=
  ⟨by simp, fun id => by simpa using blank.2 id⟩

/-- A payout that is found by its id has it. -/
lemma op_find {client : Option String} (hR : Blank w h) :
    (spec chain).op (.payoutFindById id client) (fun o a' w h => (a' = a ∧ Blank w h) ∧
      ∀ r, o.answer = .ok (some r) → r.id = id) a w h := by
  intro w₁ f o w₂ le held reply allowed
  have quiet : IsQuiet (.payoutFindById id client) := quiet_of_book trivial
  obtain ⟨good, a', held', later, post, -⟩ :=
    op_apart quiet.1.1 quiet lasts_blank hR w₁ f o w₂ le held reply allowed
  refine ⟨good, a', held', later, post, fun r answer => ?_⟩
  obtain rfl := Outcome.eq_done_of_answer answer
  obtain ⟨found, -⟩ := Prod.mk.inj (Option.some.inj reply)
  exact Data.Table.key_of_find? (Option.filter_eq_some_iff.1 found).1

/-- The payouts that are looked up are those that have been asked for, in their order. -/
lemma wp_lookUp (blank : Blank w h) :
    (spec chain).wp (.promiseAll (ids.map (requirePayoutSlot context))) (fun r a' w h => (a' = a ∧
      Blank w h) ∧ ∀ payouts, r = .ok payouts → payouts.map PayoutRecord.id = ids) a w h := by
  refine Spec.wp_promiseAll (J := fun slots a' w h => (a' = a ∧ Blank w h) ∧ slots.map subject = ids ∧
    ∀ s ∈ slots, (∃ r, s = .done r) ∨ ∃ id, s = requirePayoutSlot context id) ⟨?_, ?_⟩
      ⟨⟨rfl, blank⟩, ?_, ?_⟩
  · rintro xs op post ys _ w h ⟨⟨rfl, blank⟩, subjects, each⟩
    obtain ⟨r, eq⟩ | ⟨id, eq⟩ := each (.todo op post) (by simp)
    · cases eq
    cases eq
    refine Spec.op_mono ?_ (op_find blank)
    rintro o a' w h ⟨⟨rfl, blank⟩, key⟩
    refine ⟨fun r res => ?_, fun e res => ⟨a', 0, by simp, ⟨⟨rfl, blank⟩, fun _ eq => by cases eq⟩, ?_⟩⟩
    · refine ⟨⟨rfl, blank⟩, ?_, Slot.forall_fulfil each (.inl ⟨r, rfl⟩)⟩
      have same : r.id = id := by
        refine key r ?_
        cases answer : o.answer with
        | error e => rw [answer] at res; cases res
        | ok b =>
          rw [answer] at res
          cases b with
          | none => cases res
          | some r' => cases res; rfl
      rw [← subjects]
      simp [subject, same]
    · refine Spec.detach_of (P := IsBook) (E := fun _ => True) (fun c book => ?_) fun s mem => ?_
      · exact Spec.op_mono (fun _ _ _ _ _ => trivial) (op_apart (quiet_of_book book).1.1
          (quiet_of_book book) lasts_blank blank)
      · obtain ⟨r, rfl⟩ | ⟨id, rfl⟩ := each s (by
          rcases List.mem_append.1 mem with mem | mem <;> simp [mem])
        · trivial
        · exact ⟨trivial, fun _ _ _ _ => trivial⟩
  · rintro slots payouts _ w h ⟨holds, subjects, -⟩ res
    refine ⟨holds, fun payouts' eq => ?_⟩
    cases eq
    rw [← subjects, Slot.eq_of_results res, List.map_map]
    rfl
  · rw [List.map_map]
    exact List.map_id ids
  · intro s mem
    obtain ⟨id, -, rfl⟩ := List.mem_map.1 mem
    exact .inr ⟨id, rfl⟩

/-- The balance is a quiet question. -/
lemma quiet_getAssetBalance : (getAssetBalance d asset).Uses IsQuiet fun _ => True := by
  refine Prog.uses_bind (Prog.uses_ofExcept fun _ _ => trivial) fun _ => ?_
  refine Prog.uses_bind (Prog.uses_ofExcept fun _ _ => trivial) fun _ => ?_
  refine Prog.uses_bind (Prog.uses_await ⟨?_, rfl⟩) fun _ => trivial
  simp [IsCalm, Call.writes]

/-- A batch ends in one of the ways in which batches end. -/
lemma wp_authorizePayoutBatch {payoutIds : List Uuid} (blank : Blank w h) :
    (spec chain).wp (authorizePayoutBatch d payoutIds dto context)
      (fun r _ w h => Ends payoutIds.eraseDups w h r) 0 w h := by
  have next {α : Type} {p : Method α} {f : α → Method (List PayoutResponse)} {w h}
      (uses : p.Uses IsQuiet fun _ => True) (blank : Blank w h)
      (rest : ∀ b w h, Blank w h →
        (spec chain).wp (f b) (fun r _ w h => Ends payoutIds.eraseDups w h r) 0 w h) :
      (spec chain).wp (p >>= f) (fun r _ w h => Ends payoutIds.eraseDups w h r) 0 w h :=
    wp_before (fun _ quiet => quiet.1.1) uses lasts_blank blank rest fun _ _ _ blank => blank.ends
  have once : payoutIds.eraseDups.Nodup := Data.nodup_eraseDups payoutIds
  unfold authorizePayoutBatch
  refine next (Prog.uses_require fun _ => trivial) blank fun _ w h blank => ?_
  split
  case h_1 => exact blank.ends
  case h_2 ids eq _ =>
    refine Spec.wp_bind_of (wp_lookUp blank) ?_ fun e _ w h post => post.1.2.ends
    rintro payouts _ w h ⟨⟨rfl, blank⟩, all⟩
    have same := all payouts rfl
    refine next (Prog.uses_orThrow trivial) blank fun first w h blank => ?_
    refine next (Prog.uses_require fun _ => trivial) blank fun _ w h blank => ?_
    refine next (Prog.uses_require fun _ => trivial) blank fun _ w h blank => ?_
    refine next quiet_getAssetBalance blank fun _ w h blank => ?_
    refine next (Prog.uses_require fun _ => trivial) blank fun _ w h blank => ?_
    refine next (Prog.uses_await (quiet_of_book trivial)) blank fun now w h blank => ?_
    refine Spec.wp_bind_of (wp_claimBatch rfl blank.claims blank.1) ?_ fun e _ w h post => ?_
    · rintro claimed _ w h ⟨share, keys, state, unreached⟩
      rw [List.nil_append, same] at keys
      rw [← keys]
      exact wp_settleBatch share state unreached (keys ▸ once)
    · exact .unreached post.1 post.2

end

/-! ## Single authorizations -/

section
variable {chain : Chain → Chain → Prop} {α : Type} {p : Method α} {a : Claims} {id : Uuid} {w : World}
  {h : Hist Api} {d : Deployment} {dto : AuthorizePayoutDto} {context : RequestContext} {now : Timestamp}
  {authorized : PayoutRecord}

/-- Nothing is asked for. -/
lemma lasts_true {P : Call → Prop} : Lasts P fun _ _ => True := ⟨fun _ _ => trivial, fun _ _ => trivial⟩

/-- A program beside the ledger keeps what the call holds. -/
lemma wp_beside (uses : p.Uses IsApart fun _ => True) :
    (spec chain).wp p (fun _ a' _ _ => a' = a) a w h :=
  Spec.wp_mono (fun _ _ _ _ post => post.1) (wp_apart (fun _ apart => apart) uses lasts_true trivial)

/-- A program beside the ledger owes nothing. -/
lemma wp_rest (uses : p.Uses IsApart fun _ => True) : (spec chain).wp p Spec.triv a w h :=
  Spec.wp_mono (fun _ _ _ _ _ => trivial) (wp_beside uses)

/-- A book operation is apart. -/
lemma apart_of_book (c : Call) (book : IsBook c) : IsApart c := (quiet_of_book book).1.1

/-- What the body of the `try` leaves of the claim. -/
def Spent (id : Uuid) : Post Api World Claims (Option PayoutRecord)
  | .ok _ => fun a _ _ => a = 0
  | .error _ => fun a _ _ => a = {id}

/-- The body of the `try` ends the claim with its write, or throws before. -/
lemma wp_executePayout :
    (spec chain).wp (executePayout d id now dto context authorized) (Spent id) {id} w h := by
  have next {α : Type} {p : Method α} {f : α → Method (Option PayoutRecord)} {w h}
      (uses : p.Uses IsApart fun _ => True) (rest : ∀ b w h, (spec chain).wp (f b) (Spent id) {id} w h) :
      (spec chain).wp (p >>= f) (Spent id) {id} w h :=
    wp_before (fun _ apart => apart) uses lasts_true trivial (fun b w h _ => rest b w h) fun _ _ _ _ => rfl
  refine next (Prog.uses_mono (fun c quiet => quiet.1.1) quiet_getAssetBalance) fun _ w h => ?_
  refine next (Prog.uses_require fun _ => trivial) fun _ w h => ?_
  refine next (uses_transferPayout (fun _ => by simp [Call.writes]) (fun _ _ => by simp [Call.writes])
    (fun c asks => (calm_of_asks c asks).1) rfl) fun transfer w h => ?_
  rw [← add_zero ({id} : Claims)]
  refine Spec.wp_bind (Spec.wp_await (Spec.op_mono ?_ op_write))
  rintro _ _ w' h' ⟨rfl, -, -, ⟨r, rfl⟩, rfl⟩
  refine wp_after book_recordAudit lasts_true trivial fun _ w h _ => ?_
  exact wp_after book_announceConfirmed lasts_true trivial fun _ w h _ => rfl

/-- The handler ends the claim with its write. -/
lemma wp_handlePayoutError {e : Exception} :
    (spec chain).wp (handlePayoutError id dto context e) Spec.triv {id} w h := by
  rw [← add_zero ({id} : Claims)]
  unfold handlePayoutError
  split
  case h_1 =>
    refine Spec.wp_bind (Spec.wp_await (Spec.op_mono ?_ op_write))
    rintro _ _ w' h' ⟨rfl, -, -, ⟨r, rfl⟩, rfl⟩
    trivial
  case h_2 =>
    refine Spec.wp_bind (Spec.wp_await (Spec.op_mono ?_ op_write))
    rintro _ _ w' h' ⟨rfl, -, -, ⟨r, rfl⟩, rfl⟩
    refine wp_rest (Prog.uses_bind (Prog.uses_mono apart_of_book book_recordAudit) fun _ => ?_)
    refine Prog.uses_bind (Prog.uses_pure r) fun _ => ?_
    exact Prog.uses_bind (Prog.uses_mono apart_of_book book_toResponse) fun _ => Prog.uses_throw trivial

/-- A single authorization keeps the ledger. -/
lemma wp_authorizePayout (blank : Blank w h) :
    (spec chain).wp (authorizePayout d id dto context) Spec.triv 0 w h := by
  have required {context : RequestContext} : (requirePayout id context).Uses IsBook fun _ => True :=
    Prog.uses_bind (Prog.uses_await trivial) fun _ => Prog.uses_ofExcept fun _ _ => trivial
  have next {α : Type} {p : Method α} {f : α → Method PayoutResponse} {w h}
      (uses : p.Uses IsBook fun _ => True) (blank : Blank w h)
      (rest : ∀ b w h, Blank w h → (spec chain).wp (f b) Spec.triv 0 w h) :
      (spec chain).wp (p >>= f) Spec.triv 0 w h :=
    wp_before (fun _ quiet => quiet.1.1) (Prog.uses_mono (fun _ book => quiet_of_book book) uses)
      lasts_blank blank rest fun _ _ _ _ => trivial
  refine next required blank fun payout w h blank => ?_
  split
  case isTrue => exact wp_rest (Prog.uses_mono apart_of_book book_toResponse)
  case isFalse =>
    refine next (Prog.uses_await trivial) blank fun now w h blank => ?_
    refine Spec.wp_bind (Spec.wp_await (Spec.op_mono ?_ (op_claim blank.claims blank.1)))
    rintro ((_ | authorized) | e | ⟨b, e⟩) a w h post
    · refine wp_rest (Prog.uses_bind (Prog.uses_mono apart_of_book required) fun current => ?_)
      split
      case isTrue => exact Prog.uses_mono apart_of_book book_toResponse
      case isFalse => exact Prog.uses_throw trivial
    · obtain ⟨-, rfl, -⟩ := post
      refine wp_after book_recordAudit lasts_true trivial fun _ w h _ => ?_
      have body : (spec chain).wp ((executePayout d id now dto context authorized).tryCatch
          (handlePayoutError id dto context)) Spec.triv ({id} + 0) w h := by
        rw [add_zero]
        refine Spec.wp_tryCatch_of wp_executePayout (fun _ _ _ _ _ => trivial) ?_
        rintro e _ w h rfl
        exact wp_handlePayoutError
      refine Spec.wp_bind_of body (fun updated a w h _ => wp_rest ?_) fun _ _ _ _ _ => trivial
      exact Prog.uses_bind (Prog.uses_orThrow trivial) fun _ =>
        Prog.uses_mono apart_of_book book_toResponse
    · exact post.elim
    · exact post.elim

/-- A call that has not begun has claimed nothing. -/
lemma blank_nil : Blank w [] := by
  refine ⟨List.forall_mem_nil _, fun id moved => ?_⟩
  obtain ⟨e, mem, -⟩ := moved
  cases mem

/-- Every authorization keeps the ledger. -/
theorem sound : (spec chain).Sound := by
  rintro p ⟨d, entry⟩ w
  cases entry with
  | payout =>
    exact Spec.wp_bind_of (wp_authorizePayout blank_nil) (fun _ _ _ _ _ => trivial) fun _ _ _ _ _ => trivial
  | batch =>
    exact Spec.wp_bind_of (wp_authorizePayoutBatch blank_nil) (fun _ _ _ _ _ => trivial)
      fun _ _ _ _ _ => trivial

end

/-! ## Runs -/

/-- Nothing but the node fails, as it can be computed. -/
def onlyNode (_ : Hist Api) (_ : World) (e : Event Api) : Bool := asksNode e.op || !e.outcome.threw

/-- The check decides the condition. -/
lemma onlyChainFails_of_eval {h : Hist Api} {w : World} {e : Event Api} (ok : onlyNode h w e = true) :
    OnlyChainFails w e := by
  intro node
  refine Event.faultless_of_not_threw ?_
  simpa [onlyNode, node] using ok

/-- Two elements of a `Promise.all` that are awaited side by side. -/
def bothSlots : List (Beat Api World) := [.own (.slot 0 .done), .own (.slot 1 .done), .own .join]

/-- Another call authorizes the first payout. -/
def reclaim : Beat Api World :=
  .others (.enter (authorizePayout vaultDeployment World.sampleId {} .sample).discard :: Choice.steps 0 3)

/-- A batch that gives its first payout back, is overtaken, and gives its second payout back. -/
def interrupted : List (Beat Api World) :=
  bothSlots ++ .replicate 4 (.own (.call .done)) ++ bothSlots ++ .replicate 2 (.own (.call .done)) ++
    [.own (.slot 0 .done), reclaim, .own (.slot 1 .done), .own .join]

end AvaSettle.Payouts.Atomic
