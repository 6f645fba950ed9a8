import AvaSettle.Data.Lists
import AvaSettle.Payouts.Batch

/-!
# Payout calls: creation and reconciliation

`reconcilePayout` reads a row, asks the chain, and writes back without a guard. What it knows when it
writes is what it read: the row, and what the chain said about its transaction. The write is well
timed when the row is not confirmed by then, or when the call has seen as much itself.
-/

namespace AvaSettle.Payouts
open Async
open Blockchain

/-! ## What a history has seen -/

/-- The row that an event read. -/
def rowOf : Event Api → Option PayoutRecord
  | ⟨.payoutFindById _ _, .done r⟩ => r
  | _ => none

/-- The receipt that an event looked up. -/
def receiptOf : Event Api → Option Receipt
  | ⟨.getTransactionReceipt _, .done rc⟩ => some rc
  | _ => none

/-- The call has seen a successful receipt with enough confirmations. -/
def SeenFinal (d : Deployment) (h : Hist Api) : Prop :=
  ∃ rc n, h.findSome? receiptOf = some rc ∧ h.findSome? headOf = some n ∧
    rc.status = .success ∧ d.minConfirmations ≤ n - rc.blockNumber

/-- The call has read the row confirmed. -/
def ReadConfirmed (h : Hist Api) : Prop :=
  ∃ r, h.findSome? rowOf = some r ∧ r.status = .confirmed

/-- An unguarded write to a confirmed row comes from a call that has read it confirmed, or has seen
    its transaction final. -/
def WellTimed (d : Deployment) (h : Hist Api) (w : World) (e : Event Api) : Prop :=
  ∀ id patch, e.op = .payoutUpdate id patch none →
    ∀ r, w.payouts.find? id = some r → r.status = .confirmed → ReadConfirmed h ∨ SeenFinal d h

section
variable {S : Setting} {d : Deployment} {own a : Claims} {id : Uuid} {w w' : World} {h : Hist Api}

/-! ## createPayout -/

/-- Storing a new row, or reading the one that is there, marks nothing. -/
lemma wp_createOrGetExisting {record : PayoutRecord} (prepared : record.status = .prepared)
    (noHash : record.transactionHash = none) (idle : Idle 0 a w h) :
    S.spec.wp (createOrGetExisting record) (fun _ => Idle 0) a w h := by
  refine Spec.wp_bind_of (P := fun _ => Idle 0)
    (Spec.wp_await (op_insert prepared noHash Idle.stable idle)) (fun o a w h idle => ?_)
    fun _ _ _ _ idle => idle
  cases o with
  | some inserted => exact idle
  | none => exact wp_keep (Prog.uses_bind (uses_request rfl) fun _ =>
      Prog.uses_bind (Prog.uses_orThrow trivial) fun _ => Prog.uses_pure _) Idle.stable idle

/-- A creation leaves a good history. -/
lemma wp_createPayout {dto : CreatePayoutDto} {context : RequestContext} (idle : Idle 0 a w h) :
    S.spec.wp (createPayout d dto context) (fun _ => Final) a w h := by
  have before : ∀ {α : Type} {p : Method α} {f : α → Method PayoutResponse} {a w h},
      p.Uses Neutral (fun _ => True) → Idle 0 a w h →
      (∀ b a w h, Idle 0 a w h → S.spec.wp (f b) (fun _ => Final) a w h) →
      S.spec.wp (p >>= f) (fun _ => Final) a w h := fun uses idle rest =>
    Spec.wp_bind_of (wp_keep uses Idle.stable idle) rest fun _ _ _ _ idle => idle.good
  refine before (Prog.uses_ofExcept fun _ _ => trivial) idle fun amountAtomic a w h idle => ?_
  refine before (Prog.uses_ofExcept fun _ _ => trivial) idle fun _ a w h idle => ?_
  refine before (uses_request rfl) idle fun now a w h idle => ?_
  refine before (uses_request rfl) idle fun id a w h idle => ?_
  refine Spec.wp_bind_of (wp_createOrGetExisting rfl rfl idle) ?_ fun _ _ _ _ idle => idle.good
  rintro ⟨record, existed⟩ a w h idle
  cases existed with
  | true => exact wp_final (Prog.uses_bind uses_recordAudit fun _ => uses_toResponse) idle.good
  | false =>
    refine before uses_recordAudit idle fun _ a w h idle => ?_
    dsimp only
    split
    case isTrue => exact wp_authorizePayout idle
    case isFalse => exact wp_final uses_toResponse idle.good

/-! ## reconcilePayout -/

/-- What a row that was read says about the world afterwards. -/
structure Current (strict : Prop) (id : Uuid) (payout : PayoutRecord) (w : World) : Prop where
  sent : payout.transactionHash ≠ none → payout.status ≠ .prepared ∧ payout.status ≠ .authorized
  confirmedAt : payout.status = .confirmed → payout.confirmedAt ≠ none
  row : ∃ r, w.payouts.find? id = some r ∧
    (payout.transactionHash ≠ none → r.transactionHash = payout.transactionHash)
  receipt : strict → payout.status = .confirmed →
    ∃ hash, payout.transactionHash = some hash ∧ Succeeded w hash

/-- A successful receipt stays. -/
lemma Succeeded.later {hash : Hex} (st : S.strict) (l : Later S.strict w w')
    (ok : Succeeded w hash) : Succeeded w' hash := by
  obtain ⟨rc, found, ok⟩ := ok
  exact l.receipt st hash rc found ok

/-- What has been read stays current. -/
lemma Current.later {payout : PayoutRecord} (l : Later S.strict w w')
    (current : Current S.strict id payout w) : Current S.strict id payout w' where
  sent := current.sent
  confirmedAt := current.confirmedAt
  row := by
    obtain ⟨r, found, same⟩ := current.row
    obtain ⟨r', found', row⟩ := l.row id r found
    exact ⟨r', found', fun hash => (row.hash (same hash ▸ hash)).trans (same hash)⟩
  receipt st confirmed := by
    obtain ⟨hash, eq, ok⟩ := current.receipt st confirmed
    exact ⟨hash, eq, ok.later st l⟩

/-- A row that is in order is current when it is read. -/
lemma Current.of_row {payout : PayoutRecord} (found : w.payouts.find? id = some payout)
    (ok : RowOk S.strict w payout) : Current S.strict id payout w where
  sent hash := ⟨fun status => hash (ok.unsent (.inl status)),
    fun status => hash (ok.unsent (.inr status))⟩
  confirmedAt := ok.confirmedAt
  row := ⟨payout, found, fun _ => rfl⟩
  receipt st confirmed := by
    obtain ⟨hash, rc, eq, found, success⟩ := ok.receipt st confirmed
    exact ⟨hash, eq, rc, found, success⟩

/-- A call that has read a row, and nothing else. -/
structure Reads (strict : Prop) (id : Uuid) (payout : PayoutRecord) (w : World) (h : Hist Api) :
    Prop where
  good : Good h
  current : Current strict id payout w
  row : h.findSome? rowOf = some payout
  noReceipt : h.findSome? receiptOf = none
  noHead : h.findSome? headOf = none

/-- What the read of the row leaves. -/
def ReadRow (strict : Prop) (id : Uuid) : After PayoutRecord
  | .ok payout => fun _ => Reads strict id payout
  | .error _ => Final

/-- The read of the row. -/
lemma wp_requirePayout {context : RequestContext} :
    S.spec.wp (requirePayout id context) (ReadRow S.strict id) a w [] := by
  refine Spec.wp_bind (Spec.wp_await (op_read rfl S.spec.good_nil ?_))
  intro f w₁ o w₂ quiet le inv reply later
  have good : Good [⟨Call.payoutFindById id context.clientId, o⟩] := S.spec.good_nil.quiet quiet
  rcases o with ((_ | payout) | e | ⟨r, e⟩)
  · exact good
  · obtain ⟨eq, rfl⟩ := Prod.mk.inj (Option.some.inj reply)
    have found : w₁.payouts.find? id = some payout := (Option.filter_eq_some_iff.1 eq).1
    exact ⟨good, .of_row found (inv.rows id payout found), rfl, rfl, rfl⟩
  · exact good
  · exact good

/-- What a call knows before it writes a reconciliation. -/
structure Looked (strict : Prop) (d : Deployment) (id : Uuid) (payout : PayoutRecord) (hash : Hex)
    (r : TransactionReconciliation) (w : World) (h : Hist Api) : Prop where
  good : Good h
  current : Current strict id payout w
  row : h.findSome? rowOf = some payout
  /-- What the call has seen final it takes as final. -/
  seen : SeenFinal d h → r.finalized = true
  /-- What the call takes as final has succeeded. -/
  final : strict → r.finalized = true → Succeeded w hash
  /-- What has succeeded does not revert. -/
  notReverted : strict → payout.status = .confirmed → r.status ≠ .reverted

/-- What the questions to the chain leave. -/
def LookedUp (strict : Prop) (d : Deployment) (id : Uuid) (payout : PayoutRecord) (hash : Hex) :
    After TransactionReconciliation
  | .ok r => fun _ => Looked strict d id payout hash r
  | .error _ => Final

/-- What a call knows once it has looked up the receipt. -/
structure Asked (strict : Prop) (id : Uuid) (payout : PayoutRecord) (hash : Hex)
    (answer : Except Exception Receipt) (w : World) (h : Hist Api) : Prop where
  good : Good h
  current : Current strict id payout w
  row : h.findSome? rowOf = some payout
  receipt : h.findSome? receiptOf = answer.toOption
  noHead : h.findSome? headOf = none
  success : ∀ rc, answer = .ok rc → rc.status = .success → Succeeded w hash
  confirmed : strict → payout.status = .confirmed → ∀ rc, answer = .ok rc → rc.status = .success

/-- The question for the receipt. -/
lemma op_receipt {payout : PayoutRecord} {hash : Hex} (eq : payout.transactionHash = some hash)
    (reads : Reads S.strict id payout w h) :
    S.spec.op (.getTransactionReceipt hash) (fun o _ => Asked S.strict id payout hash o.answer)
      a w h := by
  refine op_read rfl reads.good fun f w₁ o w₂ quiet le inv reply later => ?_
  have found : ∀ rc, o.answer = .ok rc → w₁.chain.receipts hash = some rc ∧ w₂ = w₁ := by
    rintro rc answer
    cases o with
    | refused e => cases answer
    | lost b e => cases answer
    | done rc' =>
      cases answer
      obtain ⟨rc', found, eq'⟩ := Option.map_eq_some_iff.1 reply
      cases eq'
      exact ⟨found, rfl⟩
  have current := reads.current.later le
  refine ⟨reads.good.quiet quiet, current.later later, ?_, ?_, ?_, ?_, ?_⟩
  · simp [reads.row]
  · rw [Data.findSome?_concat, reads.noReceipt]
    cases o <;> rfl
  · rw [Data.findSome?_concat, reads.noHead]
    rfl
  · rintro rc answer ok
    obtain ⟨found, rfl⟩ := found rc answer
    exact ⟨rc, found, ok⟩
  · rintro st confirmed rc answer
    obtain ⟨hash', eq', rc', found', ok⟩ := current.receipt st confirmed
    obtain rfl : hash' = hash := Option.some_inj.1 (eq'.symm.trans eq)
    obtain rfl : rc' = rc := Option.some_inj.1 (found'.symm.trans (found rc answer).1)
    exact ok

/-- The questions to the chain. -/
lemma wp_reconcileTransaction {payout : PayoutRecord} {hash : Hex}
    (eq : payout.transactionHash = some hash) (reads : Reads S.strict id payout w h) :
    S.spec.wp (reconcileTransaction d hash) (LookedUp S.strict d id payout hash) a w h := by
  refine Spec.wp_bind (Spec.op_mono ?_ (op_receipt eq reads))
  intro o a w h asked
  cases answer : o.answer with
  | error e =>
    rw [answer] at asked
    refine ⟨asked.good, asked.current, asked.row, ?_, fun _ final => (by cases final),
      fun _ _ => nofun⟩
    rintro ⟨rc, n, seen, -⟩
    cases asked.receipt.symm.trans seen
  | ok rc =>
    rw [answer] at asked
    refine Spec.wp_bind (Spec.wp_await (op_read rfl asked.good ?_))
    intro f w₁ o w₂ quiet le inv reply later
    have good := asked.good.quiet quiet
    rcases o with (n | e | ⟨n, e⟩)
    · refine ⟨good, (asked.current.later le).later later, ?_, ?_, fun st final => ?_,
        fun st confirmed reverted => ?_⟩
      · rw [Data.findSome?_concat, asked.row]
        rfl
      · rintro ⟨rc', n', seen, head, ok, deep⟩
        rw [Data.findSome?_concat, asked.receipt] at seen
        rw [Data.findSome?_concat, asked.noHead] at head
        cases seen
        cases head
        simp [reconciliationOf, ok, deep]
      · have ok : rc.status = .success := by
          simp only [reconciliationOf, Bool.and_eq_true, decide_eq_true_eq] at final
          exact final.1
        exact (((asked.success rc rfl ok).later st le).later st later)
      · have ok := asked.confirmed st confirmed rc rfl
        simp [reconciliationOf, ok] at reverted
    · exact good
    · exact good

/-- A reading of the clock teaches nothing about the row. -/
lemma op_clock {payout : PayoutRecord} {hash : Hex} {r : TransactionReconciliation}
    (looked : Looked S.strict d id payout hash r w h) :
    S.spec.op .clock (fun _ _ => Looked S.strict d id payout hash r) a w h := by
  refine op_read rfl looked.good fun f w₁ o w₂ quiet le inv reply later => ?_
  have le' := le.trans later
  refine ⟨looked.good.quiet quiet, looked.current.later le', ?_, ?_,
    fun st final => (looked.final st final).later st le', looked.notReverted⟩
  · simp [looked.row]
  · rintro ⟨rc, n, seen, head, final⟩
    rw [Data.findSome?_concat] at seen head
    refine looked.seen ⟨rc, n, ?_, ?_, final⟩
    · simpa [receiptOf] using seen
    · simpa [headOf] using head

/-- The write of a reconciliation. -/
lemma op_reconcile {payout : PayoutRecord} {hash : Hex} {r : TransactionReconciliation}
    {now : Timestamp} (timed : S.strict → ∀ h w e, S.cond h w e → WellTimed d h w e)
    (eq : payout.transactionHash = some hash)
    (looked : Looked S.strict d id payout hash r w h) :
    S.spec.op (.payoutUpdate id (reconcilePatch payout r now) none) (fun _ => Final) a w h := by
  intro w₁ f o w₂ le inv reply cond
  have isHash : payout.transactionHash ≠ none := by simp [eq]
  have quiet : Quiet ⟨.payoutUpdate id (reconcilePatch payout r now) none, o⟩ :=
    ⟨fun _ => rfl, rfl, fun _ => rfl⟩
  have current := looked.current.later le
  have row : ∀ r', w₁.payouts.find? id = some r' → r'.transactionHash = some hash := by
    intro r' found
    obtain ⟨r'', found', same⟩ := current.row
    obtain rfl : r'' = r' := Option.some_inj.1 (found'.symm.trans found)
    exact (same isHash).trans eq
  have notFailed : S.strict → payout.status = .confirmed → reconciledStatus payout r = .confirmed := by
    intro st confirmed
    unfold reconciledStatus
    split
    case isTrue => rfl
    case isFalse => rw [if_neg (looked.notReverted st confirmed), confirmed]
  have receipt : S.strict → reconciledStatus payout r = .confirmed →
      ∃ rc, w₁.chain.receipts hash = some rc ∧ rc.status = .success := by
    intro st confirmed
    by_cases final : r.finalized = true
    · exact (looked.final st final).later st le
    · unfold reconciledStatus at confirmed
      rw [if_neg final] at confirmed
      split at confirmed
      case isTrue => cases confirmed
      case isFalse =>
        obtain ⟨hash', eq', ok⟩ := current.receipt st confirmed
        obtain rfl : hash' = hash := Option.some_inj.1 (eq'.symm.trans eq)
        exact ok
  have keeps : S.strict → ∀ r', w₁.payouts.find? id = some r' → r'.status = .confirmed →
      reconciledStatus payout r = .confirmed := by
    intro st r' found confirmed
    rcases timed st _ _ _ cond id _ rfl r' found confirmed with ⟨r'', read, confirmed⟩ | seen
    · obtain rfl : payout = r'' := Option.some_inj.1 (looked.row.symm.trans read)
      exact notFailed st confirmed
    · simp [reconciledStatus, looked.seen seen]
  have inv₁ : Inv S.strict w₁ (a + f) := inv
  obtain ⟨inv', later⟩ := inv_of_reconcile inv₁ (current.sent isHash) current.confirmedAt row receipt
    keeps
  have good := looked.good.quiet quiet
  refine ⟨good, a, ?_⟩
  cases o with
  | done b =>
    obtain rfl := (Prod.mk.inj (Option.some.inj reply)).2
    exact ⟨inv', later, good⟩
  | refused e =>
    obtain ⟨-, rfl⟩ := reply
    exact ⟨inv, .refl, good⟩
  | lost b e =>
    obtain rfl := (Prod.mk.inj (Option.some.inj reply.1)).2
    exact ⟨inv', later, good⟩

/-- A reconciliation leaves a good history. -/
lemma wp_reconcilePayout {context : RequestContext}
    (timed : S.strict → ∀ h w e, S.cond h w e → WellTimed d h w e) :
    S.spec.wp (reconcilePayout d id context) (fun _ => Final) a w [] := by
  refine Spec.wp_bind_of wp_requirePayout (fun payout a w h reads => ?_) fun _ _ _ _ good => good
  refine Spec.wp_bind (Spec.wp_orThrow (fun hash isHash => ?_) fun _ => reads.good)
  have eq : payout.transactionHash = some hash := (Option.filter_eq_some_iff.1 isHash).1
  refine Spec.wp_bind_of (wp_reconcileTransaction eq reads) (fun r a w h looked => ?_)
    fun _ _ _ _ good => good
  refine Spec.wp_bind (Spec.wp_await (Spec.op_mono ?_ (op_clock looked)))
  rintro (now | e | ⟨now, e⟩) a w h looked
  · refine Spec.wp_bind_of (P := fun _ => Final) (Spec.wp_await (op_reconcile timed eq looked))
      (fun updated a w h good => wp_final ?_ good) fun _ _ _ _ good => good
    exact Prog.uses_bind uses_recordAudit fun _ =>
      Prog.uses_bind (Prog.uses_orThrow trivial) fun _ => uses_toResponse
  · exact looked.good
  · exact looked.good

end

end AvaSettle.Payouts
