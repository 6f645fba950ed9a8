import AvaSettle.Payouts.History

/-!
# Payout calls: the rule of each operation

The states of a call around the submission of a payment, and what each operation owes from each of
them. `Idle` is before the submission, with the claims the call owns; `Sent` is after it; `Late` is
after it and after a throw; `Recorded` is after the ledger has the hash of the transaction.
-/

namespace AvaSettle.Payouts
open Async
open Data (Table)
open Blockchain

/-- An assertion of a call: over its claims, the world and its history. -/
abbrev Assertion := Claims → World → Hist Api → Prop

/-- Nothing has been sent, and nothing has been marked failed. -/
structure Idle (own : Claims) (a : Claims) (w : World) (h : Hist Api) : Prop where
  share : a = own
  noLate : ¬LateThrow h
  unsent : ∀ id, ¬Submitted id h
  unmarked : ∀ id, ¬MarkedFailed id h

/-- Nothing has been sent. -/
structure Unsent (own : Claims) (a : Claims) (w : World) (h : Hist Api) : Prop where
  share : a = own
  noLate : ¬LateThrow h
  unsent : ∀ id, ¬Submitted id h

/-- The payouts have been sent, and nothing has thrown since. -/
structure Sent (ids : List Uuid) (a : Claims) (w : World) (h : Hist Api) : Prop where
  share : a = 0
  noLate : ¬LateThrow h
  unmarked : ∀ id, ¬MarkedFailed id h
  paid : ∀ id ∈ ids, id ∈ w.paid
  sent : ∀ id ∈ ids, Submitted id h

/-- The payouts have been sent, and something has thrown since. -/
structure Late (ids : List Uuid) (a : Claims) (w : World) (h : Hist Api) : Prop where
  share : a = 0
  good : Good h
  late : LateThrow h
  paid : ∀ id ∈ ids, id ∈ w.paid
  sent : ∀ id ∈ ids, Submitted id h

/-- The payout is in the ledger, and not authorized any more. -/
def Settled (w : World) (id : Uuid) : Prop :=
  ∃ r, w.payouts.find? id = some r ∧ r.status ≠ .authorized

/-- The payouts have been sent and their transaction is in the ledger. -/
structure Recorded (ids : List Uuid) (a : Claims) (w : World) (h : Hist Api) : Prop where
  share : a = 0
  unmarked : ∀ id, ¬MarkedFailed id h
  paid : ∀ id ∈ ids, id ∈ w.paid
  settled : ∀ id ∈ ids, Settled w id

/-- What is left once a call has nothing more to write. -/
def Final (_ : Claims) (_ : World) (h : Hist Api) : Prop := Good h

section
variable {strict : Prop} {own a : Claims} {ids : List Uuid} {id : Uuid} {w w' : World}
  {h : Hist Api} {e : Event Api}

/-- A history that marks nothing failed is good. -/
lemma good_of_unmarked (unmarked : ∀ id, ¬MarkedFailed id h) : Good h :=
  fun id marked => absurd marked (unmarked id)

/-- What is settled stays settled. -/
lemma Settled.later (paid : id ∈ w.paid) (later : Later strict w w') (settled : Settled w id) :
    Settled w' id := by
  obtain ⟨r, found, ne⟩ := settled
  obtain ⟨r', found', row⟩ := later.row id r found
  exact ⟨r', found', row.settled (Table.key_of_find? found ▸ paid) ne⟩

/-! ## Stable assertions -/

/-- An assertion that waiting and events that do not count leave alone. -/
structure Stable (strict : Prop) (R : Assertion) : Prop where
  good : ∀ {a w h}, R a w h → Good h
  later : ∀ {a w w' h}, Later strict w w' → R a w h → R a w' h
  quiet : ∀ {a w h e}, Quiet e → R a w h → R a w (h ++ [e])

/-- An idle call has a good history. -/
lemma Idle.good (idle : Idle own a w h) : Good h := good_of_unmarked idle.unmarked

/-- So has a call that has sent nothing. -/
lemma Unsent.good (unsent : Unsent own a w h) : Good h :=
  fun id _ => ⟨fun h => absurd h (unsent.unsent id), fun h => absurd h unsent.noLate⟩

/-- So has one whose transaction is out. -/
lemma Sent.good (sent : Sent ids a w h) : Good h := good_of_unmarked sent.unmarked

/-- So has one that has recorded its transaction. -/
lemma Recorded.good (recorded : Recorded ids a w h) : Good h := good_of_unmarked recorded.unmarked

/-- An idle call has sent nothing. -/
lemma Idle.unsent_of (idle : Idle own a w h) : Unsent own a w h :=
  ⟨idle.share, idle.noLate, idle.unsent⟩

/-- That a call is idle does not depend on the world. -/
lemma Idle.world (idle : Idle own a w h) : Idle own a w' h :=
  ⟨idle.share, idle.noLate, idle.unsent, idle.unmarked⟩

/-- What has been sent stays sent. -/
lemma Sent.later (l : Later strict w w') (sent : Sent ids a w h) : Sent ids a w' h :=
  ⟨sent.share, sent.noLate, sent.unmarked, fun id mem => l.paid id (sent.paid id mem), sent.sent⟩

/-- So does what has been sent before a late throw. -/
lemma Late.later (l : Later strict w w') (late : Late ids a w h) : Late ids a w' h :=
  ⟨late.share, late.good, late.late, fun id mem => l.paid id (late.paid id mem), late.sent⟩

/-- So does what has been recorded. -/
lemma Recorded.later (l : Later strict w w') (recorded : Recorded ids a w h) :
    Recorded ids a w' h :=
  ⟨recorded.share, recorded.unmarked, fun id mem => l.paid id (recorded.paid id mem),
    fun id mem => (recorded.settled id mem).later (recorded.paid id mem) l⟩

/-- An event that does not count leaves a call idle. -/
lemma Idle.quiet (q : Quiet e) (idle : Idle own a w h) : Idle own a w (h ++ [e]) :=
  ⟨idle.share, mt q.lateThrow.1 idle.noLate, fun id => mt q.submitted.1 (idle.unsent id),
    fun id => mt q.markedFailed.1 (idle.unmarked id)⟩

/-- It leaves what has been sent. -/
lemma Sent.quiet (q : Quiet e) (sent : Sent ids a w h) : Sent ids a w (h ++ [e]) :=
  ⟨sent.share, mt q.lateThrow.1 sent.noLate, fun id => mt q.markedFailed.1 (sent.unmarked id),
    sent.paid, fun id mem => q.submitted.2 (sent.sent id mem)⟩

/-- It leaves what has been recorded. -/
lemma Recorded.quiet (q : Quiet e) (recorded : Recorded ids a w h) :
    Recorded ids a w (h ++ [e]) :=
  ⟨recorded.share, fun id => mt q.markedFailed.1 (recorded.unmarked id), recorded.paid,
    recorded.settled⟩

/-- An operation that throws late. -/
lemma Sent.throws (sent : Sent ids a w h) (isLate : late e = true)
    (unmarked : ∀ id, marksFailed id e = false) : Late ids a w (h ++ [e]) where
  share := sent.share
  good := good_of_unmarked fun id marked => by
    rw [markedFailed_append, unmarked] at marked
    exact marked.elim (sent.unmarked id) (by simp)
  late := lateThrow_append.2 (.inr isLate)
  paid := sent.paid
  sent id mem := submitted_append.2 (.inl (sent.sent id mem))

/-- After a late throw, the payouts that have been sent may be marked failed. -/
lemma Late.append (l : Late ids a w h) (marks : ∀ id, marksFailed id e = true → id ∈ ids) :
    Late ids a w (h ++ [e]) where
  share := l.share
  good id marked := by
    have thrown : LateThrow (h ++ [e]) := lateThrow_append.2 (.inl l.late)
    refine ⟨fun _ => thrown, fun _ => submitted_append.2 (.inl ?_)⟩
    rcases markedFailed_append.1 marked with marked | marked
    · exact (l.good id marked).2 l.late
    · exact l.sent id (marks id marked)
  late := lateThrow_append.2 (.inl l.late)
  paid := l.paid
  sent id mem := submitted_append.2 (.inl (l.sent id mem))

/-- Being idle is stable. -/
lemma Idle.stable : Stable strict (Idle own) := ⟨Idle.good, fun _ => Idle.world, Idle.quiet⟩

/-- Having recorded the transaction is stable. -/
lemma Recorded.stable : Stable strict (Recorded ids) :=
  ⟨Recorded.good, Recorded.later, Recorded.quiet⟩

/-- A good history is stable. -/
lemma Final.stable : Stable strict Final := ⟨fun good => good, fun _ good => good,
  fun q good => Good.quiet good q⟩

end

/-! ## Rules -/

section
variable {S : Setting} {own a : Claims} {ids : List Uuid} {id : Uuid} {w w' : World}
  {h : Hist Api}

/-- The world around a neutral operation. -/
lemma reply_neutral {c : Call} (hc : isNeutral c = true) {o : Outcome Exception c.Res}
    (inv : Inv S.strict w a) (reply : S.machine.Reply c w o w') :
    Inv S.strict w' a ∧ Later S.strict w w' := by
  have same : ∀ b, World.exec c w = some (b, w') → Inv S.strict w' a ∧ Later S.strict w w' := by
    intro b run
    obtain ⟨payouts, submissions, chain⟩ := exec_neutral hc run
    have find : ∀ k, w'.payouts.find? k = w.payouts.find? k := by simp [payouts]
    have paid : w'.paid = w.paid := by simp [World.paid, submissions]
    have later : Later S.strict w w' := .of_chain find submissions chain
    exact ⟨inv.of_same find paid later, later⟩
  cases o with
  | done b => exact same b reply
  | refused e =>
    obtain ⟨-, rfl⟩ := reply
    exact ⟨inv, .refl⟩
  | lost b e => exact same b reply.1

/-- A neutral operation, with what is known when it is answered. -/
lemma op_read {c : Call} (hc : isNeutral c = true) (good : Good h)
    {K : Outcome Exception c.Res → Assertion}
    (hK : ∀ f w₁ o w₂, Quiet ⟨c, o⟩ → Later S.strict w w₁ → Inv S.strict w₁ (a + f) →
      S.machine.Reply c w₁ o w₂ → Later S.strict w₁ w₂ → K o a w₂ (h ++ [⟨c, o⟩])) :
    S.spec.op c K a w h := by
  intro w₁ f o w₂ le inv reply _
  obtain ⟨inv', later⟩ := reply_neutral hc inv reply
  have quiet := quiet_of_neutral hc o
  exact ⟨good.quiet quiet, a, inv', later, hK f w₁ o w₂ quiet le inv reply later⟩

/-- A neutral operation keeps every stable assertion. -/
lemma op_neutral {c : Call} (hc : isNeutral c = true) {R : Assertion} (st : Stable S.strict R)
    (hR : R a w h) : S.spec.op c (fun _ => R) a w h :=
  op_read hc (st.good hR) fun _ _ _ _ quiet le _ _ later =>
    st.quiet quiet (st.later (le.trans later) hR)

/-- A program of neutral operations keeps every stable assertion, and throws what it may. -/
lemma wp_neutral {α : Type} {p : Method α} {E : Exception → Prop}
    (foreign : ∀ e, e.isForeign = true → E e)
    (uses : p.Uses (fun c => isNeutral c = true) E) {R : Assertion} (st : Stable S.strict R)
    (hR : R a w h) : S.spec.wp p (fun r a w h => R a w h ∧ ∀ e, r = .error e → E e) a w h := by
  refine Spec.wp_uses (fun c e hc err => foreign e ?_) (fun c a w h hc hR => op_neutral hc st hR)
    (fun c a w h hc hR => ?_) uses hR
  · change Call.raises c e = true at err
    cases c <;> first | exact err | cases err
  · exact Spec.op_mono (fun _ _ _ _ _ => trivial)
      (op_neutral hc Final.stable (R := Final) (st.good hR))

/-! ### Writes -/

/-- A new payout. -/
lemma op_insert {r : PayoutRecord} (prepared : r.status = .prepared)
    (noHash : r.transactionHash = none) {R : Assertion} (st : Stable S.strict R) (hR : R a w h) :
    S.spec.op (.payoutInsert r) (fun _ => R) a w h := by
  intro w₁ f o w₂ le inv reply _
  have hR₁ := st.quiet (quiet_of_insert r o) (st.later le hR)
  have performed : ∀ b, w₁.insertPayout r = some (b, w₂) →
      ∃ a', Inv S.strict w₂ (a' + f) ∧ Later S.strict w₁ w₂ ∧ R a' w₂ (h ++ [⟨.payoutInsert r, o⟩]) :=
    fun b run => by
      obtain ⟨inv', later⟩ := inv_of_insert inv prepared noHash run
      exact ⟨a, inv', later, st.later later hR₁⟩
  refine ⟨st.good hR₁, ?_⟩
  cases o with
  | done b => exact performed b reply
  | refused e =>
    obtain ⟨-, rfl⟩ := reply
    exact ⟨a, inv, .refl, hR₁⟩
  | lost b e => exact performed b reply.1

/-- An update whose patch neither records a hash nor marks a payout failed does not count. -/
lemma quiet_of_update {patch : PayoutPatch} {guard : Option (List PayoutStatus)}
    (noHash : patch.transactionHash = none) (status : patch.status ≠ some .failed)
    (o : Outcome Exception (Option PayoutRecord)) :
    Quiet ⟨.payoutUpdate id patch guard, o⟩ := by
  refine ⟨fun _ => rfl, by simp [late, noHash], fun k => ?_⟩
  cases guard <;> simp [marksFailed, status]

/-- What the claim of a row leaves: one more claim where a row came back. -/
def Claimed (own : Claims) (id : Uuid) : Outcome Exception (Option PayoutRecord) → Assertion
  | .done (some r) => fun a w h => r.id = id ∧ Idle ({id} + own) a w h
  | _ => Idle own

/-- A claim. -/
lemma op_claim {now : Timestamp} (idle : Idle own a w h) :
    S.spec.op (.payoutUpdate id (claimPatch now) (some [.prepared])) (Claimed own id) a w h := by
  intro w₁ f o w₂ le inv reply _
  obtain rfl := idle.share
  have quiet : Quiet ⟨.payoutUpdate id (claimPatch now) (some [.prepared]), o⟩ :=
    quiet_of_update rfl (by simp [claimPatch]) o
  have idle' {w'} : Idle a a w' _ := (idle.quiet quiet).world
  refine ⟨(idle.quiet quiet).good, ?_⟩
  cases o with
  | refused e =>
    obtain ⟨-, rfl⟩ := reply
    exact ⟨a, inv, .refl, idle'⟩
  | lost b e =>
    obtain rfl := (Prod.mk.inj (Option.some.inj reply.1)).2
    -- the claim is made but not known: nobody owns it any more
    cases res : (w₁.updatePayout id (claimPatch now) (some [.prepared])).1 with
    | none =>
      obtain ⟨inv', later⟩ := inv_of_update_none inv res
      exact ⟨a, inv', later, idle'⟩
    | some r =>
      obtain ⟨inv', later, -⟩ := inv_of_claim inv res
      exact ⟨a, inv'.drop, later, idle'⟩
  | done b =>
    obtain ⟨res, rfl⟩ := Prod.mk.inj (Option.some.inj reply)
    cases b with
    | none =>
      obtain ⟨inv', later⟩ := inv_of_update_none inv res
      exact ⟨a, inv', later, idle'⟩
    | some r =>
      obtain ⟨inv', later, key⟩ := inv_of_claim inv res
      refine ⟨{id} + a, ?_, later, key, rfl, idle.quiet quiet |>.noLate, ?_, ?_⟩
      · rwa [add_assoc]
      · exact (idle.quiet quiet).unsent
      · exact (idle.quiet quiet).unmarked

/-- A claim given up, by releasing the row or by marking it failed. Even where the write is refused
    the call has done with the claim. -/
lemma op_giveUp {patch : PayoutPatch} (status : patch.status = some .prepared ∨
    patch.status = some .failed) (noHash : patch.transactionHash = none)
    (unsent : Unsent ({id} + own) a w h) :
    S.spec.op (updateAuthorized id patch) (fun _ => Unsent own) a w h := by
  intro w₁ f o w₂ le inv reply _
  obtain rfl := unsent.share
  have unsent' : Unsent own own w₂ (h ++ [⟨updateAuthorized id patch, o⟩]) := by
    refine ⟨rfl, fun thrown => ?_, fun k submitted => ?_⟩
    · rw [lateThrow_append] at thrown
      exact thrown.elim unsent.noLate (by simp [late, updateAuthorized, noHash])
    · rw [submitted_append] at submitted
      exact submitted.elim (unsent.unsent k) (by simp [sends, updateAuthorized])
  have inv₁ : Inv S.strict w₁ ({id} + (own + f)) := by
    rw [← add_assoc]
    exact inv
  refine ⟨unsent'.good, own, ?_⟩
  cases o with
  | done b =>
    obtain rfl := (Prod.mk.inj (Option.some.inj reply)).2
    obtain ⟨inv', later⟩ := inv_of_giveUp inv₁ status noHash
    exact ⟨inv', later, unsent'⟩
  | refused e =>
    obtain ⟨-, rfl⟩ := reply
    exact ⟨inv₁.drop, .refl, unsent'⟩
  | lost b e =>
    obtain rfl := (Prod.mk.inj (Option.some.inj reply.1)).2
    obtain ⟨inv', later⟩ := inv_of_giveUp inv₁ status noHash
    exact ⟨inv', later, unsent'⟩

/-- What a submission leaves: the payouts are sent, unless the node refused, and the call may not
    know that they are. -/
def Submits (ids : List Uuid) : Outcome Exception Hex → Assertion
  | .done _ => Sent ids
  | .refused _ => Idle ids
  | .lost _ _ => Late ids

/-- A submission. -/
lemma op_submit {account : Hex} {tx : Tx} (idle : Idle ids a w h) :
    S.spec.op (.submit account tx ids) (Submits ids) a w h := by
  intro w₁ f o w₂ le inv reply _
  obtain rfl := idle.share
  have unmarked : ∀ k, ¬MarkedFailed k (h ++ [⟨.submit account tx ids, o⟩]) := fun k marked => by
    rw [markedFailed_append] at marked
    exact marked.elim (idle.unmarked k) (by simp [marksFailed])
  refine ⟨good_of_unmarked unmarked, ?_⟩
  have paid : ∀ id ∈ ids, id ∈ World.paid { w₁ with
      submissions := w₁.submissions ++ [⟨w₁.chain.nextHash, account, tx, ids⟩] } :=
    fun id mem => by simp [World.paid, mem]
  obtain ⟨inv', later⟩ := inv_of_submit w₁.chain.nextHash account tx inv
  cases o with
  | done b =>
    obtain ⟨rfl, rfl⟩ := Prod.mk.inj (Option.some.inj reply)
    refine ⟨0, inv'.zero_add, later, rfl, fun thrown => ?_, unmarked, paid, fun id mem => ?_⟩
    · rw [lateThrow_append] at thrown
      exact thrown.elim idle.noLate (by simp [late])
    · exact submitted_append.2 (.inr (by simp [sends, mem, Outcome.performed]))
  | refused e =>
    obtain ⟨-, rfl⟩ := reply
    refine ⟨ids, inv, .refl, rfl, fun thrown => ?_, fun id submitted => ?_, unmarked⟩
    · rw [lateThrow_append] at thrown
      exact thrown.elim idle.noLate (by simp [late])
    · rw [submitted_append] at submitted
      exact submitted.elim (idle.unsent id) (by simp [sends, Outcome.performed])
  | lost b e =>
    obtain ⟨rfl, rfl⟩ := Prod.mk.inj (Option.some.inj reply.1)
    refine ⟨0, inv'.zero_add, later, rfl, good_of_unmarked unmarked, ?_, paid, fun id mem => ?_⟩
    · exact lateThrow_append.2 (.inr rfl)
    · exact submitted_append.2 (.inr (by simp [sends, mem, Outcome.performed]))

/-- The chain shows a successful receipt of the transaction. -/
def Succeeded (w : World) (hash : Hex) : Prop :=
  ∃ rc, w.chain.receipts hash = some rc ∧ rc.status = .success

/-- What the wait for a receipt leaves. -/
def Waited (ids : List Uuid) (hash : Hex) : Outcome Exception Receipt → Assertion
  | .done rc => fun a w h => Sent ids a w h ∧ w.chain.receipts hash = some rc
  | _ => Late ids

/-- The wait for the receipt of a transaction that has been sent. -/
lemma op_wait {hash : Hex} (sent : Sent ids a w h) :
    S.spec.op (.waitForTransactionReceipt hash) (Waited ids hash) a w h := by
  intro w₁ f o w₂ le inv reply _
  have sent₁ := sent.later le
  have mined : ∀ rc, World.exec (.waitForTransactionReceipt hash) w₁ = some (rc, w₂) →
      w₁.chain.receipts hash = some rc ∧ w₂ = w₁ := fun rc run => by
    obtain ⟨rc', found, eq⟩ := Option.map_eq_some_iff.1 run
    cases eq
    exact ⟨found, rfl⟩
  have unmarked : ∀ k, marksFailed k ⟨.waitForTransactionReceipt hash, o⟩ = false := fun _ => rfl
  cases o with
  | done rc =>
    obtain ⟨found, rfl⟩ := mined rc reply
    have quiet : Quiet ⟨.waitForTransactionReceipt hash, .done rc⟩ :=
      ⟨fun _ => rfl, rfl, fun _ => rfl⟩
    exact ⟨(sent₁.quiet quiet).good, a, inv, .refl, sent₁.quiet quiet, found⟩
  | refused e =>
    obtain ⟨-, rfl⟩ := reply
    have thrown : Late ids a _ (h ++ [⟨.waitForTransactionReceipt hash, .refused e⟩]) :=
      sent₁.throws rfl unmarked
    exact ⟨thrown.good, a, inv, .refl, thrown⟩
  | lost rc e =>
    obtain ⟨found, rfl⟩ := mined rc reply.1
    have thrown : Late ids a _ (h ++ [⟨.waitForTransactionReceipt hash, .lost rc e⟩]) :=
      sent₁.throws rfl unmarked
    exact ⟨thrown.good, a, inv, .refl, thrown⟩

/-- A transfer that counts as confirmed has its receipt. -/
def Evidence (strict : Prop) (w : World) (exec : TransferExecution) : Prop :=
  strict → exec.status = .confirmed → Succeeded w exec.hash

/-- Evidence stays. -/
lemma Evidence.later {exec : TransferExecution} (l : Later S.strict w w')
    (evidence : Evidence S.strict w exec) : Evidence S.strict w' exec := by
  intro st confirmed
  obtain ⟨rc, found, ok⟩ := evidence st confirmed
  exact l.receipt st exec.hash rc found ok

/-- What the write that records a transfer leaves. -/
def Records (ids : List Uuid) (id : Uuid) : Outcome Exception (Option PayoutRecord) → Assertion
  | .done _ => fun a w h => Sent ids a w h ∧ Settled w id
  | _ => Late ids

/-- The write that records the transfer of a payout. -/
lemma op_record {exec : TransferExecution} {now : Timestamp} (mem : id ∈ ids)
    (evidence : Evidence S.strict w exec) (sent : Sent ids a w h) :
    S.spec.op (updateAuthorized id (recordPatch exec now)) (Records ids id) a w h := by
  intro w₁ f o w₂ le inv reply _
  have sent₁ := sent.later le
  have settles : Settles S.strict w₁ (recordPatch exec now) :=
    ⟨.inr ⟨exec, now, rfl, evidence.later le⟩⟩
  have unmarked : ∀ k, marksFailed k ⟨updateAuthorized id (recordPatch exec now), o⟩ = false := by
    intro k
    have : (recordPatch exec now).status ≠ some .failed := by
      cases h : exec.status <;> simp [recordPatch, statusOf, h]
    simp [marksFailed, updateAuthorized, this]
  obtain ⟨inv', later, settled⟩ := inv_of_settle inv.drop (sent₁.paid id mem) settles
  obtain rfl := sent.share
  cases o with
  | done b =>
    obtain ⟨-, rfl⟩ := Prod.mk.inj (Option.some.inj reply)
    have quiet : Quiet ⟨updateAuthorized id (recordPatch exec now), .done b⟩ :=
      ⟨fun _ => rfl, rfl, unmarked⟩
    have sent₂ := (sent₁.later later).quiet quiet
    exact ⟨sent₂.good, 0, inv'.zero_add, later, sent₂, settled⟩
  | refused e =>
    obtain ⟨-, rfl⟩ := reply
    have thrown : Late ids 0 _ (h ++ [⟨updateAuthorized id (recordPatch exec now), .refused e⟩]) :=
      sent₁.throws rfl unmarked
    exact ⟨thrown.good, 0, inv, .refl, thrown⟩
  | lost b e =>
    obtain ⟨-, rfl⟩ := Prod.mk.inj (Option.some.inj reply.1)
    have thrown : Late ids 0 _ (h ++ [⟨updateAuthorized id (recordPatch exec now), .lost b e⟩]) :=
      (sent₁.later later).throws rfl unmarked
    exact ⟨thrown.good, 0, inv'.zero_add, later, thrown⟩

/-- A guarded write to a payout that was sent before something threw. -/
lemma op_late {patch : PayoutPatch} (mem : id ∈ ids)
    (settles : ∀ w', Later S.strict w w' → Settles S.strict w' patch) (l : Late ids a w h) :
    S.spec.op (updateAuthorized id patch) (fun _ => Late ids) a w h := by
  intro w₁ f o w₂ le inv reply _
  have late₁ : Late ids a w₁ (h ++ [⟨updateAuthorized id patch, o⟩]) := by
    refine (l.later le).append fun k marks => ?_
    simp only [marksFailed, updateAuthorized, Bool.and_eq_true, decide_eq_true_eq] at marks
    exact marks.1.1 ▸ mem
  obtain ⟨inv', later, -⟩ := inv_of_settle inv (l.later le |>.paid id mem) (settles w₁ le)
  refine ⟨late₁.good, a, ?_⟩
  cases o with
  | done b =>
    obtain ⟨-, rfl⟩ := Prod.mk.inj (Option.some.inj reply)
    exact ⟨inv', later, late₁.later later⟩
  | refused e =>
    obtain ⟨-, rfl⟩ := reply
    exact ⟨inv, .refl, late₁⟩
  | lost b e =>
    obtain ⟨-, rfl⟩ := Prod.mk.inj (Option.some.inj reply.1)
    exact ⟨inv', later, late₁.later later⟩

/-- Once the transaction of a payout is in the ledger, the write that marks it failed finds no row. -/
lemma op_recorded {failureReason : String} (mem : id ∈ ids) (recorded : Recorded ids a w h) :
    S.spec.op (updateAuthorized id (failPatch failureReason)) (fun _ => Recorded ids) a w h := by
  intro w₁ f o w₂ le inv reply _
  have recorded₁ := recorded.later le
  obtain ⟨r, found, ne⟩ := recorded₁.settled id mem
  have none : (w₁.updatePayout id (failPatch failureReason) (some [.authorized])).1 = none := by
    simp [World.updatePayout, Table.update, found, Option.filter, ne]
  obtain ⟨inv', later⟩ := inv_of_update_none inv none
  have append : (∀ k, marksFailed k ⟨updateAuthorized id (failPatch failureReason), o⟩ = false) →
      Recorded ids a w₁ (h ++ [⟨updateAuthorized id (failPatch failureReason), o⟩]) := by
    intro unmarked
    refine ⟨recorded₁.share, fun k marked => ?_, recorded₁.paid, recorded₁.settled⟩
    rw [markedFailed_append, unmarked] at marked
    exact marked.elim (recorded₁.unmarked k) (by simp)
  cases o with
  | done b =>
    obtain ⟨res, rfl⟩ := Prod.mk.inj (Option.some.inj reply)
    obtain rfl : b = .none := res.symm.trans none
    have recorded₂ := append fun _ => Bool.and_false _
    exact ⟨recorded₂.good, a, inv', later, recorded₂.later later⟩
  | refused e =>
    obtain ⟨-, rfl⟩ := reply
    have recorded₂ := append fun _ => Bool.and_false _
    exact ⟨recorded₂.good, a, inv, .refl, recorded₂⟩
  | lost b e =>
    obtain ⟨res, rfl⟩ := Prod.mk.inj (Option.some.inj reply.1)
    obtain rfl : b = .none := res.symm.trans none
    have recorded₂ := append fun _ => Bool.and_false _
    exact ⟨recorded₂.good, a, inv', later, recorded₂.later later⟩

end

end AvaSettle.Payouts
