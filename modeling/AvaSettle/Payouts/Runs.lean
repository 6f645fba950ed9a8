import AvaSettle.Payouts.Reconcile

/-!
# Runs of the payout services

What holds of every interleaving of payout calls, on any number of instances over one ledger: a payout
is sent once; what a failed payout says about the transactions of the call that failed it; and when a
confirmed payout stays confirmed.
-/

namespace AvaSettle.Payouts
open Async
open Data (Table)

/-- The calls of the payout services, on the deployments in `D`. -/
inductive Entry (D : Deployment → Prop) : Method Unit → Prop where
  | createPayout {d dto context} (here : D d) : Entry D (createPayout d dto context).discard
  | authorizePayout {d id dto context} (here : D d) :
      Entry D (authorizePayout d id dto context).discard
  | authorizePayoutBatch {d payoutIds dto context} (here : D d) :
      Entry D (authorizePayoutBatch d payoutIds dto context).discard
  | reconcilePayout {d id context} (here : D d) : Entry D (reconcilePayout d id context).discard

/-- Every run of the payout calls keeps the ledger, and every call a good history. -/
theorem sound {S : Setting} {D : Deployment → Prop} (entry : ∀ p, S.entry p → Entry D p)
    (timed : S.strict → ∀ d, D d → ∀ h w e, S.cond h w e → WellTimed d h w e) : S.spec.Sound := by
  intro p called w
  have idle : Idle 0 0 w [] := ⟨rfl, by simp [LateThrow], by simp [Submitted], by simp [MarkedFailed]⟩
  have discard : ∀ {α : Type} {p : Method α} {w h}, S.spec.wp p (fun _ => Final) 0 w h →
      S.spec.wp p.discard Spec.triv 0 w h := fun wp =>
    Spec.wp_bind_of wp (fun _ _ _ _ _ => trivial) fun _ _ _ _ _ => trivial
  cases entry p called with
  | createPayout => exact discard (wp_createPayout idle)
  | authorizePayout => exact discard (wp_authorizePayout idle)
  | authorizePayoutBatch => exact discard (wp_authorizePayoutBatch idle)
  | reconcilePayout here => exact discard (wp_reconcilePayout fun st => timed st _ here)

/-- A freshly migrated ledger is in order. -/
lemma inv_fresh {strict : Prop} {c : Chain} {now : Timestamp} {nextUuid : Uuid}
    {nextBytes32 : Hex} : Inv strict (.fresh c now nextUuid nextBytes32) 0 where
  claims := Multiset.nodup_zero
  claimed _ mem := absurd mem (Multiset.notMem_zero _)
  rows _ _ found := by cases found
  paid_row _ mem := by cases mem
  paid_nodup := List.nodup_nil

/-! ## Any interleaving, with any failures -/

/-- The payout services over a chain that moves in any way, with every operation free to fail. -/
abbrev anyLedger (chain : Chain → Chain → Prop) : Machine Api World :=
  machine chain (Entry fun _ => True) fun _ _ _ => True

/-- The setting of `anyLedger`. -/
def anySetting (chain : Chain → Chain → Prop) : Setting where
  strict := False
  chain := chain
  entry := Entry fun _ => True
  cond _ _ _ := True
  keeps := False.elim

/-- Every call keeps the ledger in the system of all deployments. -/
lemma anySetting_sound (chain : Chain → Chain → Prop) : (anySetting chain).spec.Sound :=
  sound (D := fun _ => True) (fun _ h => h) False.elim

section
variable {chain : Chain → Chain → Prop} {c : Chain} {now : Timestamp} {nextUuid : Uuid}
  {nextBytes32 : Hex} {s : Sys Api World}

/-- A payout is in at most one transaction, and a prepared payout is in none. -/
theorem submitted_once (reach : (anyLedger chain).Reachable (.fresh c now nextUuid nextBytes32) s) :
    s.world.paid.Nodup ∧ ∀ r ∈ s.world.payouts.rows, r.status = .prepared → r.id ∉ s.world.paid := by
  obtain ⟨a, inv⟩ := Spec.inv_of_reachable (anySetting_sound chain) inv_fresh reach
  exact ⟨inv.paid_nodup, fun r mem => (inv.rows r.id r (Table.find?_of_mem mem)).unpaid⟩

end

/-- A payout that is executed at once. -/
def sampleDto : CreatePayoutDto :=
  ⟨"inv-1", "1", .usdc, sampleAddress, none, none, none, none, true⟩

/-- The call that creates it. -/
def sampleCall : Method Unit :=
  (createPayout .sample sampleDto .sample).discard

/-- The concrete call is one of the service. -/
lemma entry_sampleCall {D : Deployment → Prop} (here : D .sample) : Entry D sampleCall :=
  .createPayout here

/-- The schedule on which the call takes `n` steps, fails in the next, and takes one more. -/
def failsAfter (n : Nat) : List (Choice Api World) :=
  .enter sampleCall ::
    (Choice.steps 0 n ++ .run 0 (.call (.refused Exception.unknown)) :: Choice.steps 0 1)

/-- The schedule of the concrete run is a legal one. -/
lemma legal_failsAfter {chain : Chain → Chain → Prop} {n : Nat} :
    ∀ c ∈ failsAfter n, c.Legal (anyLedger chain) := by
  simp only [failsAfter, List.forall_mem_cons, List.forall_mem_append]
  exact ⟨entry_sampleCall trivial, Choice.legal_steps, trivial, Choice.legal_steps⟩

/-- A payout that has been sent. -/
theorem submitted_once_of_sent : ∃ s, (anyLedger Eq).Reachable .sample s ∧
    s.world.paid = [World.sampleId] ∧ s.world.paid.Nodup ∧
      ∀ r ∈ s.world.payouts.rows, r.status = .prepared → r.id ∉ s.world.paid := by
  obtain ⟨s, reach, paid⟩ := Machine.reachable_of_run (M := anyLedger Eq) (w := .sample)
    Machine.always (failsAfter 10) (fun s => decide (s.world.paid = [World.sampleId])) (fun _ _ _ _ => trivial)
    legal_failsAfter (by decide)
  exact ⟨s, reach, of_decide_eq_true paid, submitted_once reach⟩

/-- The columns of the row agree with its status. -/
structure Consistent (r : PayoutRecord) : Prop where
  unsent : r.status = .prepared ∨ r.status = .authorized → r.transactionHash = none
  sent : r.status = .broadcasted ∨ r.status = .confirmed → r.transactionHash ≠ none
  confirmedAt : r.status = .confirmed → r.confirmedAt ≠ none

/-- The columns of every payout agree with its status, and a transaction hash that has been set stays
    in all later states. -/
theorem rows_consistent {chain : Chain → Chain → Prop} {c : Chain} {now : Timestamp} {nextUuid : Uuid}
    {nextBytes32 : Hex} {s s' : Sys Api World}
    (reach : (anyLedger chain).Reachable (.fresh c now nextUuid nextBytes32) s)
    (later : (anyLedger chain).Steps s s') :
    (∀ r ∈ s.world.payouts.rows, Consistent r) ∧
      ∀ r ∈ s.world.payouts.rows, r.transactionHash ≠ none →
        ∃ r' ∈ s'.world.payouts.rows, r'.id = r.id ∧ r'.transactionHash = r.transactionHash := by
  have sound := anySetting_sound chain
  obtain ⟨⟨_, holds⟩, -⟩ := (Spec.Holds.init (σ := (anySetting chain).spec)
    (w := .fresh c now nextUuid nextBytes32) inv_fresh).steps sound reach
  obtain ⟨-, le⟩ := holds.steps sound later
  constructor
  · intro r mem
    obtain ⟨_, inv, -⟩ := holds
    have ok := inv.rows r.id r (Table.find?_of_mem mem)
    exact ⟨ok.unsent, ok.sent, ok.confirmedAt⟩
  · intro r mem hash
    obtain ⟨r', found, row⟩ := le.row r.id r (Table.find?_of_mem mem)
    exact ⟨r', Table.mem_of_find? found, Table.key_of_find? found, row.hash hash⟩

/-- A payout that has been sent, and then looked at. -/
theorem rows_consistent_of_sent : ∃ s s', (anyLedger Eq).Reachable .sample s ∧
    (anyLedger Eq).Steps s s' ∧ (∀ r ∈ s.world.payouts.rows, Consistent r) ∧
      ∃ r ∈ s'.world.payouts.rows, r.id = World.sampleId ∧ r.transactionHash = some "0x01" := by
  obtain ⟨s, s', reach, later, res⟩ := Machine.reachable_of_runs (M := anyLedger Eq) (w := .sample)
    Machine.always (.enter (createPayout asyncDeployment sampleDto .sample).discard :: Choice.steps 0 11)
    (.enter (reconcilePayout asyncDeployment World.sampleId .sample).discard :: Choice.steps 1 1)
    (fun s _ => s.world.payouts.rows.any fun r =>
      decide (r.id = World.sampleId ∧ r.transactionHash = some "0x01"))
    (fun _ _ _ _ => trivial)
    (List.forall_mem_cons.2 ⟨.createPayout trivial, Choice.legal_steps⟩)
    (List.forall_mem_cons.2 ⟨.reconcilePayout trivial, Choice.legal_steps⟩) (by decide)
  obtain ⟨r, mem, holds⟩ := List.any_eq_true.1 res
  obtain ⟨id, hash⟩ := of_decide_eq_true holds
  obtain ⟨rows, stays⟩ := rows_consistent reach later
  obtain ⟨r', mem', id', hash'⟩ := stays r mem (by simp [hash])
  exact ⟨s, s', reach, later, rows, r', mem', id'.trans id, hash'.trans hash⟩

section
variable {chain : Chain → Chain → Prop} {c : Chain} {now : Timestamp} {nextUuid : Uuid}
  {nextBytes32 : Hex} {s : Sys Api World}

/-- A payout that a call marked failed was not sent by that call, exactly when nothing threw once its
    transaction had been sent. -/
theorem unsent_iff_of_markedFailed {t : Thread Api} {id : Uuid}
    (reach : (anyLedger chain).Reachable (.fresh c now nextUuid nextBytes32) s) (call : t ∈ s.pool)
    (marked : MarkedFailed id t.hist) : ¬Submitted id t.hist ↔ ¬LateThrow t.hist := by
  have good := Spec.good_of_reachable (anySetting_sound chain) inv_fresh reach t call
  exact not_congr (good id marked)

end

/-- Some call marked the payout failed, with a history that satisfies `p`. -/
def marked (id : Uuid) (p : Hist Api → Bool) (s : Sys Api World) : Bool :=
  s.pool.any fun t => t.hist.any (marksFailed id) && p t.hist

/-- A run that the check accepts has a call that marked the payout. -/
lemma of_marked {id : Uuid} {p : Hist Api → Bool} {s : Sys Api World} (res : marked id p s = true) :
    ∃ t ∈ s.pool, MarkedFailed id t.hist ∧ p t.hist = true := by
  obtain ⟨t, mem, res⟩ := List.any_eq_true.1 res
  rw [Bool.and_eq_true] at res
  exact ⟨t, mem, List.any_eq_true.1 res.1, res.2⟩

/-- A transfer that the node refuses. -/
theorem unsent_iff_of_refused : ∃ s, (anyLedger Eq).Reachable .sample s ∧
    ∃ t ∈ s.pool, MarkedFailed World.sampleId t.hist ∧
      (¬Submitted World.sampleId t.hist ↔ ¬LateThrow t.hist) := by
  obtain ⟨s, reach, res⟩ := Machine.reachable_of_run (M := anyLedger Eq) (w := .sample)
    Machine.always (failsAfter 9) (marked World.sampleId fun _ => true) (fun _ _ _ _ => trivial)
    legal_failsAfter (by decide)
  obtain ⟨t, mem, marked, -⟩ := of_marked res
  exact ⟨s, reach, t, mem, marked, unsent_iff_of_markedFailed reach mem marked⟩

/-- A transfer that is sent, and whose receipt the node then fails to deliver: the payout is marked
    failed. -/
theorem markedFailed_of_sent : ∃ s, (anyLedger Eq).Reachable .sample s ∧
    ∃ t ∈ s.pool, MarkedFailed World.sampleId t.hist ∧ Submitted World.sampleId t.hist := by
  obtain ⟨s, reach, res⟩ := Machine.reachable_of_run (M := anyLedger Eq) (w := .sample)
    Machine.always (failsAfter 10) (marked World.sampleId fun h => h.any (sends World.sampleId))
    (fun _ _ _ _ => trivial) legal_failsAfter (by decide)
  obtain ⟨t, mem, marked, sent⟩ := of_marked res
  exact ⟨s, reach, t, mem, marked, List.any_eq_true.1 sent⟩

/-! ## Confirmed payouts -/

/-- Successful receipts stay and confirmations only grow. -/
structure Grows (c c' : Chain) : Prop where
  receipt : ∀ h rc, c.receipts h = some rc → rc.status = .success → c'.receipts h = some rc
  head : c.reportedHead ≤ c'.reportedHead

/-- The payout services of a deployment over a chain that grows. -/
abbrev growingLedger (d : Deployment) (cond : Hist Api → World → Event Api → Prop) :
    Machine Api World :=
  machine Grows (Entry fun d' => d' = d) cond

/-- The setting in which reconciliations are well timed. -/
def timedSetting (d : Deployment) : Setting where
  strict := True
  chain := Grows
  entry := Entry fun d' => d' = d
  cond := WellTimed d
  keeps _ _ _ move h rc found ok := ⟨rc, move.receipt h rc found ok, ok⟩

/-- Every call keeps the ledger where reconciliations are well timed. -/
lemma timedSetting_sound {d : Deployment} : (timedSetting d).spec.Sound :=
  sound (fun _ h => h) fun _ _ here _ _ _ timed => here ▸ timed

/-- Where reconciliations are well timed, a confirmed payout is confirmed, with its time, in every
    later state. -/
theorem confirmed_stays {d : Deployment} {c : Chain} {now : Timestamp} {nextUuid : Uuid}
    {nextBytes32 : Hex} {s s' : Sys Api World} {id : Uuid} {r : PayoutRecord}
    (reach : (growingLedger d (WellTimed d)).Reachable (.fresh c now nextUuid nextBytes32) s)
    (later : (growingLedger d (WellTimed d)).Steps s s')
    (found : s.world.payouts.find? id = some r) (confirmed : r.status = .confirmed) :
    ∃ r', s'.world.payouts.find? id = some r' ∧ r'.status = .confirmed ∧ r'.confirmedAt ≠ none := by
  have sound := timedSetting_sound (d := d)
  have init := Spec.Holds.init (σ := (timedSetting d).spec)
    (w := .fresh c now nextUuid nextBytes32) inv_fresh
  obtain ⟨⟨_, holds⟩, -⟩ := init.steps sound reach
  obtain ⟨⟨_, as, inv, -⟩, le⟩ := holds.steps sound later
  obtain ⟨r', found', row⟩ := le.row id r found
  have confirmed' := row.confirmed trivial confirmed
  exact ⟨r', found', confirmed', (inv.rows id r' found').confirmedAt confirmed'⟩

/-- The transaction is mined. -/
def mine (w : World) : World :=
  { w with chain := { w.chain with
      reportedHead := w.chain.reportedHead + 2
      receipts := fun h => (w.chain.receipts h).or (if h = "0x01" then some ⟨.success, 1⟩ else none) } }

/-- Mining the transaction is a move of the chain. -/
lemma env_mine (w : World) : World.Env Grows w (mine w) :=
  ⟨rfl, rfl, rfl, rfl, rfl, rfl, rfl, rfl,
    ⟨fun h rc found _ => by simp [mine, found], Nat.le_add_right _ _⟩⟩

/-- The payout of the concrete runs satisfies `p`. -/
def payoutIs (p : PayoutRecord → Bool) (s : Sys Api World) : Bool :=
  (s.world.payouts.find? World.sampleId).any p

/-- The operation is not an unguarded update. -/
def guarded : Event Api → Bool
  | ⟨.payoutUpdate _ _ none, _⟩ => false
  | _ => true

/-- A guarded write is well timed. -/
lemma wellTimed_of_guarded {d : Deployment} {h : Hist Api} {w : World} {e : Event Api}
    (ok : guarded e = true) : WellTimed d h w e := by
  rintro id patch eq
  obtain ⟨op, o⟩ := e
  cases eq
  cases ok

/-- A payout that is confirmed, and then looked at. -/
theorem confirmed_stays_of_read : ∃ s s', (growingLedger .sample (WellTimed .sample)).Steps s s' ∧
    (∃ r, s.world.payouts.find? World.sampleId = some r ∧ r.status = .confirmed) ∧
      ∃ r', s'.world.payouts.find? World.sampleId = some r' ∧ r'.status = .confirmed ∧
        r'.confirmedAt ≠ none := by
  obtain ⟨s, s', reach, later, res⟩ := Machine.reachable_of_runs
    (M := growingLedger .sample (WellTimed .sample)) (w := .sample) (fun _ _ e => guarded e)
    (.enter sampleCall :: (Choice.steps 0 10 ++ .env mine :: Choice.steps 0 2))
    (.enter (reconcilePayout .sample World.sampleId .sample).discard :: Choice.steps 1 4)
    (fun s _ => payoutIs (fun r => decide (r.status = .confirmed)) s)
    (fun _ _ _ => wellTimed_of_guarded) (by
      simp only [List.forall_mem_cons, List.forall_mem_append]
      exact ⟨entry_sampleCall rfl, Choice.legal_steps, env_mine, Choice.legal_steps⟩)
    (List.forall_mem_cons.2 ⟨.reconcilePayout rfl, Choice.legal_steps⟩) (by decide)
  obtain ⟨r, found, confirmed⟩ := (Option.any_eq_true _ _).1 res
  have status := of_decide_eq_true confirmed
  exact ⟨s, s', later, ⟨r, found, status⟩, confirmed_stays reach later found status⟩

/-- A reconciliation that looked before the transaction was mined writes after another one has
    confirmed the payout. -/
theorem confirmed_lost : ∃ s s', (growingLedger asyncDeployment fun _ _ _ => True).Reachable .sample s ∧
    (growingLedger asyncDeployment fun _ _ _ => True).Steps s s' ∧
      (∃ r, s.world.payouts.find? World.sampleId = some r ∧ r.status = .confirmed) ∧
        ∃ r', s'.world.payouts.find? World.sampleId = some r' ∧ r'.status = .broadcasted ∧
          r'.confirmedAt = none := by
  obtain ⟨s, s', reach, later, res⟩ := Machine.reachable_of_runs
    (M := growingLedger asyncDeployment fun _ _ _ => True) (w := .sample) Machine.always
    (.enter (createPayout asyncDeployment sampleDto .sample).discard :: (Choice.steps 0 11 ++
      .enter (reconcilePayout asyncDeployment World.sampleId .sample).discard ::
        (Choice.steps 1 1 ++ .run 1 (.call (.refused Exception.unknown)) :: (Choice.steps 1 1 ++
          .env mine :: .enter (reconcilePayout asyncDeployment World.sampleId .sample).discard ::
            Choice.steps 2 5))))
    (Choice.steps 1 1)
    (fun s s' => payoutIs (fun r => decide (r.status = .confirmed)) s &&
      payoutIs (fun r => decide (r.status = .broadcasted ∧ r.confirmedAt = none)) s')
    (fun _ _ _ _ => trivial) (by
      simp only [List.forall_mem_cons, List.forall_mem_append]
      exact ⟨.createPayout rfl, Choice.legal_steps, .reconcilePayout rfl, Choice.legal_steps, trivial,
        Choice.legal_steps, env_mine, .reconcilePayout rfl, Choice.legal_steps⟩)
    Choice.legal_steps (by decide)
  rw [Bool.and_eq_true] at res
  obtain ⟨r, found, confirmed⟩ := (Option.any_eq_true _ _).1 res.1
  obtain ⟨r', found', lost⟩ := (Option.any_eq_true _ _).1 res.2
  exact ⟨s, s', reach, later, ⟨r, found, of_decide_eq_true confirmed⟩, r', found',
    of_decide_eq_true lost⟩

end AvaSettle.Payouts
