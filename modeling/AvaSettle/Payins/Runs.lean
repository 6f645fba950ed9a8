import AvaSettle.Async.Schedule
import AvaSettle.Payins.Calls

/-!
# Runs of the pay-in services

What holds of every interleaving of pay-in calls, on any number of instances over one ledger: the
books of every row; when an invoice payment is counted once; and when a confirmed pay-in stays
confirmed.
-/

namespace AvaSettle.Payins
open Async
open Data (Table)
open Blockchain

/-- The pay-in services of a deployment, over a chain that moves as `chain` says. -/
abbrev payInLedger (d : Deployment) (chain : Chain → Chain → Prop)
    (cond : Hist Api → World → Event Api → Prop) : Machine Api World :=
  machine chain (Entry d) cond

/-- A freshly migrated ledger is in order. -/
lemma inv_fresh {T : Terms} {d : Deployment} {c : Chain} {now : Timestamp} {nextUuid : Uuid}
    {nextBytes32 : Hex} (ok : T.grows → ChainOk c) :
    Inv T d (.fresh c now nextUuid nextBytes32) where
  chain := ok
  rows _ _ found := by cases found
  distinct _ _ _ _ _ found := by cases found

/-! ## Concrete runs -/

/-- A chain on which some logs have been mined in the next block, with two more blocks above it, unless
    a place is taken. -/
def mineLogs (transfers : List TransferLog) (payments : List InvoicePaidLog) (c : Chain) : Chain :=
  let c' := { c with
    head := c.head + 3
    reportedHead := c.head + 3
    transferLogs := c.transferLogs ++ transfers.map fun l => { l with blockNumber := c.head + 1 }
    invoiceLogs := c.invoiceLogs ++ payments.map fun l => { l with blockNumber := c.head + 1 } }
  if (places c').Nodup then c' else c

/-- A chain grows by blocks. -/
lemma advances_mineLogs {transfers : List TransferLog} {payments : List InvoicePaidLog}
    {c : Chain} : Advances c (mineLogs transfers payments c) := by
  unfold mineLogs
  dsimp only
  split
  case isFalse => exact .refl
  case isTrue nodup =>
    refine ⟨fun _ => ⟨nodup, le_rfl⟩, Nat.le_add_right _ _, ⟨_, rfl, fun l mem => ?_⟩,
      ⟨_, rfl, fun l mem => ?_⟩⟩
    · obtain ⟨_, -, rfl⟩ := List.mem_map.1 mem
      exact Nat.lt_succ_self _
    · obtain ⟨_, -, rfl⟩ := List.mem_map.1 mem
      exact Nat.lt_succ_self _

/-- The logs are mined. -/
def arrive (transfers : List TransferLog) (payments : List InvoicePaidLog) (w : World) : World :=
  { w with chain := mineLogs transfers payments w.chain }

/-- Arriving payments are a move of the chain. -/
lemma env_arrive {transfers : List TransferLog} {payments : List InvoicePaidLog} (w : World) :
    World.Env Advances w (arrive transfers payments w) :=
  ⟨rfl, rfl, rfl, rfl, rfl, rfl, rfl, rfl, advances_mineLogs⟩

/-- The random source draws another id. -/
def redraw (id : Uuid) (w : World) : World := { w with nextUuid := id }

/-- Drawing another id is a move of the world. -/
lemma env_redraw {id : Uuid} (w : World) : World.Env Advances w (redraw id w) :=
  ⟨rfl, rfl, rfl, rfl, rfl, rfl, rfl, rfl, .refl⟩

/-- The empty chain is in order. -/
lemma chainOk_sample : ChainOk World.sampleChain := ⟨by decide, le_rfl⟩

/-- A pay-in of one USDC on a rail. -/
def sampleDto (mode : PayInCollectionMode) : CreatePayInDto :=
  ⟨"inv-1", "1", .usdc, none, some mode, none, none, none⟩

/-- The deposit address of the first derived pay-in. -/
def sampleDeposit : Hex := "0xf39Fd6e51aad88F6F4ce6aB8827279cffFb92266"

/-- The invoice that the router pay-in of the concrete runs is for. -/
def sampleInvoiceId : Hex := "0xb7c9d3961fa9b9dcc432b5a31af4bd548288b72fe05982ea59f0fcd17cf7a36d"

/-- One USDC arrives at the deposit address. -/
def sampleTransfer : TransferLog :=
  ⟨sampleToken, "0x02", 0, 0, sampleAddress, sampleDeposit, 1000000⟩

/-- One USDC is paid for the invoice. -/
def samplePayment : InvoicePaidLog :=
  ⟨sampleAddress, "0x02", 0, 0, sampleInvoiceId, sampleDeposit, sampleToken, sampleRef, 1000000,
    sampleDeposit⟩

/-- The creation of the first pay-in. -/
def sampleCreate (mode : PayInCollectionMode) : Method Unit :=
  (createPayIn .sample (sampleDto mode) .sample).discard

/-- A reconciliation of the first pay-in. -/
def sampleReconcile : Method Unit :=
  (reconcilePayIn .sample World.sampleId .sample).discard

/-- The first pay-in satisfies `p`. -/
def payInIs (p : PayInRecord → Bool) (s : Sys Api World) : Bool :=
  (s.world.payins.find? World.sampleId).any p

/-- The schedule on which the pay-in is created. -/
def created (mode : PayInCollectionMode) (n : Nat) : List (Choice Api World) :=
  .enter (sampleCreate mode) :: Choice.steps 0 n

/-- The schedule on which a derived pay-in is created, paid and reconciled. -/
def paid : List (Choice Api World) :=
  created .derivedAddress 7 ++ .env (arrive [sampleTransfer] []) :: .enter sampleReconcile ::
    Choice.steps 1 9

section
variable {d : Deployment} (cond : Hist Api → World → Event Api → Prop)
  (ok : Hist Api → World → Event Api → Bool) (cs cs' : List (Choice Api World))
  (allowed : ∀ h w e, ok h w e = true → cond h w e)
  (legal : ∀ c ∈ cs, c.Legal (payInLedger d Advances cond))
include allowed legal

/-- What a legal schedule is evaluated to reach, the pay-in services reach. -/
lemma reachable_of_quick (P : Sys Api World → Bool)
    (res : ((quick Advances (Entry d) cond).run ok cs ⟨.sample, []⟩).any P = true) :
    ∃ s, (payInLedger d Advances cond).Reachable .sample s ∧ P s = true := by
  rw [quick_eq] at res
  exact Machine.reachable_of_run ok cs P allowed legal res

/-- The same for a schedule in two parts. -/
lemma steps_of_quick (P : Sys Api World → Sys Api World → Bool)
    (legal' : ∀ c ∈ cs', c.Legal (payInLedger d Advances cond))
    (res : (((quick Advances (Entry d) cond).run ok cs ⟨.sample, []⟩).any fun s =>
      ((quick Advances (Entry d) cond).run ok cs' s).any (P s)) = true) :
    ∃ s s', (payInLedger d Advances cond).Reachable .sample s ∧
      (payInLedger d Advances cond).Steps s s' ∧ P s s' = true := by
  simp only [quick_eq] at res
  exact Machine.reachable_of_runs ok cs cs' P allowed legal legal' res

end

/-- The schedule of a creation is a legal one. -/
lemma legal_created {cond : Hist Api → World → Event Api → Prop} {mode : PayInCollectionMode}
    {n : Nat} : ∀ c ∈ created mode n, c.Legal (payInLedger .sample Advances cond) :=
  List.forall_mem_cons.2 ⟨.createPayIn, Choice.legal_steps⟩

/-- The schedule of a pay-in that is paid is a legal one. -/
lemma legal_paid {cond : Hist Api → World → Event Api → Prop} :
    ∀ c ∈ paid, c.Legal (payInLedger .sample Advances cond) := by
  simp only [paid, List.forall_mem_cons, List.forall_mem_append]
  exact ⟨legal_created, env_arrive, .reconcilePayIn, Choice.legal_steps⟩

/-- A confirmed pay-in is there. -/
lemma confirmed_of_payInIs {s : Sys Api World}
    (res : payInIs (fun r => decide (r.status = .confirmed)) s = true) :
    ∃ r, s.world.payins.find? World.sampleId = some r ∧ r.status = .confirmed := by
  obtain ⟨r, found, status⟩ := (Option.any_eq_true _ _).1 res
  exact ⟨r, found, of_decide_eq_true status⟩

/-! ## Any chain -/

/-- The setting in which nothing is assumed. -/
def anySetting (d : Deployment) (chain : Chain → Chain → Prop) : Setting where
  deployment := d
  terms := ⟨False, False, False⟩
  chain := chain
  entry := Entry d
  cond _ _ _ := True
  advances := False.elim
  apart := False.elim
  timely := False.elim

section
variable {d : Deployment} {chain : Chain → Chain → Prop} {c : Chain} {now : Timestamp}
  {nextUuid : Uuid} {nextBytes32 : Hex} {s s' : Sys Api World} {id : Uuid} {r : PayInRecord}

/-- In every row the total is the sum of the transfers, and a row that was confirmed by its payments
    has just the amount expected, all of it deep below the block scanned last. -/
theorem books_balance
    (reach : (payInLedger d chain fun _ _ _ => True).Reachable (.fresh c now nextUuid nextBytes32) s)
    (mem : r ∈ s.world.payins.rows) :
    r.receivedAmountAtomic = (r.transfers.map PayInTransferRecord.amountAtomic).sum ∧
      (r.status = .confirmed → r.acceptedAt = none →
        r.receivedAmountAtomic = r.expectedAmountAtomic ∧ 0 < r.expectedAmountAtomic ∧
          ∃ n, r.lastScannedBlock = some n ∧ ∀ t ∈ r.transfers,
            t.blockNumber ≤ n ∧ max 1 d.minConfirmations ≤ n - t.blockNumber) := by
  obtain ⟨_, inv⟩ := Spec.inv_of_reachable (σ := (anySetting d chain).spec) (sound fun _ h => h)
    (inv_fresh False.elim) reach
  have ok := inv.rows r.id r (Table.find?_of_mem mem)
  refine ⟨ok.total, fun confirmed accepted => ?_⟩
  obtain ⟨exactly, n, scanned, deep⟩ := ok.settled confirmed accepted
  refine ⟨exactly, ok.expected, n, scanned, fun t mem => ?_⟩
  have below : t.blockNumber + max 1 d.minConfirmations ≤ n := deep t mem
  omega

/-- A pay-in that has been paid. -/
theorem books_balance_of_paid : ∃ s, (payInLedger .sample Advances fun _ _ _ => True).Reachable
    .sample s ∧ ∃ r ∈ s.world.payins.rows, r.status = .confirmed ∧ r.acceptedAt = none ∧
      r.receivedAmountAtomic = (r.transfers.map PayInTransferRecord.amountAtomic).sum ∧
        r.receivedAmountAtomic = r.expectedAmountAtomic := by
  obtain ⟨s, reach, res⟩ := reachable_of_quick (fun _ _ _ => True) Machine.always paid (fun _ _ _ _ => trivial)
    legal_paid (payInIs fun r => decide (r.status = .confirmed ∧ r.acceptedAt = none))
    (by decide +kernel)
  obtain ⟨r, found, status⟩ := (Option.any_eq_true _ _).1 res
  obtain ⟨confirmed, accepted⟩ := of_decide_eq_true status
  have mem := Table.mem_of_find? found
  obtain ⟨total, settled⟩ := books_balance reach mem
  exact ⟨s, reach, r, mem, confirmed, accepted, total, (settled confirmed accepted).1⟩

/-! ## Reconciliations that are timely -/

/-- The setting in which a reconciliation overwrites a confirmed row only if it has seen the payment. -/
def timelySetting (d : Deployment) (chain : Chain → Chain → Prop) : Setting where
  deployment := d
  terms := ⟨False, False, True⟩
  chain := chain
  entry := Entry d
  cond := Timely d
  advances := False.elim
  apart := False.elim
  timely _ _ _ _ timely := timely

/-- Where reconciliations are timely, a confirmed pay-in is confirmed, with its time, in every later
    state. -/
theorem confirmed_forever
    (reach : (payInLedger d chain (Timely d)).Reachable (.fresh c now nextUuid nextBytes32) s)
    (later : (payInLedger d chain (Timely d)).Steps s s')
    (found : s.world.payins.find? id = some r) (confirmed : r.status = .confirmed) :
    ∃ r', s'.world.payins.find? id = some r' ∧ r'.status = .confirmed ∧ r'.confirmedAt ≠ none := by
  have sound : (timelySetting d chain).spec.Sound := sound fun _ h => h
  have init := Spec.Holds.init (σ := (timelySetting d chain).spec)
    (w := .fresh c now nextUuid nextBytes32) (inv_fresh False.elim)
  obtain ⟨⟨_, holds⟩, -⟩ := init.steps sound reach
  obtain ⟨⟨_, as, inv, -⟩, le⟩ := holds.steps sound later
  obtain ⟨r', found', -, kept⟩ := le.row id r found
  have confirmed' := kept trivial confirmed
  exact ⟨r', found', confirmed', (inv.rows id r' found').confirmedAt confirmed'⟩

/-- The operation does not write to a confirmed pay-in. -/
def unconfirmed (_ : Hist Api) (w : World) : Event Api → Bool
  | ⟨.payInUpdate id _ _, _⟩ =>
    (w.payins.find? id).all fun r => decide (r.status ≠ .confirmed)
  | _ => true

/-- The check of the concrete runs decides that writes are timely. -/
lemma timely_of_unconfirmed {d : Deployment} {h : Hist Api} {w : World} {e : Event Api}
    (ok : unconfirmed h w e = true) : Timely d h w e := by
  rintro id patch guard eq - - r found confirmed
  obtain ⟨op, o⟩ := e
  cases eq
  simp [unconfirmed, found, confirmed] at ok

/-- A pay-in that is confirmed, and then looked at. -/
theorem confirmed_forever_of_read : ∃ s s',
    (payInLedger .sample Advances (Timely .sample)).Steps s s' ∧
      (∃ r, s.world.payins.find? World.sampleId = some r ∧ r.status = .confirmed) ∧
        ∃ r', s'.world.payins.find? World.sampleId = some r' ∧ r'.status = .confirmed ∧
          r'.confirmedAt ≠ none := by
  obtain ⟨s, s', reach, later, res⟩ := steps_of_quick (Timely .sample) unconfirmed paid
    (.enter sampleReconcile :: Choice.steps 2 2) (fun _ _ _ => timely_of_unconfirmed) legal_paid
    (fun s _ => payInIs (fun r => decide (r.status = .confirmed)) s)
    (List.forall_mem_cons.2 ⟨.reconcilePayIn, Choice.legal_steps⟩) (by decide +kernel)
  obtain ⟨r, found, confirmed⟩ := confirmed_of_payInIs res
  exact ⟨s, s', later, ⟨r, found, confirmed⟩, confirmed_forever reach later found confirmed⟩

/-- A reconciliation that scanned before the payment arrived writes after another one has confirmed
    the pay-in. -/
theorem confirmed_overwritten : ∃ s s',
    (payInLedger .sample Advances fun _ _ _ => True).Reachable .sample s ∧
      (payInLedger .sample Advances fun _ _ _ => True).Steps s s' ∧
        (∃ r, s.world.payins.find? World.sampleId = some r ∧ r.status = .confirmed) ∧
          ∃ r', s'.world.payins.find? World.sampleId = some r' ∧ r'.status = .pending ∧
            r'.confirmedAt = none := by
  obtain ⟨s, s', reach, later, res⟩ := steps_of_quick (fun _ _ _ => True) Machine.always
    (created .derivedAddress 7 ++ .enter sampleReconcile :: (Choice.steps 1 4 ++
      .env (arrive [sampleTransfer] []) :: .enter sampleReconcile :: Choice.steps 2 9))
    (Choice.steps 1 1) (fun _ _ _ _ => trivial) (by
      simp only [List.forall_mem_cons, List.forall_mem_append]
      exact ⟨legal_created, .reconcilePayIn, Choice.legal_steps, env_arrive, .reconcilePayIn,
        Choice.legal_steps⟩)
    (fun s s' => payInIs (fun r => decide (r.status = .confirmed)) s &&
      payInIs (fun r => decide (r.status = .pending ∧ r.confirmedAt = none)) s')
    Choice.legal_steps (by decide +kernel)
  rw [Bool.and_eq_true] at res
  obtain ⟨r', found', lost⟩ := (Option.any_eq_true _ _).1 res.2
  exact ⟨s, s', reach, later, confirmed_of_payInIs res.1, r', found', of_decide_eq_true lost⟩

/-! ## A chain that grows -/

/-- The setting of a chain that grows. -/
def growingSetting (d : Deployment) : Setting where
  deployment := d
  terms := ⟨True, False, False⟩
  chain := Advances
  entry := Entry d
  cond _ _ _ := True
  advances _ _ _ h := h
  apart := False.elim
  timely := False.elim

/-- Over a chain that grows, the transfers of a row are matching logs without duplicates, with all from
    the start block up to the block scanned last, which is the head that the call that wrote it had
    been told. -/
theorem scan_complete (ok : ChainOk c)
    (reach : (payInLedger d Advances fun _ _ _ => True).Reachable
      (.fresh c now nextUuid nextBytes32) s) :
    (∀ r ∈ s.world.payins.rows, (r.transfers.map transferKey).Nodup ∧
      (∀ t ∈ r.transfers, t ∈ matching d s.world.chain (account r)) ∧
      r.receivedAmountAtomic = (r.transfers.map PayInTransferRecord.amountAtomic).sum ∧
      (0 < r.startBlock → ∀ n, r.lastScannedBlock = some n →
        ∀ t ∈ matching d s.world.chain (account r), r.startBlock ≤ t.blockNumber →
          t.blockNumber ≤ n → t ∈ r.transfers)) ∧
      ∀ t ∈ s.pool, Honest t.hist := by
  have sound : (growingSetting d).spec.Sound := sound fun _ h => h
  have init : (growingSetting d).spec.inv (.fresh c now nextUuid nextBytes32) 0 :=
    inv_fresh fun _ => ok
  obtain ⟨_, inv⟩ := Spec.inv_of_reachable sound init reach
  refine ⟨fun r mem => ?_, Spec.good_of_reachable sound init reach⟩
  have row := inv.rows r.id r (Table.find?_of_mem mem)
  have books := row.books trivial
  exact ⟨row.once, books.real, row.total, books.complete⟩

/-- A pay-in that has been paid. -/
theorem scan_complete_of_paid : ∃ s, (payInLedger .sample Advances fun _ _ _ => True).Reachable
    .sample s ∧ ∃ r ∈ s.world.payins.rows, r.transfers ≠ [] ∧
      (r.transfers.map transferKey).Nodup ∧
        ∀ t ∈ r.transfers, t ∈ matching .sample s.world.chain (account r) := by
  obtain ⟨s, reach, res⟩ := reachable_of_quick (fun _ _ _ => True) Machine.always paid (fun _ _ _ _ => trivial)
    legal_paid (payInIs fun r => !r.transfers.isEmpty) (by decide +kernel)
  obtain ⟨r, found, some⟩ := (Option.any_eq_true _ _).1 res
  have mem := Table.mem_of_find? found
  obtain ⟨once, real, -⟩ := (scan_complete chainOk_sample reach).1 r mem
  exact ⟨s, reach, r, mem, by simpa using some, once, real⟩

/-! ## Invoices of their own -/

/-- The setting of a chain that grows, where every router pay-in has an invoice of its own. -/
def apartSetting (d : Deployment) : Setting where
  deployment := d
  terms := ⟨True, True, False⟩
  chain := Advances
  entry := Entry d
  cond _ := Apart d
  advances _ _ _ h := h
  apart _ _ _ _ h := h
  timely := False.elim

/-- The log is counted in the transfers of the row. -/
def Counted (l : InvoicePaidLog) (r : PayInRecord) : Prop :=
  ∃ t ∈ r.transfers, t.hash = l.transactionHash ∧ t.logIndex = some l.logIndex

/-- A log that is counted in a row pays the invoice of the row. -/
lemma invoice_of_counted {l : InvoicePaidLog} (ok : ChainOk c) (mem : l ∈ c.invoiceLogs)
    (real : ∀ t ∈ r.transfers, t ∈ matching d c (account r)) (counted : Counted l r) :
    r.collectionMode = .paymentRouter ∧
      ∃ i, invoiceOf d (account r) = some i ∧ sameHex l.invoiceId i = true := by
  obtain ⟨-, invoices, disjoint⟩ := List.nodup_append.1 ok.places
  obtain ⟨t, ht, hash, index⟩ := counted
  rcases log_of_matching (real t ht) with ⟨l', hl', -, rfl⟩ | ⟨l', hl', mode, rfl, i, eq, same⟩
  · have place : transferPlace l' = paymentPlace l := Prod.ext hash (Option.some.inj index)
    exact absurd place
      (disjoint _ (List.mem_map_of_mem hl') _ (List.mem_map_of_mem mem))
  · have place : paymentPlace l' = paymentPlace l := Prod.ext hash (Option.some.inj index)
    obtain rfl := List.inj_on_of_nodup_map invoices hl' mem place
    exact ⟨mode, i, eq, same⟩

/-- Where every router pay-in that is inserted has an invoice of its own, no payment is counted in two
    pay-ins. -/
theorem credited_once {l : InvoicePaidLog} {r' : PayInRecord} (ok : ChainOk c)
    (reach : (payInLedger d Advances fun _ => Apart d).Reachable
      (.fresh c now nextUuid nextBytes32) s)
    (log : l ∈ s.world.chain.invoiceLogs) (mem : r ∈ s.world.payins.rows)
    (mem' : r' ∈ s.world.payins.rows) (counted : Counted l r) (counted' : Counted l r') :
    r = r' := by
  have sound : (apartSetting d).spec.Sound := sound fun _ h => h
  have init : (apartSetting d).spec.inv (.fresh c now nextUuid nextBytes32) 0 :=
    inv_fresh fun _ => ok
  obtain ⟨_, inv⟩ := Spec.inv_of_reachable sound init reach
  have found := Table.find?_of_mem mem
  have found' := Table.find?_of_mem mem'
  obtain ⟨mode, i, eq, same⟩ := invoice_of_counted (inv.chain trivial) log
    ((inv.rows r.id r found).books trivial).real counted
  obtain ⟨mode', i', eq', same'⟩ := invoice_of_counted (inv.chain trivial) log
    ((inv.rows r'.id r' found').books trivial).real counted'
  have one : sameHex i i' = true := by
    rw [sameHex, beq_iff_eq] at same same' ⊢
    exact same.symm.trans same'
  have ids := inv.distinct trivial r.id r'.id r r' found found'
    ⟨mode, mode', i, i', eq, eq', one⟩
  rw [← ids] at found'
  exact Option.some.inj (found.symm.trans found')

end

/-- A pay-in is inserted where no row has its invoice. -/
def insertsApart (d : Deployment) (_ : Hist Api) (w : World) : Event Api → Bool
  | ⟨.payInInsert row, _⟩ => w.payins.rows.all fun r =>
    match invoiceOf d (account row), invoiceOf d (account r) with
    | some i, some i' => !sameHex i i'
    | _, _ => true
  | _ => true

/-- The check of the concrete runs decides that invoices are apart. -/
lemma apart_of_insertsApart {d : Deployment} {h : Hist Api} {w : World} {e : Event Api}
    (ok : insertsApart d h w e = true) : Apart d w e := by
  obtain ⟨op, o⟩ := e
  cases op with
  | payInInsert row =>
    rintro - r mem ⟨-, -, i, i', eq, eq', same⟩
    have apart := List.all_eq_true.1 ok r mem
    rw [eq, eq'] at apart
    simp [same] at apart
  | _ => trivial

/-- The log is counted in the transfers of the row. -/
def counts (l : InvoicePaidLog) (r : PayInRecord) : Bool :=
  r.transfers.any fun t => decide (t.hash = l.transactionHash ∧ t.logIndex = some l.logIndex)

/-- The check of the concrete runs decides what is counted. -/
lemma counted_of_counts {l : InvoicePaidLog} {r : PayInRecord} (counts : counts l r = true) :
    Counted l r := by
  obtain ⟨t, mem, same⟩ := List.any_eq_true.1 counts
  exact ⟨t, mem, of_decide_eq_true same⟩

/-- The context of another client. -/
def otherContext : RequestContext := { RequestContext.sample with clientId := some "other" }

/-- The id of the second row. -/
def otherId : Uuid := "00000000-0000-4000-8000-000000000001"

/-- The encoding of an invoice of one USDC with the reference of `inv-2`. -/
def otherInvoice : Hex :=
  secondRef ++
    "0000000000000000000000005425890298aed601595a70ab815c96711a31bc65" ++
    "00000000000000000000000000000000000000000000000000000000000f4240"

/-- The invoice of the pay-in of the other client. -/
def otherInvoiceId : Hex := "0x5d007f8ba3853cadae5bbed83ba5b97de13565968fd3a079774f60933970f1c7"

/-- A deployment with the hashes of both invoices. -/
def invoicesDeployment : Deployment :=
  { Deployment.sample with
    stringToBytes := fun s => if s = "inv-2" then "0x696e762d32" else "0x696e762d31"
    encodeAbiParameters := fun values =>
      if values.head? = some (.bytes32 secondRef) then .ok otherInvoice
      else Deployment.sample.encodeAbiParameters values
    keccak256 := fun bytes =>
      if bytes = "0x696e762d32" then secondRef
      else if bytes = otherInvoice then otherInvoiceId
      else Deployment.sample.keccak256 bytes }

/-- One USDC is paid for the other invoice, in the same transaction. -/
def otherPayment : InvoicePaidLog :=
  { samplePayment with logIndex := 1, invoiceId := otherInvoiceId, invoiceRef := secondRef }

/-- Two clients create a router pay-in each, and both are paid and reconciled. -/
def bothPaid : List (Choice Api World) :=
  .enter (createPayIn invoicesDeployment (sampleDto .paymentRouter) .sample).discard :: (Choice.steps 0 6 ++
    .env (redraw otherId) ::
    .enter (createPayIn invoicesDeployment { sampleDto .paymentRouter with externalId := "inv-2" }
      otherContext).discard :: (Choice.steps 1 6 ++
    .env (arrive [] [samplePayment, otherPayment]) ::
    .enter (reconcilePayIn invoicesDeployment World.sampleId .sample).discard :: (Choice.steps 2 9 ++
    .enter (reconcilePayIn invoicesDeployment otherId otherContext).discard :: Choice.steps 3 9)))

/-- Each of the payments is counted in one of the two pay-ins only. -/
theorem credited_once_of_both :
    ∃ s, (payInLedger invoicesDeployment Advances fun _ => Apart invoicesDeployment).Reachable .sample s ∧
      ∃ l ∈ s.world.chain.invoiceLogs, ∃ l' ∈ s.world.chain.invoiceLogs,
        ∃ r ∈ s.world.payins.rows, ∃ r' ∈ s.world.payins.rows, r.id ≠ r'.id ∧
          Counted l r ∧ (∀ x ∈ s.world.payins.rows, Counted l x → r = x) ∧
          Counted l' r' ∧ ∀ x ∈ s.world.payins.rows, Counted l' x → r' = x := by
  obtain ⟨s, reach, res⟩ := reachable_of_quick (fun _ => Apart invoicesDeployment)
    (insertsApart invoicesDeployment) bothPaid (fun _ _ _ => apart_of_insertsApart) (by
      simp only [bothPaid, List.forall_mem_cons, List.forall_mem_append]
      exact ⟨.createPayIn, Choice.legal_steps, env_redraw, .createPayIn, Choice.legal_steps, env_arrive,
        .reconcilePayIn, Choice.legal_steps, .reconcilePayIn, Choice.legal_steps⟩)
    (fun s => s.world.chain.invoiceLogs.any fun l => s.world.chain.invoiceLogs.any fun l' =>
      payInIs (counts l) s && (s.world.payins.find? otherId).any (counts l')) (by decide +kernel)
  obtain ⟨l, log, res⟩ := List.any_eq_true.1 res
  obtain ⟨l', log', res⟩ := List.any_eq_true.1 res
  rw [Bool.and_eq_true] at res
  obtain ⟨r, found, counts⟩ := (Option.any_eq_true _ _).1 res.1
  obtain ⟨r', found', counts'⟩ := (Option.any_eq_true _ _).1 res.2
  have mem := Table.mem_of_find? found
  have mem' := Table.mem_of_find? found'
  have counted := counted_of_counts counts
  have counted' := counted_of_counts counts'
  have distinct : r.id ≠ r'.id := by
    rw [Table.key_of_find? found, Table.key_of_find? found']
    decide
  exact ⟨s, reach, l, log, l', log', r, mem, r', mem', distinct,
    counted, fun x inside => credited_once chainOk_sample reach log mem inside counted,
    counted', fun x inside => credited_once chainOk_sample reach log' mem' inside counted'⟩

/-- Two clients create a pay-in with one external id, amount and asset. One payment is counted in
    both. -/
theorem credited_twice : ∃ s, (payInLedger .sample Advances fun _ _ _ => True).Reachable .sample s ∧
    ∃ l ∈ s.world.chain.invoiceLogs, ∃ r ∈ s.world.payins.rows, ∃ r' ∈ s.world.payins.rows,
      Counted l r ∧ Counted l r' ∧ r.id ≠ r'.id := by
  obtain ⟨s, reach, res⟩ := reachable_of_quick (fun _ _ _ => True) Machine.always
    (created .paymentRouter 6 ++ .env (redraw otherId) ::
      .enter (createPayIn .sample (sampleDto .paymentRouter) otherContext).discard ::
        (Choice.steps 1 6 ++ .env (arrive [] [samplePayment]) :: .enter sampleReconcile ::
          (Choice.steps 2 9 ++ .enter (reconcilePayIn .sample otherId otherContext).discard ::
            Choice.steps 3 9))) (fun _ _ _ _ => trivial) (by
      simp only [List.forall_mem_cons, List.forall_mem_append]
      exact ⟨legal_created, env_redraw, .createPayIn, Choice.legal_steps, env_arrive,
        .reconcilePayIn, Choice.legal_steps, .reconcilePayIn, Choice.legal_steps⟩)
    (fun s => s.world.chain.invoiceLogs.any fun l => payInIs (counts l) s &&
      (s.world.payins.find? otherId).any (counts l)) (by decide +kernel)
  obtain ⟨l, log, res⟩ := List.any_eq_true.1 res
  rw [Bool.and_eq_true] at res
  obtain ⟨r, found, counts⟩ := (Option.any_eq_true _ _).1 res.1
  obtain ⟨r', found', counts'⟩ := (Option.any_eq_true _ _).1 res.2
  refine ⟨s, reach, l, log, r, Table.mem_of_find? found, r', Table.mem_of_find? found',
    counted_of_counts counts, counted_of_counts counts', ?_⟩
  rw [Table.key_of_find? found, Table.key_of_find? found']
  decide

end AvaSettle.Payins
