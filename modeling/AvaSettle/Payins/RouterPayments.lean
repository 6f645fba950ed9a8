import AvaSettle.Contracts.Arguments
import AvaSettle.Contracts.PaymentRouterRuns
import AvaSettle.Payins.Runs

/-!
# Payments at the router

The pay-in services read from the chain what `PaymentRouter` has emitted. The contract takes a payment
of an invoice once, and what it hashes into the id of the invoice is the amount as well; the services
compute the same id again and count the logs that carry it. So a router pay-in has been paid nothing,
or just what was expected.
-/

namespace AvaSettle.Payins.RouterPayments
open Async
open Blockchain
open Evm (Word Address Record)
open Contracts
open Data (Table)
open Contracts.PaymentRouter

variable {oz : OpenZeppelin} {keccak256 : List Word → Word} {self : Address}

/-! ## Logs of the contract -/

/-- The log is how the chain shows an event of the router. -/
structure Shows (l : InvoicePaidLog) (e : InvoicePaid) : Prop where
  invoiceId : wordOf l.invoiceId = e.invoiceId
  payer : addressOf l.payer = e.payer
  token : addressOf l.token = e.token
  invoiceRef : wordOf l.invoiceRef = e.invoiceRef
  amount : l.amount = e.amount.toNat
  treasury : addressOf l.treasury = e.treasury

/-- The logs of an address. -/
def logsAt (router : Hex) (c : Chain) : List InvoicePaidLog :=
  c.invoiceLogs.filter fun l => sameHex l.address router

/-- The logs at the address of the router are the first of the events that it emits in a run. -/
def Shown (d : Deployment) (j : List (Record (abi oz))) (c : Chain) : Prop :=
  ∀ router, d.paymentRouterAddress = some router → ∃ es, es <+: PaymentRouter.paid j ∧
    List.Forall₂ (fun l (e : _ × InvoicePaid) => Shows l e.2) (logsAt router c) es

/-- The chain grows, and goes on to show the events of the run. -/
def Follows (d : Deployment) (j : List (Record (abi oz))) (c c' : Chain) : Prop :=
  Advances c c' ∧ (Shown d j c → Shown d j c')

/-- The pay-in services of a deployment, over a chain that shows the events of the run. -/
abbrev routerLedger (d : Deployment) (j : List (Record (abi oz))) : Machine Api World :=
  payInLedger d (Follows d j) fun _ _ _ => True

/-- The services encode and hash an invoice as the contract does. -/
def Hashes (d : Deployment) (keccak256 : List Word → Word) : Prop :=
  ∀ invoiceRef token amount bytes,
    d.encodeAbiParameters [.bytes32 invoiceRef, .address token, .uint256 amount] = .ok bytes →
      amount < 2 ^ 256 ∧ wordOf (d.keccak256 bytes) =
        keccak256 [wordOf invoiceRef, (addressOf token).word, .ofNat 256 amount]

/-- The hash of the invoice of an account is not that of another invoice that has been paid. -/
def HashedApart (d : Deployment) (keccak256 : List Word → Word) (j : List (Record (abi oz)))
    (a : Account) : Prop :=
  ∀ invoiceRef token, truthy a.routerInvoiceId = some invoiceRef →
    (d.getAssetConfig a.asset).address = some token →
      CollisionFree keccak256
        [wordOf invoiceRef, (addressOf token).word, .ofNat 256 a.expectedAmountAtomic] j

section
variable {d : Deployment} {j : List (Record (abi oz))} {c : Chain} {a : Account} {i : Hex}

/-- The logs of the router carry different ids. -/
lemma nodup_logsAt {router : Hex} {s : Evm.Account (abi oz)} (books : PaymentRouter.Books keccak256 s)
    (shown : Shown d s.journal c) (configured : d.paymentRouterAddress = some router) :
    ((logsAt router c).map fun l => wordOf l.invoiceId).Nodup := by
  obtain ⟨es, first, shows⟩ := shown router configured
  have ids : (logsAt router c).map (fun l => wordOf l.invoiceId) = es.map (·.2.invoiceId) := by
    rw [← List.forall₂_eq_eq_eq, List.forall₂_map_left_iff, List.forall₂_map_right_iff]
    exact shows.imp fun _ _ shows => shows.invoiceId
  have once := books.once
  rw [← books.map_paid] at once
  exact ids ▸ once.sublist (first.sublist.map _)

/-- The invoice of an account is what the contract would compute. -/
lemma wordOf_invoiceOf (hashes : Hashes d keccak256) (invoice : invoiceOf d a = some i) :
    ∃ invoiceRef token, truthy a.routerInvoiceId = some invoiceRef ∧
      (d.getAssetConfig a.asset).address = some token ∧ a.expectedAmountAtomic < 2 ^ 256 ∧
        wordOf i = computeInvoiceId keccak256 (wordOf invoiceRef) (addressOf token)
          (.ofNat 256 a.expectedAmountAtomic) := by
  unfold invoiceOf at invoice
  split at invoice
  case h_1 invoiceRef token ref asset =>
    unfold computeRouterInvoiceId at invoice
    cases encoded : d.encodeAbiParameters
        [.bytes32 invoiceRef, .address token, .uint256 a.expectedAmountAtomic] with
    | error e =>
      rw [encoded] at invoice
      cases invoice
    | ok bytes =>
      rw [encoded] at invoice
      cases invoice
      obtain ⟨bound, same⟩ := hashes _ _ _ _ encoded
      exact ⟨invoiceRef, token, ref, asset, bound, same⟩
  case h_2 => cases invoice

/-- A log with the id of an account pays what is expected. -/
lemma amount_of_log {router : Hex} {s : Evm.Account (abi oz)} {l : InvoicePaidLog}
    (books : PaymentRouter.Books keccak256 s) (shown : Shown d s.journal c) (hashes : Hashes d keccak256)
    (apart : HashedApart d keccak256 s.journal a)
    (configured : d.paymentRouterAddress = some router) (mem : l ∈ logsAt router c)
    (invoice : invoiceOf d a = some i) (same : sameHex l.invoiceId i = true) :
    l.amount = a.expectedAmountAtomic := by
  obtain ⟨es, first, shows⟩ := shown router configured
  obtain ⟨e, emitted, showing⟩ := Data.exists_of_mem shows mem
  obtain ⟨invoiceRef, token, ref, asset, bound, id⟩ := wordOf_invoiceOf hashes invoice
  have amount := books.amount_of_mem_paid (apart invoiceRef token ref asset) (first.subset emitted)
    (showing.invoiceId.symm.trans ((wordOf_of_sameHex same).trans id))
  rw [showing.amount, amount, BitVec.toNat_ofNat, Nat.mod_eq_of_lt bound]

/-- At most one log counts for a router account, and it pays what is expected. -/
lemma matching_exactly {s : Evm.Account (abi oz)} (books : PaymentRouter.Books keccak256 s)
    (shown : Shown d s.journal c) (hashes : Hashes d keccak256)
    (apart : HashedApart d keccak256 s.journal a) (mode : a.collectionMode = .paymentRouter) :
    (matching d c a).length ≤ 1 ∧
      ∀ t ∈ matching d c a, t.amountAtomic = a.expectedAmountAtomic := by
  unfold matching
  rw [mode]
  split
  case h_1 eq _ => cases eq
  case h_2 token _ _ =>
    split
    case h_1 router i configured invoice =>
      have counted : ∀ l ∈ c.invoiceLogs.filter (isPayment router i token),
          l ∈ logsAt router c ∧ sameHex l.invoiceId i = true := fun l mem => by
        simp only [List.mem_filter, isPayment, Bool.and_eq_true] at mem
        exact ⟨List.mem_filter.2 ⟨mem.1, mem.2.1.1⟩, mem.2.1.2⟩
      have some : (c.invoiceLogs.filter (isPayment router i token)).Sublist (logsAt router c) :=
        List.monotone_filter_right _ fun l pays => by
          simp only [isPayment, Bool.and_eq_true] at pays
          exact pays.1.1
      constructor
      · rw [List.length_map]
        exact Data.length_le_one_of_nodup_map
          ((nodup_logsAt books shown configured).sublist (some.map _))
          fun l mem => wordOf_of_sameHex (counted l mem).2
      · intro t mem
        obtain ⟨l, hl, rfl⟩ := List.mem_map.1 mem
        obtain ⟨here, same⟩ := counted l hl
        exact amount_of_log books shown hashes apart configured here invoice same
    case h_2 => exact ⟨Nat.zero_le _, by simp⟩
  case h_3 => exact ⟨Nat.zero_le _, by simp⟩

end

/-! ## Rows -/

section
variable {d : Deployment} {j : List (Record (abi oz))} {c : Chain} {r : PayInRecord}

/-- A row that counts only what is expected, and once, is neither underpaid nor overpaid. -/
lemma exactly_of_rowOk {grows : Prop} (ok : RowOk grows d c r) (g : grows)
    (once : (matching d c (account r)).length ≤ 1)
    (exactly : ∀ t ∈ matching d c (account r), t.amountAtomic = r.expectedAmountAtomic) :
    (r.receivedAmountAtomic = 0 ∨ r.receivedAmountAtomic = r.expectedAmountAtomic) ∧
      r.status ∈ [.pending, .expired, .detected, .confirmed] := by
  have real := (ok.books g).real
  have few : r.transfers.length ≤ 1 :=
    (ok.once.of_map _).subperm real |>.length_le.trans once
  have total : r.receivedAmountAtomic = 0 ∨
      r.receivedAmountAtomic = r.expectedAmountAtomic := by
    rw [ok.total, totalReceivedAtomic]
    match eq : r.transfers, few with
    | [], _ => exact .inl rfl
    | [t], _ =>
      refine .inr ((List.sum_singleton).trans (exactly t (real t ?_)))
      change t ∈ r.transfers
      simp [eq]
  have expected := ok.expected
  refine ⟨total, ?_⟩
  cases status : r.status with
  | underpaid =>
    have short := ok.short status
    omega
  | overpaid =>
    have excess := ok.excess status
    omega
  | _ => simp

end

/-! ## The services over the contract -/

section
variable {d : Deployment} {j : List (Record (abi oz))} {c : Chain} {now : Timestamp}
  {nextUuid : Uuid} {nextBytes32 : Hex} {s : Sys Api World} {r : PayInRecord}

/-- Where no condition is met, invoices are apart. -/
lemma apart_of_false (d : Deployment) :
    False → ∀ (_ : Hist Api) (w : World) (e : Event Api), True → Apart d w e := False.elim

/-- Where no condition is met, writes are timely. -/
lemma timely_of_false (d : Deployment) :
    False → ∀ (h : Hist Api) (w : World) (e : Event Api), True → Timely d h w e := False.elim

/-- The setting of a chain that shows the events of a run. -/
def routerSetting (d : Deployment) (j : List (Record (abi oz))) : Setting where
  deployment := d
  terms := ⟨True, False, False⟩
  chain := Follows d j
  entry := Entry d
  cond _ _ _ := True
  advances _ _ _ h := h.1
  apart := apart_of_false d
  timely := timely_of_false d

/-- No operation of the services changes the chain. -/
lemma chain_exec {call : Call} {w w' : World} {b : call.Res}
    (run : World.exec call w = some (b, w')) : w'.chain = w.chain := by
  cases call
  case payInInsert row =>
    simp only [World.exec, World.insertPayIn] at run
    split at run
    case isTrue => cases run; rfl
    case isFalse =>
      split at run
      case isTrue => cases run
      case isFalse =>
        obtain ⟨t, -, eq⟩ := Option.map_eq_some_iff.1 run
        cases eq
        rfl
  case payInUpdate => cases run; rfl
  all_goals exact (exec_elsewhere (by simp) (by simp) run).2

/-- The chain goes on to show the events of the run. -/
lemma shown_of_reachable (shown : Shown d j c)
    (reach : (routerLedger d j).Reachable (.fresh c now nextUuid nextBytes32) s) :
    Shown d j s.world.chain :=
  Machine.world_of_steps (P := fun w => Shown d j w.chain)
    (fun _ _ _ _ run shown => by rwa [chain_exec run])
    (fun w w' (move : World.Env (Follows d j) w w') shown => move.chain.2 shown) reach shown

/-- Whatever is called at the router by whomever, a router pay-in has received nothing or just what is
    expected, and is never underpaid or overpaid. -/
theorem never_underpaid_or_overpaid {initialOwner initialTreasury : Address}
    {s₀ s₁ : Evm.Account (abi oz)} {ts : List (Evm.Transaction (abi oz))}
    (init : construct oz initialOwner initialTreasury = .ok s₀)
    (ran : Evm.run (contract keccak256 self) s₀ ts = s₁) (hashes : Hashes d keccak256)
    (ok : ChainOk c) (shown : Shown d s₁.journal c)
    (reach : (routerLedger d s₁.journal).Reachable (.fresh c now nextUuid nextBytes32) s)
    (mem : r ∈ s.world.payins.rows) (mode : r.collectionMode = .paymentRouter)
    (apart : HashedApart d keccak256 s₁.journal (account r)) :
    (r.receivedAmountAtomic = 0 ∨ r.receivedAmountAtomic = r.expectedAmountAtomic) ∧
      r.status ∈ [.pending, .expired, .detected, .confirmed] := by
  have books : PaymentRouter.Books keccak256 s₁ := by
    obtain ⟨free, (books : PaymentRouter.Books keccak256 s₀), -⟩ := books_construct init
    exact ran ▸ ((guarantee.run s₀ ts).outside free books).2
  have sound : (routerSetting d s₁.journal).spec.Sound := sound fun _ h => h
  have init : (routerSetting d s₁.journal).spec.inv (.fresh c now nextUuid nextBytes32) 0 :=
    inv_fresh fun _ => ok
  obtain ⟨_, inv⟩ := Spec.inv_of_reachable sound init reach
  obtain ⟨once, exactly⟩ := matching_exactly (a := account r) books (shown_of_reachable shown reach)
    hashes apart mode
  exact exactly_of_rowOk (inv.rows r.id r (Table.find?_of_mem mem)) trivial once exactly

end

/-! ## A payment -/

/-- The sample deployment, with a library that encodes the invoice of the concrete run. -/
def routerDeployment : Deployment :=
  { Deployment.sample with
    encodeAbiParameters
      | [.bytes32 invoiceRef, .address token, .uint256 amount] =>
        if invoiceRef = sampleRef ∧ token = sampleToken ∧ amount = 1000000 then .ok sampleInvoice
        else .error "Invalid arguments."
      | _ => .error "Invalid arguments." }

/-- The hash of the invoice of the concrete run. -/
def invoiceHash (preimage : List Word) : Word :=
  if preimage = [wordOf sampleRef, (addressOf sampleToken).word, 1000000] then
    wordOf sampleInvoiceId
  else 0

/-- The sample deployment hashes as the contract does. -/
lemma hashes_sample : Hashes routerDeployment invoiceHash := by
  intro invoiceRef token amount bytes encoded
  simp only [routerDeployment] at encoded
  split at encoded
  case isTrue same =>
    cases encoded
    obtain ⟨rfl, rfl, rfl⟩ := same
    exact ⟨by decide, by decide +kernel⟩
  case isFalse => cases encoded

/-- A router that pays into the deposit address of the concrete runs. -/
def payingRouter : Evm.Account (abi .standard) :=
  ⟨⟨⟨1, 0, false, false⟩, addressOf sampleDeposit, fun _ => false, fun _ => 0, fun _ => false⟩, []⟩

/-- The owner supports the token, and someone pays the invoice. -/
def payingTransactions : List (Evm.Transaction (abi .standard)) :=
  [⟨⟨1, 0, .setTokenSupported (addressOf sampleToken) true 0⟩, 1, []⟩,
    ⟨⟨addressOf sampleDeposit, 2,
      .payInvoice (wordOf sampleRef) (addressOf sampleToken) 1000000 []⟩, 2,
        [.handles [] (some (.word 1))]⟩]

/-- The router after these transactions. -/
def paidRouter : Evm.Account (abi .standard) :=
  Evm.run (contract invoiceHash 9) payingRouter payingTransactions

/-- The payment is shown, on a chain that has shown none. -/
def showPayment (w : World) : World :=
  if w.chain.invoiceLogs = [] then arrive [] [samplePayment] w else w

/-- The sample router can be deployed. -/
lemma construct_payingRouter :
    construct .standard 1 (addressOf sampleDeposit) = .ok payingRouter := by
  have treasury : addressOf sampleDeposit ≠ 0 := by decide +kernel
  simp only [construct, OpenZeppelin.standard, treasury, if_false]
  rfl

/-- The sample invoice is not hashed like another. -/
lemma hashedApart_sample {a : Payins.Account} (ref : a.routerInvoiceId = some sampleRef)
    (amount : a.expectedAmountAtomic = 1000000) :
    HashedApart routerDeployment invoiceHash paidRouter.journal a := by
  intro invoiceRef token stored asset
  rw [ref] at stored
  obtain rfl : sampleRef = invoiceRef := Option.some.inj stored
  obtain rfl : sampleToken = token := Option.some.inj asset
  have free : CollisionFree invoiceHash
      [wordOf sampleRef, (addressOf sampleToken).word, .ofNat 256 1000000] paidRouter.journal := by
    unfold CollisionFree
    decide +kernel
  rwa [amount]

/-- The event that the router has emitted. -/
def emittedPayment : InvoicePaid :=
  ⟨wordOf sampleInvoiceId, addressOf sampleDeposit, addressOf sampleToken, wordOf sampleRef, 1000000,
    addressOf sampleDeposit, []⟩

/-- The sample run emits one payment. -/
lemma paid_paidRouter : ∃ f, PaymentRouter.paid paidRouter.journal = [(f, emittedPayment)] := by
  have events : (PaymentRouter.paid paidRouter.journal).map Prod.snd = [emittedPayment] := by
    decide +kernel
  obtain ⟨⟨f, e⟩, eq, rfl⟩ := List.map_eq_singleton_iff.1 events
  exact ⟨f, eq⟩

/-- The sample log shows it. -/
lemma shows_emittedPayment {n : Nat} :
    Shows { samplePayment with blockNumber := n } emittedPayment :=
  ⟨rfl, rfl, rfl, rfl, (by decide : 1000000 = (1000000 : Word).toNat), rfl⟩

/-- The chain shows one log at the address of the router. -/
lemma logsAt_showPayment {w : World} (none : w.chain.invoiceLogs = []) :
    logsAt sampleAddress (arrive [] [samplePayment] w).chain = [] ∨
      ∃ n, logsAt sampleAddress (arrive [] [samplePayment] w).chain =
        [{ samplePayment with blockNumber := n }] := by
  unfold arrive mineLogs logsAt
  dsimp only
  split
  case isTrue =>
    refine .inr ⟨w.chain.head + 1, ?_⟩
    simp [none, samplePayment, sameHex]
  case isFalse => simp [none]

/-- Showing the payment is a move of the chain. -/
lemma follows_showPayment (w : World) :
    World.Env (Follows routerDeployment paidRouter.journal) w (showPayment w) := by
  unfold showPayment
  split
  case isFalse => exact ⟨rfl, rfl, rfl, rfl, rfl, rfl, rfl, rfl, .refl, fun shown => shown⟩
  case isTrue none =>
    refine ⟨rfl, rfl, rfl, rfl, rfl, rfl, rfl, rfl, advances_mineLogs, fun _ router configured => ?_⟩
    obtain rfl : sampleAddress = router := Option.some.inj configured
    obtain ⟨f, emitted⟩ := paid_paidRouter
    obtain logs | ⟨n, logs⟩ := logsAt_showPayment none
    · exact ⟨[], List.nil_prefix, by rw [logs]; exact .nil⟩
    · exact ⟨[(f, emittedPayment)], emitted ▸ List.prefix_rfl, by
        rw [logs]
        exact .cons shows_emittedPayment .nil⟩

/-- The schedule on which a router pay-in is created, paid and reconciled. -/
def paidAtRouter : List (Choice Api World) :=
  .enter (createPayIn routerDeployment (sampleDto .paymentRouter) .sample).discard ::
    (Choice.steps 0 6 ++ .env showPayment ::
      .enter (reconcilePayIn routerDeployment World.sampleId .sample).discard :: Choice.steps 1 9)

/-- The schedule of the concrete run is a legal one. -/
lemma legal_paidAtRouter :
    ∀ c ∈ paidAtRouter, c.Legal (routerLedger routerDeployment paidRouter.journal) := by
  simp only [paidAtRouter, List.forall_mem_cons, List.forall_mem_append]
  exact ⟨.createPayIn, Choice.legal_steps, follows_showPayment, .reconcilePayIn,
    Choice.legal_steps⟩

/-- A router pay-in that has been paid. -/
theorem never_underpaid_or_overpaid_of_paid :
    ∃ s, (routerLedger routerDeployment paidRouter.journal).Reachable .sample s ∧
      ∃ r ∈ s.world.payins.rows, r.receivedAmountAtomic ≠ 0 ∧
        (r.receivedAmountAtomic = 0 ∨ r.receivedAmountAtomic = r.expectedAmountAtomic) ∧
          r.status ∈ [.pending, .expired, .detected, .confirmed] := by
  have res : ((quick (Follows routerDeployment paidRouter.journal) (Entry routerDeployment)
      fun _ _ _ => True).run Machine.always paidAtRouter ⟨.sample, []⟩).any
        (payInIs fun r => decide (r.receivedAmountAtomic ≠ 0 ∧ r.collectionMode = .paymentRouter ∧
          r.routerInvoiceId = some sampleRef ∧ r.expectedAmountAtomic = 1000000)) = true := by
    decide +kernel
  rw [quick_eq] at res
  obtain ⟨s, reach, res⟩ := Machine.reachable_of_run Machine.always paidAtRouter _
    (fun _ _ _ _ => trivial) legal_paidAtRouter res
  obtain ⟨r, found, res⟩ := (Option.any_eq_true _ _).1 res
  obtain ⟨some, mode, ref, amount⟩ := of_decide_eq_true res
  have mem := Table.mem_of_find? found
  have shown : Shown routerDeployment paidRouter.journal World.sampleChain := fun _ _ =>
    ⟨[], List.nil_prefix, .nil⟩
  exact ⟨s, reach, r, mem, some, never_underpaid_or_overpaid construct_payingRouter rfl hashes_sample
    chainOk_sample shown reach mem mode (hashedApart_sample ref amount)⟩

end AvaSettle.Payins.RouterPayments
