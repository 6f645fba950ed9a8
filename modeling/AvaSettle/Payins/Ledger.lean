import AvaSettle.Payins.Transfers

/-!
# The pay-in ledger

The invariant of the pay-in table against the chain, and the effect of each kind of write on it. A
pay-in has an account, the columns that say which logs are its money and that no update changes, and a
tally, the columns that a scan writes. `matching` is the abstract side: all logs of the chain that
count for an account. The tally is in order when it holds matching logs only, and all of them up to
the block that was scanned last.
-/

namespace AvaSettle.Payins
open Data (Table)
open Blockchain

/-! ## The chain -/

/-- The place of a log: its transaction, and its index there. -/
def transferPlace (l : TransferLog) : Hex × Nat := (l.transactionHash, l.logIndex)

/-- The place of a log: its transaction, and its index there. -/
def paymentPlace (l : InvoicePaidLog) : Hex × Nat := (l.transactionHash, l.logIndex)

/-- The places of all logs. -/
def places (c : Chain) : List (Hex × Nat) :=
  c.transferLogs.map transferPlace ++ c.invoiceLogs.map paymentPlace

/-- A chain as it can be: one log in each place, and no node ahead of the chain. -/
structure ChainOk (c : Chain) : Prop where
  places : (places c).Nodup
  reported : c.reportedHead ≤ c.head

/-- The chain grows: logs stay, and new ones are above the head. -/
structure Advances (c c' : Chain) : Prop where
  ok : ChainOk c → ChainOk c'
  head : c.head ≤ c'.head
  transfers : ∃ new, c'.transferLogs = c.transferLogs ++ new ∧ ∀ l ∈ new, c.head < l.blockNumber
  invoices : ∃ new, c'.invoiceLogs = c.invoiceLogs ++ new ∧ ∀ l ∈ new, c.head < l.blockNumber

/-- A chain has grown by nothing. -/
lemma Advances.refl {c : Chain} : Advances c c :=
  ⟨fun ok => ok, le_rfl, ⟨[], by simp⟩, ⟨[], by simp⟩⟩

/-- A chain that grows twice has grown. -/
lemma Advances.trans {c₁ c₂ c₃ : Chain} (h₁ : Advances c₁ c₂) (h₂ : Advances c₂ c₃) :
    Advances c₁ c₃ where
  ok ok := h₂.ok (h₁.ok ok)
  head := h₁.head.trans h₂.head
  transfers := by
    obtain ⟨new₁, eq₁, above₁⟩ := h₁.transfers
    obtain ⟨new₂, eq₂, above₂⟩ := h₂.transfers
    refine ⟨new₁ ++ new₂, by rw [eq₂, eq₁, List.append_assoc], fun l mem => ?_⟩
    exact (List.mem_append.1 mem).elim (above₁ l) fun mem => h₁.head.trans_lt (above₂ l mem)
  invoices := by
    obtain ⟨new₁, eq₁, above₁⟩ := h₁.invoices
    obtain ⟨new₂, eq₂, above₂⟩ := h₂.invoices
    refine ⟨new₁ ++ new₂, by rw [eq₂, eq₁, List.append_assoc], fun l mem => ?_⟩
    exact (List.mem_append.1 mem).elim (above₁ l) fun mem => h₁.head.trans_lt (above₂ l mem)

/-! ## Accounts -/

/-- The columns that say which logs are the money of a pay-in. -/
structure Account where
  asset : SettlementAsset
  collectionMode : PayInCollectionMode
  depositAddress : Hex
  routerInvoiceId : Option Hex
  expectedAmountAtomic : Nat
  startBlock : Nat

/-- The account of a row. -/
def account (r : PayInRecord) : Account :=
  ⟨r.asset, r.collectionMode, r.depositAddress, r.routerInvoiceId, r.expectedAmountAtomic,
    r.startBlock⟩

/-- The columns that a scan writes. -/
structure Tally where
  transfers : List PayInTransferRecord
  receivedAmountAtomic : Nat
  lastScannedBlock : Option Nat

/-- The tally of a row. -/
def tally (r : PayInRecord) : Tally :=
  ⟨r.transfers, r.receivedAmountAtomic, r.lastScannedBlock⟩

/-- The log is a transfer of the token to the recipient. -/
def isTransfer (token recipient : Hex) (l : TransferLog) : Bool :=
  sameHex l.address token && sameHex l.to recipient

/-- The log is a payment of the invoice at the router. -/
def isPayment (router invoiceId token : Hex) (l : InvoicePaidLog) : Bool :=
  sameHex l.address router && sameHex l.invoiceId invoiceId && sameHex l.token token

section
variable (d : Deployment)

/-- The decimals of the asset. -/
def decimalsOf (asset : SettlementAsset) : Nat := (d.getAssetConfig asset).decimals

/-- The record of an invoice payment. -/
def routerTransfer (asset : SettlementAsset) (l : InvoicePaidLog) : PayInTransferRecord :=
  paymentTransfer (invoicePayment d (decimalsOf d asset) l)

/-- The record of a transfer. -/
def depositTransfer (asset : SettlementAsset) (l : TransferLog) : PayInTransferRecord :=
  incomingTransfer d (decimalsOf d asset) l

/-- The invoice that a payment of the account settles at the router. -/
def invoiceOf (a : Account) : Option Hex :=
  match truthy a.routerInvoiceId, (d.getAssetConfig a.asset).address with
  | some invoiceRef, some token =>
    (computeRouterInvoiceId d invoiceRef token a.expectedAmountAtomic).toOption
  | _, _ => none

/-- The logs that count for an account, as records. -/
def matching (c : Chain) (a : Account) : List PayInTransferRecord :=
  match a.collectionMode, (d.getAssetConfig a.asset).address with
  | .derivedAddress, some token =>
    (c.transferLogs.filter (isTransfer token a.depositAddress)).map (depositTransfer d a.asset)
  | .paymentRouter, some token =>
    match d.paymentRouterAddress, invoiceOf d a with
    | some router, some invoiceId =>
      (c.invoiceLogs.filter (isPayment router invoiceId token)).map (routerTransfer d a.asset)
    | _, _ => []
  | _, none => []

end

section
variable {d : Deployment} {c c' : Chain} {a : Account} {t t' : PayInTransferRecord}

/-- A matching record is that of a log of the chain, and so is its place. -/
lemma log_of_matching (mem : t ∈ matching d c a) :
    (∃ l ∈ c.transferLogs, a.collectionMode = .derivedAddress ∧ t = depositTransfer d a.asset l) ∨
      ∃ l ∈ c.invoiceLogs, a.collectionMode = .paymentRouter ∧ t = routerTransfer d a.asset l ∧
        ∃ invoiceId, invoiceOf d a = some invoiceId ∧ sameHex l.invoiceId invoiceId = true := by
  unfold matching at mem
  split at mem
  case h_1 mode token =>
    obtain ⟨l, hl, rfl⟩ := List.mem_map.1 mem
    exact .inl ⟨l, (List.mem_filter.1 hl).1, mode, rfl⟩
  case h_2 mode token =>
    split at mem
    case h_1 router invoice =>
      obtain ⟨l, hl, rfl⟩ := List.mem_map.1 mem
      obtain ⟨hl, pays⟩ := List.mem_filter.1 hl
      simp only [isPayment, Bool.and_eq_true] at pays
      exact .inr ⟨l, hl, mode, rfl, _, invoice, pays.1.2⟩
    case h_2 => cases mem
  case h_3 => cases mem

/-- Records of two logs with one key are records of one log. -/
lemma eq_of_transferKey (ok : ChainOk c) (mem : t ∈ matching d c a) (mem' : t' ∈ matching d c a)
    (key : transferKey t = transferKey t') : t = t' := by
  obtain ⟨transfers, invoices, -⟩ := List.nodup_append.1 ok.places
  rcases log_of_matching mem with ⟨l, hl, mode, rfl⟩ | ⟨l, hl, mode, rfl, -⟩
  · rcases log_of_matching mem' with ⟨l', hl', -, rfl⟩ | ⟨l', hl', mode', -⟩
    · obtain ⟨hash, index⟩ := logKey_injective key
      rw [List.inj_on_of_nodup_map transfers hl hl' (Prod.ext hash index)]
    · cases mode.symm.trans mode'
  · rcases log_of_matching mem' with ⟨l', hl', mode', -⟩ | ⟨l', hl', -, rfl, -⟩
    · cases mode.symm.trans mode'
    · obtain ⟨hash, index⟩ := logKey_injective key
      rw [List.inj_on_of_nodup_map invoices hl hl' (Prod.ext hash index)]

/-- As the chain grows, matching logs stay, and new ones are above the old head. -/
lemma Advances.matching (advances : Advances c c') :
    ∃ new, matching d c' a = matching d c a ++ new ∧ ∀ t ∈ new, c.head < t.blockNumber := by
  obtain ⟨newT, eqT, aboveT⟩ := advances.transfers
  obtain ⟨newI, eqI, aboveI⟩ := advances.invoices
  unfold Payins.matching
  split
  case h_1 token _ _ =>
    refine ⟨(newT.filter (isTransfer token a.depositAddress)).map (depositTransfer d a.asset),
      by rw [eqT, List.filter_append, List.map_append], fun t mem => ?_⟩
    obtain ⟨l, hl, rfl⟩ := List.mem_map.1 mem
    exact aboveT l (List.mem_filter.1 hl).1
  case h_2 token _ _ =>
    split
    case h_1 router invoiceId _ _ =>
      refine ⟨(newI.filter (isPayment router invoiceId token)).map (routerTransfer d a.asset),
        by rw [eqI, List.filter_append, List.map_append], fun t mem => ?_⟩
      obtain ⟨l, hl, rfl⟩ := List.mem_map.1 mem
      exact aboveI l (List.mem_filter.1 hl).1
    case h_2 => exact ⟨[], rfl, nofun⟩
  case h_3 => exact ⟨[], rfl, nofun⟩

/-- Matching logs stay. -/
lemma Advances.mem_matching (advances : Advances c c') (mem : t ∈ Payins.matching d c a) :
    t ∈ Payins.matching d c' a := by
  obtain ⟨new, eq, -⟩ := advances.matching (d := d) (a := a)
  exact eq ▸ List.mem_append_left _ mem

/-- A matching log at or below the old head was there before. -/
lemma Advances.mem_matching_of_le (advances : Advances c c') (mem : t ∈ Payins.matching d c' a)
    (le : t.blockNumber ≤ c.head) : t ∈ Payins.matching d c a := by
  obtain ⟨new, eq, above⟩ := advances.matching (d := d) (a := a)
  rw [eq] at mem
  exact (List.mem_append.1 mem).resolve_right fun mem => absurd (above t mem) (by omega)

end

/-! ## Books -/

/-- A tally against the chain. -/
structure Books (d : Deployment) (c : Chain) (a : Account) (t : Tally) : Prop where
  /-- Every transfer is a matching log. -/
  real : ∀ x ∈ t.transfers, x ∈ matching d c a
  /-- No node was ahead of the chain. -/
  scanned : ∀ n, t.lastScannedBlock = some n → n ≤ c.head
  /-- Every matching log up to the block scanned last is there. -/
  complete : 0 < a.startBlock → ∀ n, t.lastScannedBlock = some n → ∀ x ∈ matching d c a,
    a.startBlock ≤ x.blockNumber → x.blockNumber ≤ n → x ∈ t.transfers

/-- Books stay in order as the chain grows. -/
lemma Books.advance {d : Deployment} {c c' : Chain} {a : Account} {t : Tally}
    (advances : Advances c c') (books : Books d c a t) : Books d c' a t where
  real x mem := advances.mem_matching (books.real x mem)
  scanned n eq := (books.scanned n eq).trans advances.head
  complete pos n eq x mem start le :=
    books.complete pos n eq x (advances.mem_matching_of_le mem (le.trans (books.scanned n eq)))
      start le

/-- A merge of the logs from where the scan resumes up to the head that was observed. -/
lemma Books.merge {d : Deployment} {c : Chain} {payin : PayInRecord}
    {new : List PayInTransferRecord} {n : Nat} (ok : ChainOk c)
    (books : Books d c (account payin) (tally payin))
    (real : ∀ x ∈ new, x ∈ matching d c (account payin)) (head : n ≤ c.head)
    (found : 0 < payin.startBlock → ∀ x ∈ matching d c (account payin),
      scanFromBlock payin ≤ x.blockNumber → x.blockNumber ≤ n → x ∈ new) :
    Books d c (account payin) ⟨mergeTransfers payin.transfers new,
      totalReceivedAtomic (mergeTransfers payin.transfers new), some n⟩ where
  real x mem := (mem_of_mem_mergeTransfers mem).elim (books.real x) (real x)
  scanned _ eq := by
    cases eq
    exact head
  complete pos _ eq x mem start le := by
    cases eq
    have all : ∀ y ∈ payin.transfers ++ new, y ∈ matching d c (account payin) := fun y mem =>
      (List.mem_append.1 mem).elim (books.real y) (real y)
    refine mem_mergeTransfers (fun y hy z hz => eq_of_transferKey ok (all y hy) (all z hz)) ?_
    rcases lt_or_ge x.blockNumber (scanFromBlock payin) with before | after
    · obtain ⟨n', eq, le⟩ := scanned_of_lt_scanFromBlock start before
      exact .inl (books.complete pos n' eq x mem start le)
    · exact .inr (found pos x mem after le)

/-! ## Rows -/

/-- What is known of a pay-in that was confirmed by its payments: they are just what was expected, and
    deep below the block that was scanned last. -/
structure Settled (d : Deployment) (r : PayInRecord) : Prop where
  exactly : r.receivedAmountAtomic = r.expectedAmountAtomic
  deep : ∃ n, r.lastScannedBlock = some n ∧
    ∀ t ∈ r.transfers, t.blockNumber + max 1 d.minConfirmations ≤ n

/-- A row in itself and, where the chain is known to grow, against the chain. -/
structure RowOk (grows : Prop) (d : Deployment) (c : Chain) (r : PayInRecord) : Prop where
  expected : 0 < r.expectedAmountAtomic
  total : r.receivedAmountAtomic = totalReceivedAtomic r.transfers
  once : (r.transfers.map transferKey).Nodup
  short : r.status = .underpaid →
    0 < r.receivedAmountAtomic ∧ r.receivedAmountAtomic < r.expectedAmountAtomic
  excess : r.status = .overpaid → r.expectedAmountAtomic < r.receivedAmountAtomic
  confirmedAt : r.status = .confirmed → r.confirmedAt ≠ none
  settled : r.status = .confirmed → r.acceptedAt = none → Settled d r
  books : grows → Books d c (account r) (tally r)

/-- The columns that a row is judged by. -/
def judged (r : PayInRecord) :=
  (account r, tally r, r.status, r.confirmedAt, r.acceptedAt)

section
variable {grows : Prop} {d : Deployment} {c c' : Chain} {r r' : PayInRecord}

/-- A row is judged by the judged columns. -/
lemma RowOk.congr (same : judged r' = judged r) (ok : RowOk grows d c r) : RowOk grows d c r' := by
  simp only [judged, account, tally, Prod.mk.injEq, Account.mk.injEq, Tally.mk.injEq] at same
  obtain ⟨⟨asset, mode, address, invoice, expected, start⟩, ⟨transfers, received, scanned⟩, status,
    confirmedAt, acceptedAt⟩ := same
  constructor
  · exact expected ▸ ok.expected
  · rw [received, transfers, ok.total]
  · rw [transfers]
    exact ok.once
  · rw [status, received, expected]
    exact ok.short
  · rw [status, received, expected]
    exact ok.excess
  · rw [status, confirmedAt]
    exact ok.confirmedAt
  · intro confirmed accepted
    obtain ⟨exactly, n, eq, deep⟩ := ok.settled (status ▸ confirmed) (acceptedAt ▸ accepted)
    refine ⟨by rw [received, expected, exactly], n, by rw [scanned, eq], ?_⟩
    rw [transfers]
    exact deep
  · intro g
    have books := ok.books g
    rwa [account, tally, ← asset, ← mode, ← address, ← invoice, ← expected, ← start, ← transfers,
      ← received, ← scanned] at books

/-- A row stays in order as the chain grows. -/
lemma RowOk.advance (advances : grows → Advances c c') (ok : RowOk grows d c r) :
    RowOk grows d c' r :=
  { ok with books := fun g => (ok.books g).advance (advances g) }

/-- A row is in order after a reconciliation that read another version of it. -/
lemma RowOk.reconciled {payin : PayInRecord} {new : List PayInTransferRecord} {n : Nat}
    {expired : Bool} {now time : Timestamp} (chain : grows → ChainOk c) (ok : RowOk grows d c payin)
    (same : account r = account payin)
    (real : grows → ∀ x ∈ new, x ∈ matching d c (account payin)) (head : grows → n ≤ c.head)
    (found : grows → 0 < payin.startBlock → ∀ x ∈ matching d c (account payin),
      scanFromBlock payin ≤ x.blockNumber → x.blockNumber ≤ n → x ∈ new) :
    RowOk grows d c ((reconcilePatch d payin (mergeTransfers payin.transfers new) n
      (reconciledStatus d payin (mergeTransfers payin.transfers new) n expired) now).applyTo
        time r) := by
  generalize eq : mergeTransfers payin.transfers new = ts
  have expected : r.expectedAmountAtomic = payin.expectedAmountAtomic :=
    congrArg Account.expectedAmountAtomic same
  constructor
  · exact expected ▸ ok.expected
  · rfl
  · exact eq ▸ nodup_mergeTransfers
  · intro underpaid
    obtain ⟨some, less⟩ := reconciledStatus_eq_underpaid underpaid
    exact ⟨Nat.pos_of_ne_zero some, expected ▸ less⟩
  · intro overpaid
    exact expected ▸ reconciledStatus_eq_overpaid overpaid
  · intro confirmed
    change (if isNewConfirmation payin _ then some now else payin.confirmedAt) ≠ none
    change reconciledStatus d payin ts n expired = .confirmed at confirmed
    rw [confirmed, isNewConfirmation]
    cases payin.confirmedAt <;> simp
  · intro confirmed _
    have paid := reconciledStatus_eq_confirmed_iff.1 confirmed
    exact ⟨paid.exactly.trans expected.symm, n, rfl,
      fun t mem => deep_of_enoughConfirmations paid.deep mem⟩
  · intro g
    have books := Books.merge (chain g) (ok.books g) (real g) (head g) (found g)
    rw [eq] at books
    change Books d c (account r) ⟨ts, totalReceivedAtomic ts, some n⟩
    rwa [same]

/-- A row is in order after a manual acceptance. -/
lemma RowOk.accepted {payin : PayInRecord} {dto : AcceptPayInDto} {now time : Timestamp}
    (ok : RowOk grows d c r) : RowOk grows d c ((acceptPatch dto payin now).applyTo time r) where
  expected := ok.expected
  total := ok.total
  once := ok.once
  short status := by cases status
  excess status := by cases status
  confirmedAt _ := by simp [PayInPatch.applyTo, acceptPatch]
  settled _ accepted := by cases accepted
  books := ok.books

end

/-- The row of a new pay-in is in order. -/
structure New (r : PayInRecord) : Prop where
  expected : 0 < r.expectedAmountAtomic
  status : r.status = .pending
  tally : tally r = ⟨[], 0, none⟩

/-- A new row is in order. -/
lemma New.ok {grows : Prop} {d : Deployment} {c : Chain} {r : PayInRecord} (new : New r) :
    RowOk grows d c r := by
  obtain ⟨expected, status, same⟩ := new
  have books : Books d c (account r) ⟨[], 0, none⟩ := ⟨nofun, nofun, nofun⟩
  rw [← same] at books
  simp only [Payins.tally, Tally.mk.injEq] at same
  obtain ⟨transfers, received, scanned⟩ := same
  exact ⟨expected, by rw [transfers, received]; rfl, by simp [transfers], by simp [status],
    by simp [status], by simp [status], by simp [status], fun _ => books⟩

/-! ## The ledger -/

/-- What may be assumed of a system of pay-in calls: that its chain grows, that no two router pay-ins
    have one invoice, and that no reconciliation overwrites a confirmed row without having seen the
    payment itself. -/
structure Terms where
  grows : Prop
  distinct : Prop
  timed : Prop

/-- Two accounts settle one invoice of the router. -/
def SameInvoice (d : Deployment) (a a' : Account) : Prop :=
  a.collectionMode = .paymentRouter ∧ a'.collectionMode = .paymentRouter ∧
    ∃ i i', invoiceOf d a = some i ∧ invoiceOf d a' = some i' ∧ sameHex i i' = true

/-- The invariant of the ledger. -/
structure Inv (T : Terms) (d : Deployment) (w : World) : Prop where
  chain : T.grows → ChainOk w.chain
  rows : ∀ id r, w.payins.find? id = some r → RowOk T.grows d w.chain r
  distinct : T.distinct → ∀ id id' r r', w.payins.find? id = some r →
    w.payins.find? id' = some r' → SameInvoice d (account r) (account r') → id = id'

/-- How the world may change while a call is waiting. -/
structure Later (T : Terms) (w w' : World) : Prop where
  chain : T.grows → Advances w.chain w'.chain
  row : ∀ id r, w.payins.find? id = some r → ∃ r', w'.payins.find? id = some r' ∧
    account r' = account r ∧ (T.timed → r.status = .confirmed → r'.status = .confirmed)

section
variable {T : Terms} {d : Deployment} {w w' w₁ w₂ w₃ : World} {id : Uuid} {r : PayInRecord}

/-- The world may stay. -/
lemma Later.refl : Later T w w :=
  ⟨fun _ => .refl, fun _ r found => ⟨r, found, rfl, fun _ h => h⟩⟩

/-- Two changes are one. -/
lemma Later.trans (h₁ : Later T w₁ w₂) (h₂ : Later T w₂ w₃) : Later T w₁ w₃ where
  chain g := (h₁.chain g).trans (h₂.chain g)
  row id r found := by
    obtain ⟨r₂, found₂, same₂, kept₂⟩ := h₁.row id r found
    obtain ⟨r₃, found₃, same₃, kept₃⟩ := h₂.row id r₂ found₂
    exact ⟨r₃, found₃, same₃.trans same₂, fun t conf => kept₃ t (kept₂ t conf)⟩

/-- Where the table stays, the world is as it was, but for the chain. -/
lemma Later.of_same (payins : w'.payins = w.payins) (chain : T.grows → Advances w.chain w'.chain) :
    Later T w w' :=
  ⟨chain, fun _ r found => ⟨r, payins ▸ found, rfl, fun _ h => h⟩⟩

/-- The invariant is one of the pay-ins and the chain. -/
lemma Inv.of_same (payins : w'.payins = w.payins) (chain : T.grows → Advances w.chain w'.chain)
    (inv : Inv T d w) : Inv T d w' where
  chain g := (chain g).ok (inv.chain g)
  rows id r found := (inv.rows id r (payins ▸ found)).advance chain
  distinct t := payins.symm ▸ inv.distinct t

/-- An update that leaves the row in order, and confirmed where it has to stay confirmed. -/
lemma inv_of_update {patch : PayInPatch} {guard : PayInUpdateGuard} (inv : Inv T d w)
    (ok : ∀ r, w.payins.find? id = some r → guard.holds r = true →
      RowOk T.grows d w.chain (patch.applyTo w.now r))
    (kept : T.timed → ∀ r, w.payins.find? id = some r → guard.holds r = true →
      r.status = .confirmed → (patch.applyTo w.now r).status = .confirmed) :
    Inv T d (w.updatePayIn id patch guard).2 ∧ Later T w (w.updatePayIn id patch guard).2 := by
  have find : ∀ id', (w.updatePayIn id patch guard).2.payins.find? id' =
      (w.payins.find? id').map fun r =>
        if decide (id' = id) && guard.holds r then patch.applyTo w.now r else r :=
    fun id' => Table.find?_update ..
  have back : ∀ {id' r'}, (w.updatePayIn id patch guard).2.payins.find? id' = some r' →
      ∃ r, w.payins.find? id' = some r ∧ account r' = account r ∧ (r' = r ∨
        (id' = id ∧ guard.holds r = true ∧ r' = patch.applyTo w.now r)) := fun {id' r'} found' => by
    rw [find] at found'
    obtain ⟨r, found, eq⟩ := Option.map_eq_some_iff.1 found'
    refine ⟨r, found, ?_⟩
    split at eq
    case isTrue hits =>
      rw [Bool.and_eq_true, decide_eq_true_eq] at hits
      exact ⟨eq ▸ rfl, .inr ⟨hits.1, hits.2, eq.symm⟩⟩
    case isFalse => exact ⟨eq ▸ rfl, .inl eq.symm⟩
  refine ⟨⟨inv.chain, fun id' r' found' => ?_, fun t id₁ id₂ r₁ r₂ found₁ found₂ same => ?_⟩,
    ⟨fun _ => .refl, fun id' r found => ?_⟩⟩
  · obtain ⟨r, found, -, rfl | ⟨rfl, holds, rfl⟩⟩ := back found'
    · exact inv.rows id' r' found
    · exact ok r found holds
  · obtain ⟨s₁, found₁, eq₁, -⟩ := back found₁
    obtain ⟨s₂, found₂, eq₂, -⟩ := back found₂
    exact inv.distinct t id₁ id₂ s₁ s₂ found₁ found₂ (eq₁ ▸ eq₂ ▸ same)
  · rw [find, found]
    refine ⟨_, rfl, ?_, fun t conf => ?_⟩
    · dsimp only
      split <;> rfl
    · dsimp only
      split
      case isTrue hits =>
        rw [Bool.and_eq_true, decide_eq_true_eq] at hits
        exact kept t r (hits.1 ▸ found) hits.2 conf
      case isFalse => exact conf

/-- A row that is inserted, with an invoice of its own. -/
lemma inv_of_insert {row : PayInRecord} {t : Table PayInRecord.id} (inv : Inv T d w) (new : New row)
    (inserted : w.payins.insert row = some t)
    (apart : T.distinct → ∀ r ∈ w.payins.rows, ¬SameInvoice d (account row) (account r)) :
    Inv T d { w with payins := t } ∧ Later T w { w with payins := t } := by
  have find := Table.find?_insert inserted
  have fresh := Table.fresh_of_insert inserted
  have symm : ∀ {a a' : Account}, SameInvoice d a a' → SameInvoice d a' a := by
    rintro a a' ⟨mode, mode', i, i', eq, eq', same⟩
    refine ⟨mode', mode, i', i, eq', eq, ?_⟩
    rw [sameHex, beq_iff_eq] at same ⊢
    exact same.symm
  refine ⟨⟨inv.chain, fun id r found => ?_, fun dist id id' r r' found found' same => ?_⟩,
    ⟨fun _ => .refl, fun id r found => ?_⟩⟩
  · change t.find? id = some r at found
    rw [find] at found
    split at found
    case isTrue =>
      cases found
      exact new.ok
    case isFalse => exact inv.rows id r found
  · change t.find? id = some r at found
    change t.find? id' = some r' at found'
    rw [find] at found found'
    split at found
    case isTrue eq =>
      cases found
      split at found'
      case isTrue eq' => exact eq.trans eq'.symm
      case isFalse => exact absurd same (apart dist r' (Table.mem_of_find? found'))
    case isFalse =>
      split at found'
      case isTrue eq' =>
        cases found'
        exact absurd (symm same) (apart dist r (Table.mem_of_find? found))
      case isFalse => exact inv.distinct dist id id' r r' found found' same
  · refine ⟨r, ?_, rfl, fun _ conf => conf⟩
    change t.find? id = some r
    rw [find, if_neg fun eq => ?_]
    · exact found
    · rw [eq, fresh] at found
      cases found

end

end AvaSettle.Payins
