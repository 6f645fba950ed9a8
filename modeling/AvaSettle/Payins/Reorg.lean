import AvaSettle.Model.Steps
import AvaSettle.Payins.Runs

/-!
# Reorganisations

A reconciliation scans the last blocks before the head that was observed last again, since they may have
been replaced. What it finds there is merged with the transfers that are stored, by transaction and log
index. So a stored log that is gone from the chain, or has another index there, stays in the books.
-/

namespace AvaSettle.Payins.Reorg
open Async
open Blockchain
open Data (Table)

/-- The chain is replaced near its tip: it stays up to the overlap before the block. -/
structure Reorganises (n : Nat) (c c' : Chain) : Prop where
  ok : ChainOk c'
  head : n ≤ c'.head + rescanOverlapBlocks
  transfers : ∀ l : TransferLog, l.blockNumber + rescanOverlapBlocks ≤ n →
    (l ∈ c'.transferLogs ↔ l ∈ c.transferLogs)
  invoices : ∀ l : InvoicePaidLog, l.blockNumber + rescanOverlapBlocks ≤ n →
    (l ∈ c'.invoiceLogs ↔ l ∈ c.invoiceLogs)

/-- The transfers are just the matching logs of the chain from the start block to the block. -/
def Exactly (d : Deployment) (c : Chain) (payin : PayInRecord) (n : Nat)
    (transfers : List PayInTransferRecord) : Prop :=
  ∀ x, x ∈ transfers ↔ x ∈ matching d c (account payin) ∧ payin.startBlock ≤ x.blockNumber ∧
    x.blockNumber ≤ n

/-- Every transfer that is stored is still on the chain, in its transaction and under its log
    index. -/
def Stands (d : Deployment) (c : Chain) (payin : PayInRecord) (n : Nat) : Prop :=
  ∀ t ∈ payin.transfers, ∃ x ∈ matching d c (account payin), payin.startBlock ≤ x.blockNumber ∧
    x.blockNumber ≤ n ∧ transferKey x = transferKey t

/-- Every matching log below the block where the scan begins is stored. -/
def Covered (d : Deployment) (c : Chain) (payin : PayInRecord) (n : Nat) : Prop :=
  ∀ x ∈ matching d c (account payin), payin.startBlock ≤ x.blockNumber → x.blockNumber ≤ n →
    x.blockNumber < scanStart d (scanFromBlock payin) n → x ∈ payin.transfers

section
variable {d : Deployment} {c c' : Chain} {a : Account} {payin : PayInRecord} {n : Nat}
  {new : List PayInTransferRecord} {x : PayInTransferRecord}

/-! ## Merging -/

/-- A scan begins at the start block or later. -/
lemma startBlock_le_scanStart (d : Deployment) (payin : PayInRecord) (n : Nat) :
    payin.startBlock ≤ scanStart d (scanFromBlock payin) n := by
  have resume := startBlock_le_scanFromBlock payin
  unfold scanStart
  split
  case isTrue => exact resume
  case isFalse => omega

/-- A merge with what a scan of the chain has found is exact just when nothing that is stored is gone
    from the chain, and what the scan leaves out is stored. -/
lemma exactly_merge_iff (ok : ChainOk c) (once : (payin.transfers.map transferKey).Nodup)
    (found : ∀ x, x ∈ new ↔ x ∈ matching d c (account payin) ∧
      scanStart d (scanFromBlock payin) n ≤ x.blockNumber ∧ x.blockNumber ≤ n) :
    Exactly d c payin n (mergeTransfers payin.transfers new) ↔
      Stands d c payin n ∧ Covered d c payin n := by
  have inj : ∀ x ∈ new, ∀ y ∈ new, transferKey x = transferKey y → x = y := fun x hx y hy =>
    eq_of_transferKey ok ((found x).1 hx).1 ((found y).1 hy).1
  have merged (x : PayInTransferRecord) : x ∈ mergeTransfers payin.transfers new ↔
      x ∈ new ∨ x ∈ payin.transfers ∧ ∀ y ∈ new, transferKey y ≠ transferKey x :=
    perm_mergeTransfers.mem_iff.trans (Data.mem_byKey_append once inj)
  have start := startBlock_le_scanStart d payin n
  constructor
  · intro exactly
    constructor
    · intro t stored
      by_cases replaced : ∃ y ∈ new, transferKey y = transferKey t
      · obtain ⟨y, hy, key⟩ := replaced
        obtain ⟨mem, above, below⟩ := (found y).1 hy
        exact ⟨y, mem, start.trans above, below, key⟩
      · have kept := (merged t).2 (.inr ⟨stored, fun y hy key => replaced ⟨y, hy, key⟩⟩)
        obtain ⟨mem, above, below⟩ := (exactly t).1 kept
        exact ⟨t, mem, above, below, rfl⟩
    · intro x mem above below early
      rcases (merged x).1 ((exactly x).2 ⟨mem, above, below⟩) with again | ⟨stored, -⟩
      · have := ((found x).1 again).2.1
        omega
      · exact stored
  · rintro ⟨stands, covered⟩ x
    rw [merged]
    constructor
    · rintro (mem | ⟨stored, apart⟩)
      · obtain ⟨mem, above, below⟩ := (found x).1 mem
        exact ⟨mem, start.trans above, below⟩
      · obtain ⟨y, mem, above, below, key⟩ := stands x stored
        have early : y.blockNumber < scanStart d (scanFromBlock payin) n := by
          by_contra late
          exact apart y ((found y).2 ⟨mem, by omega, below⟩) key
        obtain rfl := List.inj_on_of_nodup_map once (covered y mem above below early) stored key
        exact ⟨mem, above, below⟩
    · rintro ⟨mem, above, below⟩
      rcases lt_or_ge x.blockNumber (scanStart d (scanFromBlock payin) n) with early | late
      · refine .inr ⟨covered x mem above below early, fun y hy key => ?_⟩
        obtain ⟨mem', above', -⟩ := (found y).1 hy
        obtain rfl := eq_of_transferKey ok mem' mem key
        omega
      · exact .inl ((found x).2 ⟨mem, late, below⟩)

/-- Matching logs up to the overlap stay. -/
lemma Reorganises.mem_matching (reorg : Reorganises n c c')
    (early : x.blockNumber + rescanOverlapBlocks ≤ n) (mem : x ∈ matching d c' a) :
    x ∈ matching d c a := by
  unfold matching at mem ⊢
  split at mem
  case h_1 token _ _ =>
    obtain ⟨l, hl, rfl⟩ := List.mem_map.1 mem
    obtain ⟨log, pays⟩ := List.mem_filter.1 hl
    exact List.mem_map_of_mem (List.mem_filter.2 ⟨(reorg.transfers l early).1 log, pays⟩)
  case h_2 token _ _ =>
    split at mem
    case h_1 router invoiceId _ _ =>
      obtain ⟨l, hl, rfl⟩ := List.mem_map.1 mem
      obtain ⟨log, pays⟩ := List.mem_filter.1 hl
      exact List.mem_map_of_mem (List.mem_filter.2 ⟨(reorg.invoices l early).1 log, pays⟩)
    case h_2 => cases mem
  case h_3 => cases mem

end

/-! ## One reconciliation -/

/-- The pay-ins stay, and the chain grows. -/
structure Grown (w w' : World) : Prop where
  payins : w'.payins = w.payins
  chain : Advances w.chain w'.chain

/-- The call has been told the head. -/
def Told (n : Nat) (h : Hist Api) : Prop := h.findSome? headOf = some n

section
variable {d : Deployment} {cond : Hist Api → World → Event Api → Prop} {id : Uuid}
  {context : RequestContext} {payin : PayInRecord} {n : Nat} {new : List PayInTransferRecord}
  {c : Chain} {w w' w₀ : World}
  {h h' : Hist Api} {e : Event Api}

/-- The assertion outlasts moves of the chain. -/
lemma steady_grown : Steady Advances Grown where
  refl _ := ⟨rfl, .refl⟩
  trans h₁ h₂ := ⟨h₂.payins.trans h₁.payins, h₁.chain.trans h₂.chain⟩
  env move := ⟨move.payins, move.chain⟩

/-- The operation does not write to the pay-ins. -/
def Elsewhere (c : Call) : Prop := decide (c.writes = some .payins) = false

/-- An operation elsewhere lets the pay-ins stay. -/
lemma grown_exec {c : Call} {b : c.Res} (calm : Elsewhere c)
    (run : World.exec c w = some (b, w')) : Grown w w' := by
  have frame := World.exec_frame run
  exact ⟨frame.payins (of_decide_eq_false calm), frame.chain ▸ .refl⟩

/-- The logs given for blocks at or below the head. -/
structure Scanned (w₀ : World) (payin : PayInRecord) (d : Deployment) (n start k : Nat)
    (records : List PayInTransferRecord) (w : World) (h : Hist Api) : Prop where
  grown : Grown w₀ w
  told : Told n h
  bound : k ≤ n + 1
  exactly : ∀ x, x ∈ records ↔
    x ∈ matching d w₀.chain (account payin) ∧ start ≤ x.blockNumber ∧ x.blockNumber < k

/-- Matching logs at or below the head of a chain are those of the grown chain. -/
lemma mem_matching_grown {a : Account} {x : PayInTransferRecord} (grown : Grown w w')
    (le : x.blockNumber ≤ w.chain.head) :
    x ∈ matching d w'.chain a ↔ x ∈ matching d w.chain a :=
  ⟨fun mem => grown.chain.mem_matching_of_le mem le, grown.chain.mem_matching⟩

/-- One more chunk. -/
lemma Scanned.chunk {start k t : Nat} {records chunk : List PayInTransferRecord}
    (head : n ≤ w₀.chain.head) (scanned : Scanned w₀ payin d n start k records w h) (le : k ≤ t)
    (bound : t ≤ n) (after : start ≤ k) (grown : Grown w w')
    (exactly : ∀ x, x ∈ chunk ↔ x ∈ matching d w'.chain (account payin) ∧
      k ≤ x.blockNumber ∧ x.blockNumber ≤ t) :
    Scanned w₀ payin d n start (t + 1) (records ++ chunk) w' (h ++ [e]) where
  grown := steady_grown.trans scanned.grown grown
  told := Data.findSome?_concat_of_some scanned.told
  bound := by omega
  exactly x := by
    have grown := steady_grown.trans scanned.grown grown
    rw [List.mem_append, scanned.exactly, exactly]
    constructor
    · rintro (⟨mem, above, below⟩ | ⟨mem, above, below⟩)
      · exact ⟨mem, above, by omega⟩
      · exact ⟨(mem_matching_grown grown (by omega)).1 mem, by omega, by omega⟩
    · rintro ⟨mem, above, below⟩
      rcases lt_or_ge x.blockNumber k with lt | ge
      · exact .inl ⟨mem, above, lt⟩
      · exact .inr ⟨(mem_matching_grown grown (by omega)).2 mem, ge, by omega⟩

/-- The rule of `paginateLogs`: an invariant of the chunks read so far, up to the next block. -/
lemma wp_paginateFrom {T : Type} {fetchChunk : Nat → Nat → Method (List T)} {size : ℕ+}
    {toBlock : Nat} {I : Nat → List T → World → Hist Api → Prop}
    (fetch : ∀ f t results w h, f ≤ t → t ≤ toBlock → I f results w h →
      (payInLedger d Advances cond).wp (payInLedger d Advances cond).Alone (fetchChunk f t)
        (fun r w h => match r with
          | .ok chunk => I (t + 1) (results ++ chunk) w h
          | .error _ => True) w h)
    {fuel k : Nat} {results : List T} (enough : toBlock + 1 - k ≤ fuel)
    (inv : I (min k (toBlock + 1)) results w h) :
    (payInLedger d Advances cond).wp (payInLedger d Advances cond).Alone
      (paginateFrom fetchChunk size toBlock fuel k results) (fun r w h => match r with
        | .ok results => I (toBlock + 1) results w h
        | .error _ => True) w h := by
  induction fuel generalizing w h k results with
  | zero =>
    rw [min_eq_right (by omega)] at inv
    exact inv
  | succ fuel ih =>
    unfold paginateFrom
    split
    case isFalse past =>
      rw [min_eq_right (by omega)] at inv
      exact inv
    case isTrue more =>
      obtain ⟨upper, lower, next⟩ := chunkEnd_bounds more
      rw [min_eq_left (by omega)] at inv
      refine Machine.wp_bind_of (fetch _ _ _ _ _ lower upper inv) (fun chunk w h inv => ?_)
        fun _ _ _ _ => trivial
      exact ih (by have := size.pos; omega) (next ▸ inv)

/-- A scan of the whole range. -/
abbrev Found (w₀ : World) (payin : PayInRecord) (d : Deployment) (n : Nat) :=
  Scanned w₀ payin d n (scanStart d (scanFromBlock payin) n) (n + 1)

/-- Where the scan would begin above the head, there is nothing to find. -/
lemma found_nil (told : Told n h) (above : n < scanStart d (scanFromBlock payin) n) :
    Found w payin d n [] w h where
  grown := steady_grown.refl w
  told := told
  bound := le_rfl
  exactly x := by
    constructor
    · intro mem
      cases mem
    · rintro ⟨-, ge, lt⟩
      omega

/-- What a request of a chunk leaves, whose answer `g` turns into records. -/
def Chunked {α : Type} (w₀ : World) (payin : PayInRecord) (d : Deployment) (n start t : Nat)
    (records : List PayInTransferRecord) (g : α → List PayInTransferRecord) : End Api World α
  | .ok chunk, w, h => Scanned w₀ payin d n start (t + 1) (records ++ g chunk) w h
  | .error _, _, _ => True

/-- The rule of the scans of both rails: each chunk is answered by the matching logs of its blocks. -/
lemma wp_paginateLogs {T : Type} {g : T → PayInTransferRecord} {fetch : Nat → Nat → Method (List T)}
    (told : Told n h)
    (answered : ∀ {start k t records w₁ h₁}, Scanned w payin d n start k records w₁ h₁ → k ≤ t → t ≤ n →
      start ≤ k → (payInLedger d Advances cond).wp (payInLedger d Advances cond).Alone (fetch k t)
        (Chunked w payin d n start t records (List.map g)) w₁ h₁) :
    (payInLedger d Advances cond).wp (payInLedger d Advances cond).Alone
      (paginateLogs (scanStart d (scanFromBlock payin) n) n fetch) (fun r w₁ h₁ => match r with
        | .ok logs => Found w payin d n (logs.map g) w₁ h₁
        | .error _ => True) w h := by
  unfold paginateLogs
  split
  case isTrue above => exact found_nil told above
  case isFalse within =>
    refine Machine.wp_mono (fun r w₁ h₁ post => ?_) (wp_paginateFrom
      (I := fun k results w₁ h₁ => scanStart d (scanFromBlock payin) n ≤ k ∧
        Scanned w payin d n (scanStart d (scanFromBlock payin) n) k (results.map g) w₁ h₁)
      (fun f t results w₁ h₁ le bound scanned => ?_) le_rfl
      ⟨?_, steady_grown.refl w, told, ?_, fun x => ?_⟩)
    · cases r with
      | ok logs => exact post.2
      | error e => trivial
    · refine Machine.wp_mono (fun r w₂ h₂ post => ?_) (answered scanned.2 le bound scanned.1)
      cases r with
      | ok chunk => exact ⟨scanned.1.trans (by omega), List.map_append ▸ post⟩
      | error e => trivial
    · omega
    · omega
    · constructor
      · intro mem
        cases mem
      · rintro ⟨-, ge, lt⟩
        omega

/-- A chunk of logs is requested. -/
lemma wp_fetch {c : Call} {g : c.Res → List PayInTransferRecord} {start k t : Nat}
    {records : List PayInTransferRecord} (calm : Elsewhere c)
    (head : n ≤ w₀.chain.head) (scanned : Scanned w₀ payin d n start k records w h) (le : k ≤ t)
    (bound : t ≤ n) (after : start ≤ k)
    (answer : ∀ {w b w'}, World.exec c w = some (b, w') → ∀ x, x ∈ g b ↔
      x ∈ matching d w'.chain (account payin) ∧ k ≤ x.blockNumber ∧ x.blockNumber ≤ t) :
    (payInLedger d Advances cond).wp (payInLedger d Advances cond).Alone (request c)
      (Chunked w₀ payin d n start t records g) w h :=
  steady_grown.wp_request (grown_exec calm) (fun _ _ _ _ => trivial)
    fun _ _ _ _ grown run => scanned.chunk head le bound after grown (answer run)

/-- `findPayInTransfers`. -/
lemma wp_findPayInTransfers (told : Told n h) (head : n ≤ w.chain.head) :
    (payInLedger d Advances cond).wp (payInLedger d Advances cond).Alone
      (findPayInTransfers d payin n) (fun r w₁ h₁ => match r with
        | .ok new => Found w payin d n new w₁ h₁
        | .error _ => True) w h := by
  unfold findPayInTransfers
  split
  case h_1 mode =>
    refine Machine.wp_bind (Machine.wp_orThrow (fun invoiceRef ref => ?_) fun _ => trivial)
    refine Machine.wp_bind (Machine.wp_bind (Machine.wp_orThrow (fun router configured => ?_)
      fun _ => trivial))
    refine Machine.wp_bind (Machine.wp_ofExcept.2 ?_)
    cases asset : requireAsset d payin.asset with
    | error e => trivial
    | ok assetConfig =>
      refine Machine.wp_bind (Machine.wp_ofExcept.2 ?_)
      cases computed : computeRouterInvoiceId d invoiceRef assetConfig.address
          payin.expectedAmountAtomic with
      | error e => trivial
      | ok invoiceId =>
        have counts := matching_paymentRouter mode ref configured asset computed
        dsimp only
        split
        case isTrue above => exact found_nil told above
        case isFalse =>
          refine Machine.wp_bind (Machine.wp_mono (fun r w₁ h₁ post => ?_) (wp_paginateLogs
            (g := routerTransfer d payin.asset) told fun scanned le bound after => ?_))
          · cases r with
            | error e => trivial
            | ok logs =>
              change Found w payin d n _ w₁ h₁
              rw [List.map_map, ← (of_requireAsset asset).2]
              exact post
          · refine wp_fetch (c := .getInvoicePaidLogs router invoiceId assetConfig.address _ _)
              (g := List.map (routerTransfer d payin.asset)) rfl head scanned le bound after
              fun run x => ?_
            cases run
            rw [counts]
            exact mem_chunk fun _ => rfl
  case h_2 mode =>
    refine Machine.wp_bind (Machine.wp_ofExcept.2 ?_)
    cases asset : requireAsset d payin.asset with
    | error e => trivial
    | ok assetConfig =>
      have counts := matching_derivedAddress mode asset
      dsimp only
      split
      case isTrue above => exact found_nil told above
      case isFalse =>
        refine Machine.wp_bind (Machine.wp_mono (fun r w₁ h₁ post => ?_) (wp_paginateLogs
          (g := depositTransfer d payin.asset) told fun scanned le bound after => ?_))
        · cases r with
          | error e => trivial
          | ok logs =>
            change Found w payin d n _ w₁ h₁
            rw [← (of_requireAsset asset).2]
            exact post
        · refine wp_fetch (c := .getTransferLogs assetConfig.address payin.depositAddress _ _)
            (g := List.map (depositTransfer d payin.asset)) rfl head scanned le bound after
            fun run x => ?_
          cases run
          rw [counts]
          exact mem_chunk fun _ => rfl

/-- What has been scanned stays as the chain grows. -/
lemma Scanned.move {start k : Nat} {records : List PayInTransferRecord}
    (scanned : Scanned w₀ payin d n start k records w h) (grown : Grown w w') (told : Told n h') :
    Scanned w₀ payin d n start k records w' h' :=
  ⟨steady_grown.trans scanned.grown grown, told, scanned.bound, scanned.exactly⟩

/-- The row has been written with the merge of a scan. -/
structure Merged (c : Chain) (d : Deployment) (id : Uuid) (payin : PayInRecord) (n : Nat) (w : World)
    (h : Hist Api) : Prop where
  told : Told n h
  since : Advances c w.chain
  ok : ChainOk w.chain
  head : n ≤ w.chain.head
  row : ∃ new r, w.payins.find? id = some r ∧ r.lastScannedBlock = some n ∧
    r.transfers = mergeTransfers payin.transfers new ∧
    r.receivedAmountAtomic = totalReceivedAtomic r.transfers ∧
    ∀ x, x ∈ new ↔ x ∈ matching d w.chain (account payin) ∧
      scanStart d (scanFromBlock payin) n ≤ x.blockNumber ∧ x.blockNumber ≤ n

/-- The merged row stays as the chain grows. -/
lemma Merged.move (merged : Merged c d id payin n w h) (grown : Grown w w') :
    Merged c d id payin n w' (h ++ [e]) where
  told := Data.findSome?_concat_of_some merged.told
  since := merged.since.trans grown.chain
  ok := grown.chain.ok merged.ok
  head := merged.head.trans grown.chain.head
  row := by
    obtain ⟨new, r, found, last, transfers, total, exactly⟩ := merged.row
    refine ⟨new, r, grown.payins ▸ found, last, transfers, total, fun x => ?_⟩
    rw [exactly]
    have head := merged.head
    constructor
    · rintro ⟨mem, above, below⟩
      exact ⟨(mem_matching_grown grown (by omega)).2 mem, above, below⟩
    · rintro ⟨mem, above, below⟩
      exact ⟨(mem_matching_grown grown (by omega)).1 mem, above, below⟩

/-- What a call leaves that has returned. -/
def Ends (c : Chain) (d : Deployment) (id : Uuid) (payin : PayInRecord) {α : Type} : End Api World α
  | .ok _, w, h => ∃ n, Merged c d id payin n w h
  | .error _, _, _ => True

/-- A webhook does not write to the pay-ins. -/
lemma uses_enqueue {clientId : Option String} {event : String} {payload : List (String × Json)} :
    (enqueue clientId event payload).Uses Elsewhere fun _ => True := by
  unfold enqueue
  split
  case h_1 => exact Prog.uses_pure _
  case h_2 => exact Prog.uses_awaitOr (S := Api) rfl

/-- What follows the write does not write to the pay-ins. -/
lemma wp_after {α : Type} {p : Method α}
    (uses : p.Uses Elsewhere fun _ => True)
    (merged : Merged c d id payin n w h) :
    (payInLedger d Advances cond).wp (payInLedger d Advances cond).Alone p
      (fun _ => Merged c d id payin n) w h :=
  Machine.wp_uses (fun _ _ _ calm merged => steady_grown.leads (grown_exec calm)
    fun _ _ grown => merged.move grown) uses merged

/-- A step after the write. -/
lemma wp_after_bind {α β : Type} {p : Method α} {f : α → Method β}
    (uses : p.Uses Elsewhere fun _ => True)
    (merged : Merged c d id payin n w h)
    (next : ∀ b w h, Merged c d id payin n w h →
      (payInLedger d Advances cond).wp (payInLedger d Advances cond).Alone (f b) (Ends c d id payin) w h) :
    (payInLedger d Advances cond).wp (payInLedger d Advances cond).Alone (p >>= f)
      (Ends c d id payin) w h :=
  Machine.wp_bind_of (wp_after uses merged) next fun _ _ _ _ => trivial

/-- What follows the write leaves the merged row. -/
lemma wp_announceConfirmed {confirmed : Bool} {updated : PayInRecord}
    (merged : Merged c d id payin n w h) :
    (payInLedger d Advances cond).wp (payInLedger d Advances cond).Alone
      (announceConfirmed d id context payin confirmed updated) (fun _ => Merged c d id payin n) w h := by
  unfold announceConfirmed
  split
  case isFalse => exact merged
  case isTrue =>
    refine Machine.wp_bind_of (wp_after uses_enqueue merged) (fun _ w h merged => ?_)
      fun _ _ _ merged => merged
    split
    case isFalse => exact merged
    case isTrue => exact merged

/-- The unguarded write. -/
lemma merged_update {expired : Bool} {now : Timestamp} {b : Option PayInRecord}
    (since : Advances c w₀.chain) (ok : ChainOk w₀.chain) (head : n ≤ w₀.chain.head)
    (row : w₀.payins.find? id = some payin) (found : Found w₀ payin d n new w h)
    (run : World.exec (.payInUpdate id (reconcilePatch d payin (mergeTransfers payin.transfers new) n
      (reconciledStatus d payin (mergeTransfers payin.transfers new) n expired) now) {}) w =
        some (b, w')) : Merged c d id payin n w' (h ++ [e]) where
  told := Data.findSome?_concat_of_some found.told
  since := by
    cases run
    exact since.trans found.grown.chain
  ok := by
    cases run
    exact found.grown.chain.ok ok
  head := by
    cases run
    exact head.trans found.grown.chain.head
  row := by
    cases run
    have there : w.payins.find? id = some payin := found.grown.payins ▸ row
    refine ⟨new, (reconcilePatch d payin (mergeTransfers payin.transfers new) n
      (reconciledStatus d payin (mergeTransfers payin.transfers new) n expired) now).applyTo w.now
        payin, ?_, rfl, rfl, rfl, fun x => ?_⟩
    · exact (Table.find?_update w.payins id _ _ id).trans (by
        rw [there, Option.map_some, if_pos (by simp [PayInUpdateGuard.holds])]
        rfl)
    · rw [found.exactly]
      constructor
      · rintro ⟨mem, above, below⟩
        exact ⟨(mem_matching_grown found.grown (by omega)).2 mem, above, by omega⟩
      · rintro ⟨mem, above, below⟩
        exact ⟨(mem_matching_grown found.grown (by omega)).1 mem, above, by omega⟩

/-- The write stores the merge. -/
lemma wp_writeReconciled (since : Advances c w₀.chain) (ok : ChainOk w₀.chain)
    (head : n ≤ w₀.chain.head) (row : w₀.payins.find? id = some payin)
    (found : Found w₀ payin d n new w h) :
    (payInLedger d Advances cond).wp (payInLedger d Advances cond).Alone
      (writeReconciled d id context payin n (mergeTransfers payin.transfers new))
      (Ends c d id payin) w h := by
  refine steady_grown.wp (c := .clock) (grown_exec rfl) (fun _ _ _ _ => trivial)
    fun _ now w _ grown _ => ?_
  have found : Found w₀ payin d n new w (h ++ [⟨.clock, .done now⟩]) :=
    found.move grown (Data.findSome?_concat_of_some found.told)
  refine Machine.wp_bind_of (P := fun r w h => ∀ expired, r = .ok expired →
    Found w₀ payin d n new w h) ?_ (fun expired w h found => ?_) fun _ _ _ _ => trivial
  · unfold readExpired
    split
    case h_1 => exact fun _ _ => found
    case h_2 =>
      exact steady_grown.wp (c := .clock) (grown_exec rfl) (fun _ _ _ _ _ eq => by cases eq)
        fun _ _ _ _ grown _ _ _ => found.move grown (Data.findSome?_concat_of_some found.told)
  · replace found := found expired rfl
    refine Machine.wp_bind (Machine.wp_await fun w₁ o w₂ move reply _ => ?_)
    have grown := steady_grown.of_alone move
    cases o with
    | refused e => trivial
    | lost b e => trivial
    | done b =>
      have merged := merged_update (e := ⟨.payInUpdate id _ {}, .done b⟩) since ok head row
        (found.move grown found.told) reply
      refine Machine.wp_bind (Machine.wp_orThrow (fun updated _ => ?_) fun _ => trivial)
      refine wp_after_bind (Prog.uses_await rfl) merged fun _ w h merged => ?_
      refine wp_after_bind ?_ merged fun _ w h merged => ?_
      · unfold announceDetected
        split
        case isTrue => exact uses_enqueue
        case isFalse => exact Prog.uses_pure _
      · refine Machine.wp_bind_of (wp_announceConfirmed merged) (fun _ w h merged => ?_)
          fun _ _ _ _ => trivial
        exact wp_after_bind (Prog.uses_await rfl) merged fun _ w h merged => ⟨n, merged⟩

/-- A reconciliation of a row that is not confirmed. -/
lemma wp_reconcilePayIn (ok : ChainOk w.chain) (row : w.payins.find? id = some payin)
    (pending : payin.status ≠ .confirmed) :
    (payInLedger d Advances cond).wp (payInLedger d Advances cond).Alone (reconcilePayIn d id context)
      (Ends w.chain d id payin) w [] := by
  refine Machine.wp_bind (steady_grown.wp (c := .payInFindById id context.clientId) (grown_exec rfl)
    (fun _ _ _ _ => trivial) fun w₁ b w₂ waiting grown run => ?_)
  have read := (Prod.mk.inj (Option.some.inj run)).1
  refine Machine.wp_orThrow (fun payin' eq => ?_) fun _ => trivial
  rw [eq] at read
  obtain ⟨there, -⟩ := Option.filter_eq_some_iff.1 read
  rw [waiting.payins, row] at there
  obtain rfl := Option.some.inj there
  dsimp only
  rw [if_neg pending]
  refine steady_grown.wp (c := .getBlockNumber) (grown_exec rfl) (fun _ _ _ _ => trivial)
    fun w₃ n w₄ waiting later run => ?_
  have told : Told n [⟨.payInFindById id context.clientId, .done b⟩, ⟨.getBlockNumber, .done n⟩] := rfl
  have grown := steady_grown.trans grown later
  have ok := grown.chain.ok ok
  have head : n ≤ w₄.chain.head := by
    cases run
    exact ok.reported
  exact Machine.wp_bind_of (wp_findPayInTransfers told head) (fun new w h found =>
    wp_writeReconciled grown.chain ok head (grown.payins ▸ row) found) fun _ _ _ _ => trivial

end

/-! ## Histories -/

section
variable {d : Deployment} {c : Chain} {now : Timestamp} {nextUuid : Uuid} {nextBytes32 : Hex}
  {s : Sys Api World} {id : Uuid} {r : PayInRecord}

/-- Rows are in order in every state that is reached while the chain grows. -/
lemma rowOk_of_reachable (ok : ChainOk c)
    (reach : (payInLedger d Advances fun _ _ _ => True).Reachable
      (.fresh c now nextUuid nextBytes32) s)
    (found : s.world.payins.find? id = some r) : RowOk True d s.world.chain r := by
  have sound : (growingSetting d).spec.Sound := sound fun _ h => h
  have init : (growingSetting d).spec.inv (.fresh c now nextUuid nextBytes32) 0 :=
    inv_fresh fun _ => ok
  obtain ⟨_, inv⟩ := Spec.inv_of_reachable sound init reach
  exact inv.rows id r found

/-- What is not scanned again is deeper than the overlap. -/
lemma early_of_lt_scanFromBlock {payin : PayInRecord} {block n : Nat}
    (last : payin.lastScannedBlock = some n) (start : payin.startBlock ≤ block)
    (lt : block < scanFromBlock payin) : block + rescanOverlapBlocks ≤ n := by
  rw [scanFromBlock, last] at lt
  dsimp only [rescanOverlapBlocks] at lt ⊢
  split at lt <;> omega

end

/-- A pay-in whose chain is reorganised within the overlap. The next reconciliation leaves it with
    just the matching logs of the new chain, from its start block to the head that was observed, if
    and only if no log that it had stored has vanished or been renumbered. (Where the start block is
    zero, so that a scan can begin at a look-back, it also has to have stored what the scan leaves
    out.) -/
theorem exactly_iff_stands {d : Deployment} {c : Chain} {now : Timestamp} {nextUuid : Uuid}
    {nextBytes32 : Hex} {s : Sys Api World} {w w' : World} {id : Uuid} {context : RequestContext}
    {r payin : PayInRecord} {observed : Nat} {response : PayInResponse} {h : Hist Api}
    (ok : ChainOk c)
    (reach : (payInLedger d Advances fun _ _ _ => True).Reachable
      (.fresh c now nextUuid nextBytes32) s)
    (before : s.world.payins.find? id = some r) (last : r.lastScannedBlock = some observed)
    (reorg : Reorganises observed s.world.chain w.chain)
    (row : w.payins.find? id = some payin) (kept : account payin = account r ∧ tally payin = tally r)
    (pending : payin.status ≠ .confirmed)
    (run : (payInLedger d Advances fun _ _ _ => True).Runs
      (payInLedger d Advances fun _ _ _ => True).Alone (reconcilePayIn d id context) w []
        (.ok response) w' h) :
    ∃ n r', h.findSome? headOf = some n ∧ w'.payins.find? id = some r' ∧
      r'.lastScannedBlock = some n ∧ r'.receivedAmountAtomic = totalReceivedAtomic r'.transfers ∧
      (r'.transfers.map transferKey).Nodup ∧
      (Exactly d w'.chain payin n r'.transfers ↔
        Stands d w'.chain payin n ∧ (payin.startBlock = 0 → Covered d w'.chain payin n)) := by
  obtain ⟨n, told, grows, ok', -, new, r', found, last', transfers, total, exactly⟩ :=
    Machine.wp_sound run (wp_reconcilePayIn reorg.ok row pending)
  have stored := rowOk_of_reachable ok reach before
  obtain ⟨same, books⟩ := kept
  have stored' : payin.transfers = r.transfers := congrArg Tally.transfers books
  have covered (pos : payin.startBlock ≠ 0) : Covered d w'.chain payin n := by
    intro x mem above below early
    have start := startBlock_le_scanFromBlock payin
    rw [scanStart_of_pos (by omega)] at early
    have old := early_of_lt_scanFromBlock ((congrArg Tally.lastScannedBlock books).trans last) above early
    have head := reorg.head
    have before := reorg.mem_matching old (grows.mem_matching_of_le mem (by omega))
    have startBlock : payin.startBlock = r.startBlock := congrArg Account.startBlock same
    rw [same] at before
    rw [stored']
    exact (stored.books trivial).complete (show 0 < r.startBlock by omega) observed last x before
      (show r.startBlock ≤ x.blockNumber by omega) (by omega)
  refine ⟨n, r', told, found, last', total, transfers ▸ nodup_mergeTransfers, ?_⟩
  rw [transfers, exactly_merge_iff ok' (stored' ▸ stored.once) exactly]
  refine and_congr_right fun _ => ⟨fun all _ => all, fun all => ?_⟩
  by_cases zero : payin.startBlock = 0
  · exact all zero
  · exact covered zero

/-! ## Concrete reorganisations -/

/-- Half a USDC arrives at the deposit address. -/
def halfTransfer : TransferLog := { sampleTransfer with value := 500000 }

/-- The schedule on which a derived pay-in is created, paid in part and reconciled. -/
def underpaid : List (Choice Api World) :=
  created .derivedAddress 7 ++ .env (arrive [halfTransfer] []) :: .enter sampleReconcile ::
    Choice.steps 1 8

/-- The chain holds other transfers. -/
def replace (logs : List TransferLog) (w : World) : World :=
  { w with chain := { w.chain with transferLogs := logs } }

/-- The row and the chain when the row has been reconciled first. -/
def isSetup (w : World) (r : PayInRecord) : Bool :=
  decide (r.lastScannedBlock = some 4 ∧ r.status ≠ .confirmed ∧ r.startBlock = 1) &&
    decide (r.collectionMode = .derivedAddress ∧ r.asset = .usdc ∧ r.depositAddress = sampleDeposit) &&
      decide (w.chain.head = 4 ∧ w.chain.reportedHead = 4 ∧ w.chain.invoiceLogs = [])

/-- A second reconciliation, after the transfers have been replaced. -/
def reorganised (logs : List TransferLog) (P : PayInRecord → World → Hist Api → Bool) : Bool :=
  ((quick Advances (Entry .sample) fun _ _ _ => True).run Machine.always underpaid
    ⟨.sample, []⟩).any fun s => (s.world.payins.find? World.sampleId).any fun r =>
      isSetup s.world r &&
        match (quick Advances (Entry .sample) fun _ _ _ => True).play Machine.always
          (reconcilePayIn .sample World.sampleId .sample) (.replicate 8 .done)
          (replace logs s.world) [] with
        | some (.ok _, w', h) => P r w' h
        | _ => false

/-- Replacing the logs above the head is a reorganisation within the overlap. -/
lemma reorganises_replace {w : World} {r : PayInRecord} {logs : List TransferLog}
    (setup : isSetup w r = true) (nodup : (logs.map transferPlace).Nodup) :
    Reorganises 4 w.chain (replace logs w).chain := by
  simp only [isSetup, Bool.and_eq_true, decide_eq_true_eq] at setup
  obtain ⟨-, head, reported, none⟩ := setup
  refine ⟨⟨?_, ?_⟩, ?_, fun l early => ?_, fun l early => ?_⟩
  · simpa [places, replace, none] using nodup
  · simp [replace, head, reported]
  · simp [replace, head]
  · exact absurd early (by simp [rescanOverlapBlocks])
  · exact absurd early (by simp [rescanOverlapBlocks])

/-- What a concrete reorganisation is evaluated to is one. -/
lemma exists_reorganised (logs : List TransferLog) (P : PayInRecord → World → Hist Api → Bool)
    (nodup : (logs.map transferPlace).Nodup) (res : reorganised logs P = true) :
    ∃ s r w w' response h,
      (payInLedger .sample Advances fun _ _ _ => True).Reachable .sample s ∧
      s.world.payins.find? World.sampleId = some r ∧ isSetup s.world r = true ∧
      Reorganises 4 s.world.chain w.chain ∧ w.payins = s.world.payins ∧
      (payInLedger .sample Advances fun _ _ _ => True).Runs
        (payInLedger .sample Advances fun _ _ _ => True).Alone
        (reconcilePayIn .sample World.sampleId .sample) w [] (.ok response) w' h ∧
      P r w' h = true := by
  obtain ⟨s, reach, res⟩ := reachable_of_quick (fun _ _ _ => True) Machine.always underpaid
    (fun _ _ _ _ => trivial) (by
      simp only [underpaid, List.forall_mem_cons, List.forall_mem_append]
      exact ⟨legal_created, env_arrive, .reconcilePayIn, Choice.legal_steps⟩) _ res
  obtain ⟨r, found, res⟩ := (Option.any_eq_true _ _).1 res
  obtain ⟨setup, res⟩ := Bool.and_eq_true_iff.1 res
  rw [quick_eq] at res
  split at res
  case h_1 response w' h played =>
    exact ⟨s, r, replace logs s.world, w', response, h, reach, found, setup,
      reorganises_replace setup nodup, rfl,
      Machine.runs_of_play (fun _ _ _ _ => trivial) (fun _ _ => .refl) played, res⟩
  case h_2 => cases res

/-- The matching transfers of the concrete pay-in. -/
lemma matching_of_setup {w : World} {r : PayInRecord} {c : Chain} (setup : isSetup w r = true) :
    matching .sample c (account r) =
      (c.transferLogs.filter (isTransfer sampleToken sampleDeposit)).map
        (depositTransfer .sample .usdc) := by
  simp only [isSetup, Bool.and_eq_true, decide_eq_true_eq] at setup
  obtain ⟨⟨-, mode, asset, address⟩, -⟩ := setup
  rw [← asset, ← address]
  exact matching_derivedAddress mode (show requireAsset .sample r.asset = .ok
    ⟨sampleToken, 6⟩ by rw [asset]; rfl) c

/-- The transaction of the transfer is included again, one block later: it is counted once. -/
theorem exactly_of_included : ∃ s r w w' response h n r',
    (payInLedger .sample Advances fun _ _ _ => True).Reachable .sample s ∧
    s.world.payins.find? World.sampleId = some r ∧
    Reorganises 4 s.world.chain w.chain ∧
    (payInLedger .sample Advances fun _ _ _ => True).Runs
      (payInLedger .sample Advances fun _ _ _ => True).Alone
      (reconcilePayIn .sample World.sampleId .sample) w [] (.ok response) w' h ∧
    w'.payins.find? World.sampleId = some r' ∧ Exactly .sample w'.chain r n r'.transfers := by
  obtain ⟨s, r, w, w', response, h, reach, found, setup, reorg, same, run, res⟩ :=
    exists_reorganised [{ halfTransfer with blockNumber := 3 }]
      (fun r w' h => decide (h.findSome? headOf = some 4) &&
        (r.transfers.all fun t => t.hash = "0x02" ∧ t.logIndex = some 0) &&
        decide (w'.chain.transferLogs = [{ halfTransfer with blockNumber := 3 }]))
      (by decide) (by decide +kernel)
  simp only [Bool.and_eq_true, decide_eq_true_eq, List.all_eq_true] at res
  obtain ⟨⟨told, stored⟩, logs⟩ := res
  have counts := matching_of_setup (c := w'.chain) setup
  simp only [isSetup, Bool.and_eq_true, decide_eq_true_eq] at setup
  obtain ⟨⟨⟨last, pending, start⟩, -⟩, -⟩ := setup
  obtain ⟨n, r', told', found', -, -, -, iff⟩ := exactly_iff_stands chainOk_sample reach found last
    reorg (same ▸ found) ⟨rfl, rfl⟩ pending run
  obtain rfl := Option.some.inj (told.symm.trans told')
  refine ⟨s, r, w, w', response, h, 4, r', reach, found, reorg, run, found', iff.2 ⟨fun t mem => ?_,
    fun zero => absurd (start.symm.trans zero) (by decide)⟩⟩
  refine ⟨depositTransfer .sample .usdc { halfTransfer with blockNumber := 3 }, ?_, ?_, ?_, ?_⟩
  · rw [counts, logs]
    simp [isTransfer, sameHex, halfTransfer, sampleTransfer]
  · rw [start]
    decide
  · decide
  · rw [transferKey_of_some (stored t mem).2, (stored t mem).1]
    rfl

/-- The transfer vanishes: it stays in the books, and the pay-in is credited with an amount that no
    log of the chain backs. -/
theorem not_exactly_of_vanished : ∃ s r w w' response h r',
    (payInLedger .sample Advances fun _ _ _ => True).Reachable .sample s ∧
    s.world.payins.find? World.sampleId = some r ∧ r.lastScannedBlock = some 4 ∧
    r.status ≠ .confirmed ∧ Reorganises 4 s.world.chain w.chain ∧ w.payins = s.world.payins ∧
    (payInLedger .sample Advances fun _ _ _ => True).Runs
      (payInLedger .sample Advances fun _ _ _ => True).Alone
      (reconcilePayIn .sample World.sampleId .sample) w [] (.ok response) w' h ∧
    w'.payins.find? World.sampleId = some r' ∧ matching .sample w'.chain (account r) = [] ∧
    r'.receivedAmountAtomic = 500000 ∧ ∀ n, ¬Exactly .sample w'.chain r n r'.transfers := by
  obtain ⟨s, r, w, w', response, h, reach, found, setup, reorg, same, run, res⟩ :=
    exists_reorganised []
      (fun _ w' _ => w'.chain.transferLogs.isEmpty &&
        (w'.payins.find? World.sampleId).any fun r' : PayInRecord =>
          decide (r'.receivedAmountAtomic = 500000) && !r'.transfers.isEmpty)
      (by decide) (by decide +kernel)
  obtain ⟨none, res⟩ := Bool.and_eq_true_iff.1 res
  obtain ⟨r', found', res⟩ := (Option.any_eq_true _ _).1 res
  obtain ⟨received, some⟩ := Bool.and_eq_true_iff.1 res
  have counts := matching_of_setup (c := w'.chain) setup
  rw [List.isEmpty_iff.1 none, List.filter_nil, List.map_nil] at counts
  simp only [isSetup, Bool.and_eq_true, decide_eq_true_eq] at setup
  obtain ⟨⟨⟨last, pending, -⟩, -⟩, -⟩ := setup
  refine ⟨s, r, w, w', response, h, r', reach, found, last, pending, reorg, same, run, found', counts,
    of_decide_eq_true received, fun n exactly => ?_⟩
  cases eq : r'.transfers with
  | nil => simp [eq] at some
  | cons t ts =>
    obtain ⟨mem, -⟩ := (exactly t).1 (eq ▸ List.mem_cons_self)
    rw [counts] at mem
    cases mem

end AvaSettle.Payins.Reorg
