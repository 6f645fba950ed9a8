import AvaSettle.Payins.Rules

/-!
# Pay-in calls: the scan

A reconciliation reads a row, asks for the head, and reads the logs of its account chunk by chunk.
What it has been given after each chunk is just the matching logs of the blocks so far, against every
later chain, since new logs are above every head that a node has reported.
-/

namespace AvaSettle.Payins
open Async
open Data (Table)
open Blockchain

section
variable {S : Setting} {u : Unit} {w w' : World} {h : Hist Api} {e : Event Api} {id : Uuid}
  {payin : PayInRecord} {n : Nat}

/-! ## The copy of the row -/

/-- What a row that was read says about the world afterwards. -/
structure Copy (S : Setting) (id : Uuid) (payin : PayInRecord) (w : World) : Prop where
  row : ∃ r, w.payins.find? id = some r ∧ account r = account payin
  ok : RowOk S.terms.grows S.deployment w.chain payin

/-- The row that has been read stays a copy. -/
lemma Copy.later (l : Later S.terms w w') (copy : Copy S id payin w) : Copy S id payin w' where
  row := by
    obtain ⟨r, found, same⟩ := copy.row
    obtain ⟨r', found', same', -⟩ := l.row id r found
    exact ⟨r', found', same'.trans same⟩
  ok := copy.ok.advance l.chain

/-- The call has read the row. -/
structure Reading (S : Setting) (id : Uuid) (payin : PayInRecord) (w : World) (h : Hist Api) :
    Prop where
  honest : Honest h
  copy : Copy S id payin w
  read : h.findSome? rowOf = some payin
  untold : h.findSome? headOf = none
  nothing : collected S.deployment payin.asset h = []

/-- The call has read the row and been told the head. -/
structure Headed (S : Setting) (id : Uuid) (payin : PayInRecord) (n : Nat) (w : World)
    (h : Hist Api) : Prop where
  honest : Honest h
  copy : Copy S id payin w
  read : h.findSome? rowOf = some payin
  told : h.findSome? headOf = some n
  head : S.terms.grows → n ≤ w.chain.head

/-- The head that has been told stays one. -/
lemma Headed.move (headed : Headed S id payin n w h) (l : Later S.terms w w')
    (honest : Honest (h ++ [e])) : Headed S id payin n w' (h ++ [e]) where
  honest := honest
  copy := headed.copy.later l
  read := Data.findSome?_concat_of_some headed.read
  told := Data.findSome?_concat_of_some headed.told
  head g := (headed.head g).trans (l.chain g).head

/-- The row is read first. -/
lemma wp_requirePayIn {context : RequestContext} :
    S.spec.wp (requirePayIn id context) (fun r _ w h => match r with
      | .ok payin => Reading S id payin w h
      | .error _ => Honest h) u w [] := by
  refine Spec.wp_bind_of
    (P := fun r _ w h => Honest h ∧ ∀ payin, r = .ok (some payin) → Reading S id payin w h)
    (wp_request rfl honest_nil fun w₁ o w₂ le inv reply later honest => ⟨honest, ?_⟩)
    (fun b u w h post => ?_) fun e u w h post => post.1
  · intro payin eq
    cases o with
    | refused e => cases eq
    | lost b e => cases eq
    | done b =>
      cases eq
      refine ⟨honest, ?_, rfl, rfl, rfl⟩
      obtain ⟨eq, rfl⟩ := Prod.mk.inj (Option.some.inj reply)
      obtain ⟨found, -⟩ := Option.filter_eq_some_iff.1 eq
      exact ⟨⟨payin, found, rfl⟩, inv.rows id payin found⟩
  · cases b with
    | none => exact post.1
    | some payin => exact post.2 payin rfl

/-! ## Pagination -/

/-- A chunk ends within the range, and the next one begins after it. -/
lemma chunkEnd_bounds {size : ℕ+} {toBlock k : Nat} (more : k ≤ toBlock) :
    chunkEnd size toBlock k ≤ toBlock ∧ k ≤ chunkEnd size toBlock k ∧
      chunkEnd size toBlock k + 1 = min (k + size) (toBlock + 1) := by
  have pos := size.pos
  unfold chunkEnd
  split <;> omega

/-- The rule of `paginateLogs`: an invariant of the chunks read so far, up to the next block. -/
lemma wp_paginateFrom {T : Type} {fetchChunk : Nat → Nat → Method (List T)} {size : ℕ+}
    {toBlock : Nat} {I : Nat → List T → World → Hist Api → Prop}
    (fetch : ∀ f t results u w h, f ≤ t → t ≤ toBlock → I f results w h →
      S.spec.wp (fetchChunk f t) (fun r _ w h => match r with
        | .ok chunk => I (t + 1) (results ++ chunk) w h
        | .error _ => Honest h) u w h)
    {fuel k : Nat} {results : List T} (enough : toBlock + 1 - k ≤ fuel)
    (inv : I (min k (toBlock + 1)) results w h) :
    S.spec.wp (paginateFrom fetchChunk size toBlock fuel k results) (fun r _ w h => match r with
      | .ok results => I (toBlock + 1) results w h
      | .error _ => Honest h) u w h := by
  induction fuel generalizing u w h k results with
  | zero =>
    rw [min_eq_right (by omega)] at inv
    exact inv
  | succ fuel ih =>
    unfold paginateFrom
    split
    case isFalse past =>
      rw [min_eq_right (by omega)] at inv
      exact inv
    case isTrue more =>
      have pos := size.pos
      obtain ⟨upper, lower, next⟩ := chunkEnd_bounds more
      rw [min_eq_left (by omega)] at inv
      refine Spec.wp_bind_of (fetch _ _ _ _ _ _ lower upper inv) (fun chunk u w h inv => ?_)
        fun _ _ _ _ honest => honest
      exact ih (by omega) (next ▸ inv)

/-! ## Chunks -/

/-- The logs that have been given so far are the matching logs below the block `k`. -/
structure Scan (S : Setting) (id : Uuid) (payin : PayInRecord) (n start : Nat) (k : Nat)
    (records : List PayInTransferRecord) (w : World) (h : Hist Api) : Prop where
  headed : Headed S id payin n w h
  given : collected S.deployment payin.asset h = records
  bound : k ≤ n + 1
  exactly : S.terms.grows → ∀ x, x ∈ records ↔
    x ∈ matching S.deployment w.chain (account payin) ∧ start ≤ x.blockNumber ∧ x.blockNumber < k

/-- As the chain grows, the logs below a block that has been read stay. -/
lemma mem_matching_later {a : Account} {x : PayInTransferRecord} {k : Nat} (l : Later S.terms w w')
    (g : S.terms.grows) (bound : k ≤ w.chain.head + 1) (lt : x.blockNumber < k) :
    x ∈ matching S.deployment w'.chain a ↔ x ∈ matching S.deployment w.chain a :=
  ⟨fun mem => (l.chain g).mem_matching_of_le mem (by omega), (l.chain g).mem_matching⟩

/-- One more chunk. -/
lemma Scan.chunk {start k t : Nat} {records chunk : List PayInTransferRecord}
    (scan : Scan S id payin n start k records w h) (le : k ≤ t) (bound : t ≤ n)
    (after : start ≤ k) (l : Later S.terms w w') (honest : Honest (h ++ [e]))
    (given : logsOf S.deployment payin.asset e = chunk)
    (exactly : ∀ x, x ∈ chunk ↔ x ∈ matching S.deployment w'.chain (account payin) ∧
      k ≤ x.blockNumber ∧ x.blockNumber ≤ t) :
    Scan S id payin n start (t + 1) (records ++ chunk) w' (h ++ [e]) where
  headed := scan.headed.move l honest
  given := by rw [collected_append, scan.given, given]
  bound := by omega
  exactly g x := by
    have head := scan.headed.head g
    have bound := scan.bound
    rw [List.mem_append, scan.exactly g, exactly]
    constructor
    · rintro (⟨mem, above, below⟩ | ⟨mem, above, below⟩)
      · exact ⟨(mem_matching_later l g (by omega) below).2 mem, above, by omega⟩
      · exact ⟨mem, by omega, by omega⟩
    · rintro ⟨mem, above, below⟩
      rcases lt_or_ge x.blockNumber k with lt | ge
      · exact .inl ⟨(mem_matching_later l g (by omega) lt).1 mem, above, lt⟩
      · exact .inr ⟨mem, ge, by omega⟩

/-- The records of the logs of a chunk are the matching ones between its blocks. -/
lemma mem_chunk {T : Type} {rec : T → PayInTransferRecord} {p : T → Bool} {block : T → Nat}
    {logs : List T} {f t : Nat} {x : PayInTransferRecord}
    (same : ∀ l, (rec l).blockNumber = block l) :
    x ∈ (logs.filter fun l => p l && decide (f ≤ block l ∧ block l ≤ t)).map rec ↔
      x ∈ (logs.filter p).map rec ∧ f ≤ x.blockNumber ∧ x.blockNumber ≤ t := by
  simp only [List.mem_map, List.mem_filter, Bool.and_eq_true, decide_eq_true_eq]
  constructor
  · rintro ⟨l, ⟨mem, pays, within⟩, rfl⟩
    exact ⟨⟨l, ⟨mem, pays⟩, rfl⟩, same l ▸ within⟩
  · rintro ⟨⟨l, ⟨mem, pays⟩, rfl⟩, within⟩
    exact ⟨l, ⟨mem, pays, same l ▸ within⟩, rfl⟩

/-! ## The whole scan -/

/-- What a scan has found: matching logs, with all from where it resumed up to the head. -/
structure Found (S : Setting) (id : Uuid) (payin : PayInRecord) (n : Nat)
    (new : List PayInTransferRecord) (w : World) (h : Hist Api) : Prop where
  headed : Headed S id payin n w h
  given : collected S.deployment payin.asset h = new
  real : S.terms.grows → ∀ x ∈ new, x ∈ matching S.deployment w.chain (account payin)
  found : S.terms.grows → 0 < payin.startBlock →
    ∀ x ∈ matching S.deployment w.chain (account payin),
      scanFromBlock payin ≤ x.blockNumber → x.blockNumber ≤ n → x ∈ new

/-- What a scan leaves, whatever becomes of it. -/
def Scanned (S : Setting) (id : Uuid) (payin : PayInRecord) (n : Nat) :
    Post Api World Unit (List PayInTransferRecord)
  | .ok new, _, w, h => Found S id payin n new w h
  | .error _, _, _, h => Honest h

/-- What has been found stays. -/
lemma Found.move {new : List PayInTransferRecord} (found : Found S id payin n new w h)
    (l : Later S.terms w w') (honest : Honest (h ++ [e]))
    (given : logsOf S.deployment payin.asset e = []) : Found S id payin n new w' (h ++ [e]) where
  headed := found.headed.move l honest
  given := by rw [collected_append, given, List.append_nil, found.given]
  real g x mem := (l.chain g).mem_matching (found.real g x mem)
  found g pos x mem above below := by
    have head := found.headed.head g
    exact found.found g pos x ((l.chain g).mem_matching_of_le mem (by omega)) above below

/-- A scan that does not begin at the genesis begins where it is told. -/
lemma scanStart_of_pos {d : Deployment} {k : Nat} (pos : 0 < k) : scanStart d k n = k := by
  rw [scanStart, if_pos pos]

/-- Where the scan would begin above the head, there is nothing to find. -/
lemma found_nil (headed : Headed S id payin n w h)
    (nothing : collected S.deployment payin.asset h = [])
    (above : n < scanStart S.deployment (scanFromBlock payin) n) : Found S id payin n [] w h where
  headed := headed
  given := nothing
  real _ _ mem := absurd mem List.not_mem_nil
  found _ pos x _ ge le := by
    have start := startBlock_le_scanFromBlock payin
    rw [scanStart_of_pos (by omega)] at above
    omega

/-- A scan of all chunks. -/
lemma found_of_scan {records : List PayInTransferRecord}
    (scan : Scan S id payin n (scanStart S.deployment (scanFromBlock payin) n) (n + 1) records w h) :
    Found S id payin n records w h where
  headed := scan.headed
  given := scan.given
  real g x mem := ((scan.exactly g x).1 mem).1
  found g pos x mem ge le := by
    have start := startBlock_le_scanFromBlock payin
    refine (scan.exactly g x).2 ⟨mem, ?_, by omega⟩
    rw [scanStart_of_pos (by omega)]
    exact ge

/-- The rule of the scans of both rails: each chunk is answered by the matching logs of its blocks. -/
lemma wp_paginateLogs {T : Type} {g : T → PayInTransferRecord}
    {fetch : Nat → Nat → Method (List T)} (headed : Headed S id payin n w h)
    (nothing : collected S.deployment payin.asset h = [])
    (answered : ∀ {start k t records u w h}, Scan S id payin n start k records w h → k ≤ t → t ≤ n →
      start ≤ k → S.spec.wp (fetch k t) (fun r _ w h => match r with
        | .ok chunk => Scan S id payin n start (t + 1) (records ++ chunk.map g) w h
        | .error _ => Honest h) u w h) :
    S.spec.wp (paginateLogs (scanStart S.deployment (scanFromBlock payin) n) n fetch)
      (fun r _ w h => match r with
        | .ok logs => Found S id payin n (logs.map g) w h
        | .error _ => Honest h) u w h := by
  unfold paginateLogs
  split
  case isTrue above => exact found_nil headed nothing above
  case isFalse within =>
    refine Spec.wp_mono (fun r u w h post => ?_) (wp_paginateFrom
      (I := fun k results w h => scanStart S.deployment (scanFromBlock payin) n ≤ k ∧
        Scan S id payin n (scanStart S.deployment (scanFromBlock payin) n) k (results.map g) w h)
      (fun f t results u w h le bound scan => ?_) le_rfl ⟨?_, headed, nothing, ?_, fun _ x => ?_⟩)
    · cases r with
      | ok logs => exact found_of_scan post.2
      | error e => exact post
    · refine Spec.wp_mono (fun r u w h post => ?_) (answered scan.2 le bound scan.1)
      cases r with
      | ok chunk => exact ⟨scan.1.trans (by omega), List.map_append ▸ post⟩
      | error e => exact post
    · omega
    · omega
    · constructor
      · intro mem
        cases mem
      · rintro ⟨-, ge, lt⟩
        omega

/-- An asset that is required is configured. -/
lemma of_requireAsset {d : Deployment} {asset : SettlementAsset} {assetConfig : ConfiguredAsset}
    (ok : requireAsset d asset = .ok assetConfig) :
    (d.getAssetConfig asset).address = some assetConfig.address ∧
      (d.getAssetConfig asset).decimals = assetConfig.decimals := by
  unfold requireAsset at ok
  split at ok
  case h_1 eq =>
    cases ok
    exact ⟨eq, rfl⟩
  case h_2 => cases ok

/-- What counts for a router pay-in are the payments of its invoice at the router. -/
lemma matching_paymentRouter {d : Deployment} {payin : PayInRecord} {invoiceRef router invoiceId : Hex}
    {assetConfig : ConfiguredAsset} (mode : payin.collectionMode = .paymentRouter)
    (ref : truthy payin.routerInvoiceId = some invoiceRef)
    (configured : d.paymentRouterAddress = some router)
    (asset : requireAsset d payin.asset = .ok assetConfig)
    (computed : computeRouterInvoiceId d invoiceRef assetConfig.address payin.expectedAmountAtomic =
      .ok invoiceId) (c : Chain) :
    matching d c (account payin) =
      (c.invoiceLogs.filter (isPayment router invoiceId assetConfig.address)).map
        (routerTransfer d payin.asset) := by
  have token := of_requireAsset asset
  have invoice : invoiceOf d (account payin) = some invoiceId := by
    simp only [invoiceOf, account, ref, token.1, computed, Except.toOption]
  simp only [account, mode] at invoice
  simp only [matching, account, mode, token.1, configured, invoice]

/-- What counts for a deposit address are the transfers of the token to it. -/
lemma matching_derivedAddress {d : Deployment} {payin : PayInRecord} {assetConfig : ConfiguredAsset}
    (mode : payin.collectionMode = .derivedAddress)
    (asset : requireAsset d payin.asset = .ok assetConfig) (c : Chain) :
    matching d c (account payin) =
      (c.transferLogs.filter (isTransfer assetConfig.address payin.depositAddress)).map
        (depositTransfer d payin.asset) := by
  simp only [matching, account, mode, (of_requireAsset asset).1]

/-- `findPayInTransfers`. -/
lemma wp_findPayInTransfers (headed : Headed S id payin n w h)
    (nothing : collected S.deployment payin.asset h = []) :
    S.spec.wp (findPayInTransfers S.deployment payin n) (Scanned S id payin n) u w h := by
  unfold findPayInTransfers
  split
  case h_1 mode =>
    refine Spec.wp_bind (Spec.wp_orThrow (fun invoiceRef ref => ?_) fun _ => headed.honest)
    refine Spec.wp_bind (Spec.wp_bind (Spec.wp_orThrow (fun router configured => ?_)
      fun _ => headed.honest))
    refine Spec.wp_bind (Spec.wp_ofExcept.2 ?_)
    cases asset : requireAsset S.deployment payin.asset with
    | error e => exact headed.honest
    | ok assetConfig =>
      refine Spec.wp_bind (Spec.wp_ofExcept.2 ?_)
      cases computed : computeRouterInvoiceId S.deployment invoiceRef assetConfig.address
          payin.expectedAmountAtomic with
      | error e => exact headed.honest
      | ok invoiceId =>
        have token := of_requireAsset asset
        have counts := matching_paymentRouter mode ref configured asset computed
        split
        case isTrue above => exact found_nil headed nothing above
        case isFalse =>
          refine Spec.wp_bind (Spec.wp_mono (fun r u w h post => ?_) (wp_paginateLogs
            (g := routerTransfer S.deployment payin.asset) headed nothing ?_))
          · cases r with
            | error e => exact post
            | ok logs =>
              change Found S id payin n _ w h
              rw [List.map_map, ← token.2]
              exact post
          · intro start k t records u w h scan le bound after
            refine wp_request rfl scan.headed.honest fun w₁ o w₂ le₁ inv reply later honest => ?_
            cases o with
            | refused e => exact honest
            | lost b e => exact honest
            | done logs =>
              cases reply
              refine scan.chunk le bound after (le₁.trans later) honest rfl fun x => ?_
              rw [counts]
              exact mem_chunk fun _ => rfl
  case h_2 mode =>
    refine Spec.wp_bind (Spec.wp_ofExcept.2 ?_)
    cases asset : requireAsset S.deployment payin.asset with
    | error e => exact headed.honest
    | ok assetConfig =>
      have token := of_requireAsset asset
      have counts := matching_derivedAddress mode asset
      split
      case isTrue above => exact found_nil headed nothing above
      case isFalse =>
        refine Spec.wp_bind (Spec.wp_mono (fun r u w h post => ?_) (wp_paginateLogs
          (g := depositTransfer S.deployment payin.asset) headed nothing ?_))
        · cases r with
          | error e => exact post
          | ok logs =>
            change Found S id payin n _ w h
            rw [← token.2]
            exact post
        · intro start k t records u w h scan le bound after
          refine wp_request rfl scan.headed.honest fun w₁ o w₂ le₁ inv reply later honest => ?_
          cases o with
          | refused e => exact honest
          | lost b e => exact honest
          | done logs =>
            cases reply
            refine scan.chunk le bound after (le₁.trans later) honest rfl fun x => ?_
            rw [counts]
            exact mem_chunk fun _ => rfl

end

end AvaSettle.Payins
