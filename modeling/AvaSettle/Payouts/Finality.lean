import AvaSettle.Async.Yields
import AvaSettle.Model.Frame
import AvaSettle.Payouts.Runs

/-!
# How final a confirmed payout is

A payout is confirmed on two ways: an authorization that waits for the receipt confirms it as soon as
there is one, and a reconciliation confirms it once the receipt is `minConfirmations` below the head.
-/

namespace AvaSettle.Payouts.Finality
open Async
open Blockchain
open Data (Table)

/-- `reconcileTransaction` finds the transaction final on this chain. -/
def Final (d : Deployment) (c : Chain) (hash : Hex) : Prop :=
  ∃ rc, c.receipts hash = some rc ∧ (reconciliationOf d hash rc c.reportedHead).finalized = true

/-- The transaction of the payout is final. -/
def Settled (d : Deployment) (c : Chain) (r : PayoutRecord) : Prop :=
  ∃ hash, r.transactionHash = some hash ∧ Final d c hash

/-- The rows of the ledger: what has not been sent has no transaction, and what is confirmed is
    final. -/
structure Sound (d : Deployment) (w : World) : Prop where
  unsent : ∀ id r, w.payouts.find? id = some r → r.status = .prepared ∨ r.status = .authorized →
    r.transactionHash = none
  final : ∀ id r, w.payouts.find? id = some r → r.status = .confirmed → Settled d w.chain r

/-- The row has the transaction. -/
def Has (id : Uuid) (hash : Hex) (w : World) : Prop :=
  ∃ r, w.payouts.find? id = some r ∧ r.transactionHash = some hash

/-- Transactions stay in their rows, and the chain grows. -/
structure Later (w w' : World) : Prop where
  has : ∀ id hash, Has id hash w → Has id hash w'
  chain : Grows w.chain w'.chain

section
variable {d : Deployment} {c c' c'' : Chain} {w w' w'' : World} {id : Uuid} {hash : Hex}
  {r : PayoutRecord}

/-! ## Growing chains -/

/-- A chain has grown by nothing. -/
lemma grows_refl : Grows c c := ⟨fun _ _ found _ => found, le_rfl⟩

/-- A chain that grows twice has grown. -/
lemma grows_trans (h₁ : Grows c c') (h₂ : Grows c' c'') : Grows c c'' :=
  ⟨fun h rc found ok => h₂.receipt h rc (h₁.receipt h rc found ok) ok, h₁.head.trans h₂.head⟩

/-- A receipt is final just when the transaction has succeeded and is deep enough. -/
lemma finalized_iff {rc : Receipt} {n : Nat} : (reconciliationOf d hash rc n).finalized = true ↔
    rc.status = .success ∧ d.minConfirmations ≤ n - rc.blockNumber := by
  simp [reconciliationOf]

/-- What is final stays final. -/
lemma Final.grows (grows : Grows c c') (final : Final d c hash) : Final d c' hash := by
  obtain ⟨rc, found, final⟩ := final
  obtain ⟨ok, deep⟩ := finalized_iff.1 final
  have head := grows.head
  exact ⟨rc, grows.receipt hash rc found ok, finalized_iff.2 ⟨ok, by omega⟩⟩

/-- What is settled stays settled. -/
lemma Settled.grows (grows : Grows c c') (settled : Settled d c r) : Settled d c' r := by
  obtain ⟨hash, eq, final⟩ := settled
  exact ⟨hash, eq, final.grows grows⟩

/-- The world may stay. -/
lemma Later.refl : Later w w := ⟨fun _ _ has => has, grows_refl⟩

/-- Two changes are one. -/
lemma Later.trans (h₁ : Later w w') (h₂ : Later w' w'') : Later w w'' :=
  ⟨fun id hash has => h₂.has id hash (h₁.has id hash has), grows_trans h₁.chain h₂.chain⟩

/-- Where the table stays, rows are in order, as the chain grows. -/
lemma Sound.of_same (sound : Sound d w) (payouts : w'.payouts = w.payouts)
    (chain : Grows w.chain w'.chain) : Sound d w' ∧ Later w w' := by
  refine ⟨⟨fun id r found => ?_, fun id r found confirmed => ?_⟩, fun id hash has => ?_, chain⟩
  · rw [payouts] at found
    exact sound.unsent id r found
  · rw [payouts] at found
    exact (sound.final id r found confirmed).grows chain
  · obtain ⟨r, found, eq⟩ := has
    exact ⟨r, payouts ▸ found, eq⟩

/-! ## Writes -/

/-- What the patch makes of the row is in order, and the row keeps its transaction. -/
structure Fits (d : Deployment) (c : Chain) (r r' : PayoutRecord) : Prop where
  hash : ∀ hash, r.transactionHash = some hash → r'.transactionHash = some hash
  unsent : r'.status = .prepared ∨ r'.status = .authorized → r'.transactionHash = none
  final : r'.status = .confirmed → Settled d c r'

/-- An update that fits the row. -/
lemma Sound.update {patch : PayoutPatch} {guard : Option (List PayoutStatus)} {b : Option PayoutRecord}
    (sound : Sound d w) (run : World.exec (.payoutUpdate id patch guard) w = some (b, w'))
    (fits : ∀ r, w.payouts.find? id = some r → (guard.all fun l => decide (r.status ∈ l)) = true →
      Fits d w.chain r (patch.applyTo w.now r)) : Sound d w' ∧ Later w w' := by
  cases run
  have find (k : Uuid) := Table.find?_update w.payouts id
    (fun r => guard.all fun l => decide (r.status ∈ l)) (patch.toPatch w.now) k
  -- a row afterwards is as it was, or what the patch has made of it
  have back : ∀ k r', (w.updatePayout id patch guard).2.payouts.find? k = some r' →
      w.payouts.find? k = some r' ∨ ∃ r, Fits d w.chain r r' := by
    intro k r' found
    obtain ⟨r, before, eq⟩ := Option.map_eq_some_iff.1 ((find k).symm.trans found)
    split at eq
    case isFalse => exact .inl (eq ▸ before)
    case isTrue hits =>
      rw [Bool.and_eq_true, decide_eq_true_eq] at hits
      obtain ⟨rfl, holds⟩ := hits
      exact .inr ⟨r, eq ▸ fits r before holds⟩
  refine ⟨⟨fun k r' found open' => ?_, fun k r' found confirmed => ?_⟩, fun k hash has => ?_, grows_refl⟩
  · rcases back k r' found with before | ⟨r, fits⟩
    · exact sound.unsent k r' before open'
    · exact fits.unsent open'
  · rcases back k r' found with before | ⟨r, fits⟩
    · exact sound.final k r' before confirmed
    · exact fits.final confirmed
  · obtain ⟨r, before, eq⟩ := has
    refine ⟨_, (find k).trans (congrArg (Option.map _) before), ?_⟩
    dsimp only
    split
    case isFalse => exact eq
    case isTrue hits =>
      rw [Bool.and_eq_true, decide_eq_true_eq] at hits
      obtain ⟨rfl, holds⟩ := hits
      exact (fits r before holds).hash hash eq

/-- A new row is prepared, and has no transaction. -/
lemma Sound.insert {b : Option PayoutRecord} (sound : Sound d w) (prepared : r.status = .prepared)
    (noHash : r.transactionHash = none) (run : World.exec (.payoutInsert r) w = some (b, w')) :
    Sound d w' ∧ Later w w' := by
  obtain ⟨-, rfl, -⟩ | ⟨t, -, rfl, inserted, -⟩ := World.insertPayout_cases run
  · exact ⟨sound, .refl⟩
  have find := Table.find?_insert inserted
  have back : ∀ k r', t.find? k = some r' → r' = r ∨ w.payouts.find? k = some r' := by
    intro k r' found
    rw [find] at found
    split at found
    case isTrue => exact .inl (Option.some.inj found).symm
    case isFalse => exact .inr found
  refine ⟨⟨fun k r' found open' => ?_, fun k r' found confirmed => ?_⟩, fun k hash has => ?_, grows_refl⟩
  · rcases back k r' found with rfl | before
    · exact noHash
    · exact sound.unsent k r' before open'
  · rcases back k r' found with rfl | before
    · rw [prepared] at confirmed
      cases confirmed
    · exact sound.final k r' before confirmed
  · obtain ⟨r', before, eq⟩ := has
    refine ⟨r', (find k).trans ?_, eq⟩
    rw [if_neg, before]
    rintro rfl
    rw [Table.fresh_of_insert inserted] at before
    cases before

/-- The operations that keep the rows in order whatever the call knows: a new row, a claim, a claim
    given up, a payout marked failed, and all that writes no row. -/
def IsHarmless : Call → Prop
  | .payoutInsert r => r.status = .prepared ∧ r.transactionHash = none
  | .payoutUpdate _ patch guard => patch.transactionHash = none ∧
      (∃ s, patch.status = some s ∧ s ≠ .confirmed) ∧ (guard = some [.prepared] ∨ guard = some [.authorized])
  | _ => True

/-- A harmless operation keeps the rows in order. -/
lemma sound_exec {op : Call} {b : op.Res} (harmless : IsHarmless op) (sound : Sound d w)
    (run : World.exec op w = some (b, w')) : Sound d w' ∧ Later w w' := by
  cases op
  case payoutInsert r => exact sound.insert harmless.1 harmless.2 run
  case payoutUpdate id patch guard =>
    obtain ⟨noHash, ⟨s, status, ne⟩, guarded⟩ := harmless
    refine sound.update run fun r found holds => ?_
    have open' : r.status = .prepared ∨ r.status = .authorized := by
      rcases guarded with rfl | rfl
      · exact .inl (by simpa using holds)
      · exact .inr (by simpa using holds)
    have none := sound.unsent id r found open'
    have status' : (patch.applyTo w.now r).status = s := by simp [PayoutPatch.applyTo, status]
    have none' : (patch.applyTo w.now r).transactionHash = .none := by
      simp [PayoutPatch.applyTo, noHash, none]
    refine ⟨fun hash eq => ?_, fun _ => none', fun confirmed => ?_⟩
    · rw [none] at eq
      cases eq
    · exact absurd (status'.symm.trans confirmed) ne
  all_goals
    have frame := World.exec_frame run
    exact sound.of_same (frame.payouts (by simp [Call.writes])) (frame.chain ▸ grows_refl)

end

/-- The upkeep of the rows. -/
def upkeep (d : Deployment) : Upkeep (growingLedger d fun _ _ _ => True) where
  inv := Sound d
  le := Later
  le_refl _ := .refl
  le_trans := Later.trans
  env sound move := sound.of_same move.payouts move.chain

/-- Whatever runs beside it, the call keeps the rows in order. -/
abbrev Keeps (d : Deployment) {α : Type} (p : Method α) : Prop :=
  ∀ a w h, (upkeep d).spec.wp p Spec.triv a w h

/-- A transfer that counts as confirmed is final. -/
def Evidence (d : Deployment) (exec : TransferExecution) (w : World) : Prop :=
  exec.status = .confirmed → Final d w.chain exec.hash

section
variable {d : Deployment} {id : Uuid} {hash : Hex} {w w' : World} {a : ℕ} {h : Hist Api}
  {α β : Type}

/-- Evidence stays. -/
lemma Evidence.later {exec : TransferExecution} (later : Later w w') (evidence : Evidence d exec w) :
    Evidence d exec w' := fun confirmed => (evidence confirmed).grows later.chain

/-- A row keeps its transaction. -/
lemma Has.later (later : Later w w') (has : Has id hash w) : Has id hash w' := later.has id hash has

/-! ## Harmless programs -/

/-- A program of harmless operations. -/
abbrev Harmless (p : Method α) : Prop := p.Uses IsHarmless fun _ => True

/-- A neutral program is harmless. -/
lemma harmless_of_neutral {p : Method α} (uses : p.Uses Neutral fun _ => True) : Harmless p :=
  Prog.uses_mono (fun c neutral => by cases c <;> trivial) uses

/-- A harmless program keeps the rows in order. -/
lemma keeps_of_harmless {p : Method α} (harmless : Harmless p) : Keeps d p := by
  have yields : (upkeep d).Yields p (fun _ => True) fun _ => True :=
    Upkeep.yields_of_uses (fun op ok w b w' sound run => by
      obtain ⟨sound, later⟩ := sound_exec ok sound run
      exact ⟨sound, later, trivial⟩) (fun _ _ _ _ => trivial) harmless
  exact fun a w h => Spec.wp_mono (fun _ _ _ _ _ => trivial) (yields a w h)

/-- One call after another. -/
lemma keeps_bind {p : Method α} {f : α → Method β} (hp : Keeps d p) (hf : ∀ b, Keeps d (f b)) :
    Keeps d (p >>= f) := fun a w h =>
  Spec.wp_bind_of (hp a w h) (fun b a w h _ => hf b a w h) fun _ _ _ _ _ => trivial

/-- A harmless program keeps what the world has shown. -/
lemma wp_harmless {K : World → Prop} {p : Method α} (kept : ∀ {w w'}, Later w w' → K w → K w')
    (harmless : Harmless p) (shown : K w) :
    (upkeep d).spec.wp p (fun _ _ w _ => K w) a w h :=
  Spec.wp_mono (fun _ _ _ _ post => post.2)
    (Spec.wp_frame kept shown (keeps_of_harmless harmless a w h))

/-- A harmless request. -/
lemma harmless_request {c : Call} (harmless : IsHarmless c) : Harmless (request c) :=
  Prog.uses_await (S := Api) harmless

/-! ## Authorizations -/

/-- What a rail leaves. -/
def Transferred (d : Deployment) : Post Api World ℕ TransferExecution
  | .ok exec => fun _ w _ => Evidence d exec w
  | .error _ => fun _ _ _ => True

/-- What comes before the submission of a rail. -/
lemma transferred_bind {p : Method α} {f : α → Method TransferExecution}
    (neutral : p.Uses Neutral fun _ => True)
    (rest : ∀ b a w h, (upkeep d).spec.wp (f b) (Transferred d) a w h) :
    (upkeep d).spec.wp (p >>= f) (Transferred d) a w h :=
  Spec.wp_bind_of (keeps_of_harmless (harmless_of_neutral neutral) a w h)
    (fun b a w h _ => rest b a w h) fun _ _ _ _ _ => trivial

section
variable (settings : d.waitForReceipt = false ∨ d.minConfirmations = 0)
include settings

/-- Without waiting, no transfer counts as confirmed. With it, the receipt is all that is asked for. -/
lemma wp_toTransferExecution :
    (upkeep d).spec.wp (toTransferExecution d hash) (Transferred d) a w h := by
  unfold toTransferExecution
  split
  case isFalse =>
    intro confirmed
    cases confirmed
  case isTrue waits =>
    have zero : d.minConfirmations = 0 := settings.resolve_left (by simp [waits])
    have waited : (upkeep d).spec.op (.waitForTransactionReceipt hash)
        (fun o _ w _ => ∀ rc, o.answer = .ok rc → w.chain.receipts hash = some rc) a w h := by
      refine Upkeep.op_shown (u := upkeep d) (.waitForTransactionReceipt hash) (K := fun _ => True)
        (R := fun r w => ∀ rc, r = .ok rc → w.chain.receipts hash = some rc) (fun _ _ => trivial) trivial
        (fun w rc w' sound _ run => ?_) ?_
      case refine_2 =>
        intro e w _ rc eq
        cases eq
      obtain ⟨rc', found, eq⟩ := Option.map_eq_some_iff.1 run
      cases eq
      refine ⟨sound, .refl, fun rc'' eq => ?_⟩
      cases eq
      exact found
    refine Spec.wp_bind (Spec.wp_await (Spec.op_mono (fun o a w h post => ?_) waited))
    cases answer : o.answer with
    | error e => trivial
    | ok rc =>
      intro confirmed
      refine ⟨rc, post rc answer, finalized_iff.2 ⟨?_, by omega⟩⟩
      by_contra ne
      simp [executionOf, ne] at confirmed

/-- A submission that is awaited brings its evidence. -/
lemma wp_submit {account : Hex} {tx : Tx} {ids : List Uuid} :
    (upkeep d).spec.wp (request (.submit account tx ids) >>= toTransferExecution d) (Transferred d)
      a w h :=
  Spec.wp_bind_of (keeps_of_harmless (harmless_request (c := .submit account tx ids) trivial) a w h)
    (fun _ _ _ _ _ => wp_toTransferExecution settings) fun _ _ _ _ _ => trivial

/-- Each rail brings its evidence. -/
lemma wp_transferPayout {authorized : PayoutRecord} :
    (upkeep d).spec.wp (transferPayout d authorized) (Transferred d) a w h := by
  unfold transferPayout
  split
  case isTrue =>
    refine transferred_bind (Prog.uses_require fun _ => trivial) fun _ a w h => ?_
    refine transferred_bind (Prog.uses_ofExcept fun _ _ => trivial) fun _ a w h => ?_
    refine transferred_bind (Prog.uses_ofExcept fun _ _ => trivial) fun _ a w h => ?_
    refine transferred_bind uses_ensureVaultAllowance fun _ a w h => ?_
    refine transferred_bind (Prog.uses_ofExcept fun _ _ => trivial) fun _ a w h => ?_
    exact wp_submit settings
  case isFalse =>
    refine transferred_bind (Prog.uses_require fun _ => trivial) fun _ a w h => ?_
    refine transferred_bind (Prog.uses_ofExcept fun _ _ => trivial) fun _ a w h => ?_
    refine transferred_bind (Prog.uses_ofExcept fun _ _ => trivial) fun _ a w h => ?_
    exact wp_submit settings

end

/-- The write that records a transfer. -/
lemma op_record {exec : TransferExecution} {now : Timestamp} (evidence : Evidence d exec w) :
    (upkeep d).spec.op (updateAuthorized id (recordPatch exec now)) (fun _ _ w _ => Evidence d exec w)
      a w h := by
  refine Upkeep.op_shown (u := upkeep d) (updateAuthorized id (recordPatch exec now))
    (K := Evidence d exec) (R := fun _ => Evidence d exec) Evidence.later evidence
    (fun w b w' sound evidence run => ?_) fun _ _ evidence => evidence
  have fits (r : PayoutRecord) (found : w.payouts.find? id = some r)
      (authorized : r.status = .authorized) :
      Fits d w.chain r ((recordPatch exec now).applyTo w.now r) := by
    have none := sound.unsent id r found (.inr authorized)
    refine ⟨fun hash eq => ?_, fun open' => ?_, fun confirmed => ⟨exec.hash, rfl, evidence ?_⟩⟩
    · rw [none] at eq
      cases eq
    · change statusOf exec.status = _ ∨ statusOf exec.status = _ at open'
      cases status : exec.status <;> simp [status, statusOf] at open'
    · change statusOf exec.status = _ at confirmed
      cases status : exec.status with
      | confirmed => rfl
      | broadcasted => simp [status, statusOf] at confirmed
  obtain ⟨sound', later⟩ := sound.update run fun r found holds => fits r found (by simpa using holds)
  exact ⟨sound', later, evidence.later later⟩

/-- A write that fails or releases a row is harmless. -/
lemma harmless_fail {patch : PayoutPatch} (noHash : patch.transactionHash = none)
    (status : patch.status = some .prepared ∨ patch.status = some .failed) :
    IsHarmless (updateAuthorized id patch) := by
  refine ⟨noHash, ?_, .inr rfl⟩
  rcases status with status | status
  · exact ⟨_, status, nofun⟩
  · exact ⟨_, status, nofun⟩

/-- The handler of a payout is harmless. -/
lemma harmless_handlePayoutError {dto : AuthorizePayoutDto} {context : RequestContext}
    {e : Exception} : Harmless (handlePayoutError id dto context e) := by
  unfold handlePayoutError
  split
  case h_1 =>
    exact Prog.uses_bind (harmless_request (harmless_fail rfl (.inl rfl))) fun _ =>
      Prog.uses_throw trivial
  case h_2 =>
    refine Prog.uses_bind (harmless_request (harmless_fail rfl (.inr rfl))) fun _ => ?_
    refine Prog.uses_bind (harmless_of_neutral uses_recordAudit) fun _ => ?_
    refine Prog.uses_bind (Prog.uses_orThrow trivial) fun _ => ?_
    exact Prog.uses_bind (harmless_of_neutral uses_toResponse) fun _ => Prog.uses_throw trivial

/-- A claim is harmless. -/
lemma harmless_claim {now : Timestamp} :
    IsHarmless (.payoutUpdate id (claimPatch now) (some [.prepared])) :=
  ⟨rfl, ⟨_, rfl, nofun⟩, .inl rfl⟩

section
variable (settings : d.waitForReceipt = false ∨ d.minConfirmations = 0)
include settings

/-- The body of the `try` keeps the rows in order. -/
lemma keeps_executePayout {now : Timestamp} {dto : AuthorizePayoutDto} {context : RequestContext}
    {authorized : PayoutRecord} : Keeps d (executePayout d id now dto context authorized) := by
  refine keeps_bind (keeps_of_harmless (harmless_of_neutral uses_getAssetBalance)) fun _ => ?_
  refine keeps_bind (keeps_of_harmless (Prog.uses_require fun _ => trivial)) fun _ a w h => ?_
  refine Spec.wp_bind_of (wp_transferPayout settings) (fun transfer a w h evidence => ?_)
    fun _ _ _ _ _ => trivial
  refine Spec.wp_bind_of (P := Spec.triv) (Spec.wp_await (Spec.op_mono (fun _ _ _ _ _ => trivial)
    (op_record evidence))) (fun updated a w h _ => ?_) fun _ _ _ _ _ => trivial
  refine keeps_of_harmless (harmless_of_neutral ?_) a w h
  exact Prog.uses_bind uses_recordAudit fun _ =>
    Prog.uses_bind (uses_announceConfirmed fun _ => trivial) fun _ => trivial

/-- So does an authorization. -/
lemma keeps_authorizePayout {dto : AuthorizePayoutDto} {context : RequestContext} :
    Keeps d (authorizePayout d id dto context) := by
  refine keeps_bind (keeps_of_harmless (harmless_of_neutral uses_requirePayout)) fun payout => ?_
  split
  case isTrue => exact keeps_of_harmless (harmless_of_neutral uses_toResponse)
  case isFalse =>
    refine keeps_bind (keeps_of_harmless (harmless_request (c := .clock) trivial)) fun now => ?_
    refine keeps_bind (keeps_of_harmless (harmless_request harmless_claim)) fun claimed => ?_
    cases claimed with
    | none =>
      refine keeps_of_harmless (Prog.uses_bind (harmless_of_neutral uses_requirePayout)
        fun current => ?_)
      split
      case isTrue => exact harmless_of_neutral uses_toResponse
      case isFalse => exact Prog.uses_throw trivial
    | some authorized =>
      refine keeps_bind (keeps_of_harmless (harmless_of_neutral uses_recordAudit)) fun _ => ?_
      refine keeps_bind (fun a w h => ?_) fun updated => ?_
      · exact Spec.wp_tryCatch_of (keeps_executePayout settings a w h) (fun _ _ _ _ _ => trivial)
          fun e a w h _ => keeps_of_harmless harmless_handlePayoutError a w h
      · exact keeps_of_harmless (Prog.uses_bind (Prog.uses_orThrow trivial) fun _ =>
          harmless_of_neutral uses_toResponse)

end

/-! ## Batches -/

/-- The elements of a `Promise.all`, each a harmless operation. -/
lemma harmless_slots {T : Type} {items : List T} {slot : T → Slot Api α}
    (each : ∀ x, ∃ op post, slot x = .todo op post ∧ IsHarmless op) :
    Harmless (Prog.promiseAll (items.map slot)) := by
  refine Prog.uses_promiseAll fun s mem => ?_
  obtain ⟨x, -, rfl⟩ := List.mem_map.1 mem
  obtain ⟨op, post, eq, harmless⟩ := each x
  rw [eq]
  exact ⟨harmless, fun _ _ _ _ => trivial⟩

/-- The claims of a batch are harmless. -/
lemma harmless_claimBatch {now : Timestamp} {payouts claimed : List PayoutRecord} :
    Harmless (claimBatch now payouts claimed) := by
  induction payouts generalizing claimed with
  | nil => exact Prog.uses_pure _
  | cons payout payouts ih =>
    refine Prog.uses_bind (harmless_request harmless_claim) fun authorized => ?_
    cases authorized with
    | none =>
      refine Prog.uses_bind (harmless_slots fun c => ?_) fun _ => Prog.uses_throw trivial
      exact ⟨_, _, rfl, harmless_fail rfl (.inl rfl)⟩
    | some authorized => exact ih

/-- The handler of a batch is harmless. -/
lemma harmless_handleBatchError {dto : AuthorizePayoutDto} {context : RequestContext}
    {claimed : List PayoutRecord} {e : Exception} :
    Harmless (handleBatchError dto context claimed e) := by
  unfold handleBatchError
  dsimp only
  split
  case isTrue =>
    refine Prog.uses_bind (harmless_slots fun c => ?_) fun _ => Prog.uses_throw trivial
    exact ⟨_, _, rfl, harmless_fail rfl (.inl rfl)⟩
  case isFalse =>
    refine Prog.uses_bind (harmless_slots fun c => ?_) fun _ => ?_
    · exact ⟨_, _, rfl, harmless_fail rfl (.inr rfl)⟩
    · exact Prog.uses_bind (harmless_slots fun c => ⟨_, _, rfl, trivial⟩) fun _ =>
        Prog.uses_throw trivial

/-- The ledger writes of a batch, each with the evidence of the one transaction. -/
lemma wp_recordAll {exec : TransferExecution} {now : Timestamp} {claimed : List PayoutRecord}
    (evidence : Evidence d exec w) :
    (upkeep d).spec.wp (.promiseAll (claimed.map (batchRecordSlot exec now))) Spec.triv a w h := by
  refine Spec.wp_mono (fun _ _ _ _ _ => trivial) (Spec.wp_uses
    (P := fun c => ∃ id, c = updateAuthorized id (recordPatch exec now)) (E := fun _ => True)
    (R := fun _ w _ => Evidence d exec w) (fun _ _ _ _ => trivial) ?_ ?_ ?_ evidence)
  · rintro c a w h ⟨id, rfl⟩ evidence
    exact op_record evidence
  · rintro c a w h ⟨id, rfl⟩ evidence
    exact Spec.op_mono (fun _ _ _ _ _ => trivial) (op_record evidence)
  · refine Prog.uses_promiseAll fun s mem => ?_
    obtain ⟨c, -, rfl⟩ := List.mem_map.1 mem
    exact ⟨⟨c.id, rfl⟩, fun _ _ _ _ => trivial⟩

section
variable (settings : d.waitForReceipt = false ∨ d.minConfirmations = 0)
include settings

/-- The batch transfer brings its evidence. -/
lemma wp_vaultPayoutBatch {asset : SettlementAsset} {batchRef : Hex} {recipients : List Hex}
    {amountsAtomic : List Nat} {ids : List Uuid} :
    (upkeep d).spec.wp (vaultPayoutBatch d asset batchRef recipients amountsAtomic ids)
      (Transferred d) a w h := by
  refine transferred_bind (Prog.uses_ofExcept fun _ _ => trivial) fun _ a w h => ?_
  refine transferred_bind (Prog.uses_ofExcept fun _ _ => trivial) fun _ a w h => ?_
  refine transferred_bind (Prog.uses_ofExcept fun _ _ => trivial) fun _ a w h => ?_
  refine transferred_bind uses_ensureVaultAllowance fun _ a w h => ?_
  refine transferred_bind (Prog.uses_ofExcept fun _ _ => trivial) fun _ a w h => ?_
  exact wp_submit settings

/-- What a batch does with its claimed legs keeps the rows in order. -/
lemma keeps_settleBatch {asset : SettlementAsset} {now : Timestamp} {dto : AuthorizePayoutDto}
    {context : RequestContext} {claimed : List PayoutRecord} :
    Keeps d (settleBatch d asset now dto context claimed) := by
  have execute : Keeps d (executeBatch d asset now dto context claimed) := by
    intro a w h
    refine Spec.wp_bind_of (wp_vaultPayoutBatch settings) (fun exec a w h evidence => ?_)
      fun _ _ _ _ _ => trivial
    refine Spec.wp_bind_of (wp_recordAll evidence) (fun updated a w h _ => ?_) fun _ _ _ _ _ => trivial
    refine keeps_of_harmless (Prog.uses_bind (harmless_of_neutral
      (Prog.uses_forEach fun leg _ => ?_)) fun _ => Prog.uses_pure _) a w h
    exact Prog.uses_bind (Prog.uses_orThrow trivial) fun _ =>
      Prog.uses_bind uses_recordAudit fun _ => uses_announceConfirmed fun _ => trivial
  refine keeps_bind (keeps_of_harmless (harmless_slots fun c => ⟨_, _, rfl, trivial⟩)) fun _ => ?_
  refine keeps_bind (fun a w h => ?_) fun updated => ?_
  · exact Spec.wp_tryCatch_of (execute a w h) (fun _ _ _ _ _ => trivial) fun e a w h _ =>
      keeps_of_harmless harmless_handleBatchError a w h
  · exact keeps_of_harmless (harmless_of_neutral uses_toResponses)

/-- So does a batch. -/
lemma keeps_authorizePayoutBatch {payoutIds : List Uuid} {dto : AuthorizePayoutDto}
    {context : RequestContext} : Keeps d (authorizePayoutBatch d payoutIds dto context) := by
  refine keeps_bind (keeps_of_harmless (Prog.uses_require fun _ => trivial)) fun _ => ?_
  split
  case h_1 => exact keeps_of_harmless (Prog.uses_throw trivial)
  case h_2 =>
    refine keeps_bind (keeps_of_harmless (harmless_slots fun id => ⟨_, _, rfl, trivial⟩))
      fun payouts => ?_
    refine keeps_bind (keeps_of_harmless (Prog.uses_orThrow trivial)) fun first => ?_
    refine keeps_bind (keeps_of_harmless (Prog.uses_require fun _ => trivial)) fun _ => ?_
    refine keeps_bind (keeps_of_harmless (Prog.uses_require fun _ => trivial)) fun _ => ?_
    refine keeps_bind (keeps_of_harmless (harmless_of_neutral uses_getAssetBalance)) fun _ => ?_
    refine keeps_bind (keeps_of_harmless (Prog.uses_require fun _ => trivial)) fun _ => ?_
    refine keeps_bind (keeps_of_harmless (harmless_request (c := .clock) trivial)) fun now => ?_
    refine keeps_bind (keeps_of_harmless harmless_claimBatch) fun claimed => ?_
    exact keeps_settleBatch settings

/-- So does a creation. -/
lemma keeps_createPayout {dto : CreatePayoutDto} {context : RequestContext} :
    Keeps d (createPayout d dto context) := by
  refine keeps_bind (keeps_of_harmless (Prog.uses_ofExcept fun _ _ => trivial)) fun _ => ?_
  refine keeps_bind (keeps_of_harmless (Prog.uses_ofExcept fun _ _ => trivial)) fun _ => ?_
  refine keeps_bind (keeps_of_harmless (harmless_request (c := .clock) trivial)) fun now => ?_
  refine keeps_bind (keeps_of_harmless (harmless_request (c := .randomUUID) trivial)) fun id => ?_
  refine keeps_bind (keeps_of_harmless (Prog.uses_bind (harmless_request ⟨rfl, rfl⟩)
    fun inserted => ?_)) fun created => ?_
  · cases inserted with
    | some r => exact Prog.uses_pure _
    | none =>
      exact Prog.uses_bind (harmless_request (c := .payoutFindByExternalId _ _) trivial) fun _ =>
        Prog.uses_bind (Prog.uses_orThrow trivial) fun _ => Prog.uses_pure _
  · obtain ⟨record, existed⟩ := created
    cases existed with
    | true =>
      exact keeps_of_harmless (harmless_of_neutral (Prog.uses_bind uses_recordAudit fun _ =>
        uses_toResponse))
    | false =>
      refine keeps_bind (keeps_of_harmless (harmless_of_neutral uses_recordAudit)) fun _ => ?_
      split
      case isTrue => exact keeps_authorizePayout settings
      case isFalse => exact keeps_of_harmless (harmless_of_neutral uses_toResponse)

end

/-! ## Reconciliations -/

/-- What a row with a transaction says that a call has read. -/
structure Read (d : Deployment) (id : Uuid) (payout : PayoutRecord) (hash : Hex) (w : World) : Prop where
  sent : payout.status ≠ .prepared ∧ payout.status ≠ .authorized
  has : Has id hash w
  final : payout.status = .confirmed → Final d w.chain hash

/-- What a call knows that has looked up the transaction too. -/
structure Looked (d : Deployment) (id : Uuid) (payout : PayoutRecord) (hash : Hex)
    (r : TransactionReconciliation) (w : World) : Prop where
  read : Read d id payout hash w
  final : r.finalized = true → Final d w.chain hash

/-- What has been read stays so. -/
lemma Read.later {payout : PayoutRecord} (later : Later w w') (read : Read d id payout hash w) :
    Read d id payout hash w' :=
  ⟨read.sent, read.has.later later, fun confirmed => (read.final confirmed).grows later.chain⟩

/-- What has been looked up stays so. -/
lemma Looked.later {payout : PayoutRecord} {r : TransactionReconciliation} (later : Later w w')
    (looked : Looked d id payout hash r w) : Looked d id payout hash r w' :=
  ⟨looked.read.later later, fun final => (looked.final final).grows later.chain⟩

/-- What the read of the row leaves. -/
def ReadRow (d : Deployment) (id : Uuid) : Post Api World ℕ PayoutRecord
  | .ok payout => fun _ w _ => ∀ hash, payout.transactionHash = some hash → Read d id payout hash w
  | .error _ => fun _ _ _ => True

/-- The read of the row. -/
lemma wp_requirePayout {context : RequestContext} :
    (upkeep d).spec.wp (requirePayout id context) (ReadRow d id) a w h := by
  have read := Upkeep.op_shown (u := upkeep d) (.payoutFindById id context.clientId) (a := a) (w := w)
    (h := h) (K := fun _ => True) (R := fun r w => ∀ payout, r = .ok (some payout) →
      ∀ hash, payout.transactionHash = some hash → Read d id payout hash w) (fun _ _ => trivial) trivial
      (fun w b w' sound _ run => ?_) ?_
  · refine Spec.wp_bind (Spec.wp_await (Spec.op_mono (fun o a w h post => ?_) read))
    cases answer : o.answer with
    | error e => trivial
    | ok b =>
      cases b with
      | none => trivial
      | some payout => exact post payout answer
  · cases run
    refine ⟨sound, .refl, fun payout eq hash isHash => ?_⟩
    obtain ⟨found, -⟩ := Option.filter_eq_some_iff.1 (Except.ok.inj eq)
    refine ⟨⟨fun status => ?_, fun status => ?_⟩, ⟨payout, found, isHash⟩, fun confirmed => ?_⟩
    · rw [sound.unsent id payout found (.inl status)] at isHash
      cases isHash
    · rw [sound.unsent id payout found (.inr status)] at isHash
      cases isHash
    · obtain ⟨hash', eq', final⟩ := sound.final id payout found confirmed
      cases eq'.symm.trans isHash
      exact final
  · intro e w _ payout eq
    cases eq

/-- What the questions to the chain leave. -/
def LookedUp (d : Deployment) (id : Uuid) (payout : PayoutRecord) (hash : Hex) :
    Post Api World ℕ TransactionReconciliation
  | .ok r => fun _ w _ => Looked d id payout hash r w
  | .error _ => fun _ _ _ => True

/-- The questions to the chain. -/
lemma wp_reconcileTransaction {payout : PayoutRecord} (read : Read d id payout hash w) :
    (upkeep d).spec.wp (reconcileTransaction d hash) (LookedUp d id payout hash) a w h := by
  -- the receipt of a transaction that has succeeded stays
  have asked := Upkeep.op_shown (u := upkeep d) (.getTransactionReceipt hash) (a := a) (h := h)
    (K := Read d id payout hash) (R := fun r w => Read d id payout hash w ∧
      ∀ rc, r = .ok rc → rc.status = .success → w.chain.receipts hash = some rc) Read.later read
      (fun w b w' sound read run => ?_) fun _ _ read => ⟨read, ?_⟩
  · refine Spec.wp_bind (Spec.op_mono (fun o a w h post => ?_) asked)
    obtain ⟨read, receipt⟩ := post
    cases answer : o.answer with
    | error e => exact ⟨read, nofun⟩
    | ok rc =>
      have heads := Upkeep.op_shown (u := upkeep d) .getBlockNumber (a := a) (w := w) (h := h)
        (K := fun w => Read d id payout hash w ∧
          (rc.status = .success → w.chain.receipts hash = some rc))
        (R := fun r w => ∀ n, r = .ok n → Looked d id payout hash (reconciliationOf d hash rc n) w)
        (fun later before => ⟨before.1.later later, fun ok =>
          later.chain.receipt hash rc (before.2 ok) ok⟩) ⟨read, receipt rc answer⟩
        (fun w n w' sound before run => ?_) ?_
      · refine Spec.wp_bind (Spec.wp_await (Spec.op_mono (fun o a w h post => ?_) heads))
        cases answer : o.answer with
        | error e => trivial
        | ok n => exact post n answer
      · cases run
        refine ⟨sound, .refl, fun n eq => ⟨before.1, fun final => ?_⟩⟩
        cases eq
        exact ⟨rc, before.2 (finalized_iff.1 final).1, final⟩
      · intro e w _ n eq
        cases eq
  · obtain ⟨rc, found, eq⟩ := Option.map_eq_some_iff.1 run
    cases eq
    refine ⟨sound, .refl, read, fun rc' eq _ => ?_⟩
    cases eq
    exact found
  · intro rc eq
    cases eq

/-- The write of a reconciliation. -/
lemma op_reconcile {payout : PayoutRecord} {r : TransactionReconciliation} {now : Timestamp}
    (looked : Looked d id payout hash r w) :
    (upkeep d).spec.op (.payoutUpdate id (reconcilePatch payout r now) none)
      (fun _ _ w _ => Looked d id payout hash r w) a w h := by
  refine Upkeep.op_shown (u := upkeep d) (.payoutUpdate id (reconcilePatch payout r now) none)
    (K := Looked d id payout hash r) (R := fun _ => Looked d id payout hash r) Looked.later looked
    (fun w b w' sound looked run => ?_) fun _ _ looked => looked
  have fits (row : PayoutRecord) (found : w.payouts.find? id = some row) :
      Fits d w.chain row ((reconcilePatch payout r now).applyTo w.now row) := by
    obtain ⟨row', found', isHash⟩ := looked.read.has
    cases found.symm.trans found'
    have status : ((reconcilePatch payout r now).applyTo w.now row).status = reconciledStatus payout r :=
      rfl
    refine ⟨fun hash eq => eq, fun open' => ?_, fun confirmed => ⟨hash, isHash, ?_⟩⟩
    · rw [status] at open'
      unfold reconciledStatus at open'
      split at open'
      case isTrue => simp at open'
      case isFalse =>
        split at open'
        case isTrue => simp at open'
        case isFalse => exact absurd open' (not_or.2 looked.read.sent)
    · rw [status] at confirmed
      unfold reconciledStatus at confirmed
      split at confirmed
      case isTrue final => exact looked.final final
      case isFalse =>
        split at confirmed
        case isTrue => cases confirmed
        case isFalse => exact looked.read.final confirmed
  obtain ⟨sound', later⟩ := sound.update run fun row found _ => fits row found
  exact ⟨sound', later, looked.later later⟩

/-- A reconciliation keeps the rows in order. -/
lemma keeps_reconcilePayout {context : RequestContext} : Keeps d (reconcilePayout d id context) := by
  intro a w h
  refine Spec.wp_bind_of wp_requirePayout (fun payout a w h read => ?_) fun _ _ _ _ _ => trivial
  refine Spec.wp_bind (Spec.wp_orThrow (fun hash isHash => ?_) fun _ => trivial)
  have read := read hash (Option.filter_eq_some_iff.1 isHash).1
  refine Spec.wp_bind_of (wp_reconcileTransaction read) (fun r a w h looked => ?_) fun _ _ _ _ _ => trivial
  refine Spec.wp_bind_of (wp_harmless Looked.later (harmless_request (c := .clock) trivial) looked)
    (fun now a w h looked => ?_) fun _ _ _ _ _ => trivial
  refine Spec.wp_bind_of (P := Spec.triv) (Spec.wp_await (Spec.op_mono (fun _ _ _ _ _ => trivial)
    (op_reconcile looked))) (fun updated a w h _ => ?_) fun _ _ _ _ _ => trivial
  exact keeps_of_harmless (harmless_of_neutral (Prog.uses_bind uses_recordAudit fun _ =>
    Prog.uses_bind (Prog.uses_orThrow trivial) fun _ => uses_toResponse)) a w h

end

/-! ## Runs -/

/-- Where receipts are not waited for, or no confirmations are asked for, every call keeps the rows in
    order. -/
lemma sound {d : Deployment} (settings : d.waitForReceipt = false ∨ d.minConfirmations = 0) :
    (upkeep d).spec.Sound := by
  intro p called w
  have discard {α : Type} {p : Method α} (keeps : Keeps d p) : (upkeep d).spec.wp p.discard Spec.triv 0 w [] :=
    keeps_bind keeps (fun _ => keeps_of_harmless (Prog.uses_pure _)) 0 w []
  cases called with
  | createPayout here =>
    subst here
    exact discard (keeps_createPayout settings)
  | authorizePayout here =>
    subst here
    exact discard (keeps_authorizePayout settings)
  | authorizePayoutBatch here =>
    subst here
    exact discard (keeps_authorizePayoutBatch settings)
  | reconcilePayout here =>
    subst here
    exact discard keeps_reconcilePayout

/-- A freshly migrated ledger is in order. -/
lemma sound_fresh {d : Deployment} {c : Chain} {now : Timestamp} {nextUuid : Uuid}
    {nextBytes32 : Hex} : Sound d (.fresh c now nextUuid nextBytes32) :=
  ⟨fun _ _ found => (by cases found), fun _ _ found => (by cases found)⟩

/-! ## Shallow receipts -/

/-- A deployment that waits for receipts. -/
def waiting (minConfirmations : Nat) : Deployment :=
  { Deployment.sample with minConfirmations }

/-- The transaction is mined in the block that is the head. -/
def mineAtHead (w : World) : World :=
  { w with chain := { w.chain with
      receipts := fun h => (w.chain.receipts h).or
        (if h = "0x01" then some ⟨.success, w.chain.reportedHead⟩ else none) } }

/-- Mining the transaction is a move of the chain. -/
lemma env_mineAtHead (w : World) : World.Env Grows w (mineAtHead w) :=
  ⟨rfl, rfl, rfl, rfl, rfl, rfl, rfl, rfl, ⟨fun h rc found _ => by simp [mineAtHead, found], le_rfl⟩⟩

/-- The schedule on which a payout is executed at once, and its transaction mined. -/
def executed (minConfirmations : Nat) : List (Choice Api World) :=
  .env mineAtHead :: .enter (createPayout (waiting minConfirmations) sampleDto .sample).discard ::
    Choice.steps 0 12

/-- The row is confirmed, and the head is the block of the receipt. -/
def isShallow (s : Sys Api World) : Bool :=
  payoutIs (fun r => decide (r.status = .confirmed ∧ r.transactionHash = some "0x01")) s &&
    (s.world.chain.receipts "0x01").any fun rc => decide (rc.blockNumber = s.world.chain.reportedHead)

/-- A payout that is confirmed with its receipt in the head block. -/
lemma exists_shallow (minConfirmations : Nat) : ∃ s,
    (growingLedger (waiting minConfirmations) fun _ _ _ => True).Reachable .sample s ∧
      isShallow s = true :=
  Machine.reachable_of_run (M := growingLedger (waiting minConfirmations) fun _ _ _ => True) (w := .sample)
    Machine.always (executed minConfirmations) isShallow (fun _ _ _ _ => trivial) (by
      simp only [executed, List.forall_mem_cons]
      exact ⟨env_mineAtHead, .createPayout rfl, Choice.legal_steps⟩) rfl

/-- A receipt in the head block is not final where confirmations are asked for. -/
lemma not_settled {d : Deployment} {c : Chain} {r : PayoutRecord} {rc : Receipt} {hash : Hex}
    (asked : d.minConfirmations ≠ 0) (isHash : r.transactionHash = some hash)
    (found : c.receipts hash = some rc) (head : rc.blockNumber = c.reportedHead) : ¬Settled d c r := by
  rintro ⟨hash', eq, rc', found', final⟩
  cases isHash.symm.trans eq
  cases found.symm.trans found'
  obtain ⟨-, deep⟩ := finalized_iff.1 final
  omega

/-- In some run of a deployment that waits for receipts and asks for confirmations, a payout is
    confirmed that is not final. -/
lemma unsettled_of_waiting {minConfirmations : Nat} (asked : minConfirmations ≠ 0) : ∃ s r,
    (growingLedger (waiting minConfirmations) fun _ _ _ => True).Reachable .sample s ∧
      s.world.payouts.find? World.sampleId = some r ∧ r.status = .confirmed ∧
        ¬Settled (waiting minConfirmations) s.world.chain r := by
  obtain ⟨s, reach, res⟩ := exists_shallow minConfirmations
  obtain ⟨confirmed, shallow⟩ := Bool.and_eq_true_iff.1 res
  obtain ⟨r, found, holds⟩ := (Option.any_eq_true _ _).1 confirmed
  obtain ⟨rc, mined, head⟩ := (Option.any_eq_true _ _).1 shallow
  obtain ⟨status, isHash⟩ := of_decide_eq_true holds
  exact ⟨s, r, reach, found, status, not_settled asked isHash mined (of_decide_eq_true head)⟩

/-- Whatever the chain does as it grows, and whatever else fails or runs beside it: in every state that
    the payout calls of a deployment with these settings lead to, the transaction of a confirmed payout
    is one that `reconcileTransaction` finds final at that moment. -/
def AlwaysFinal (waitForReceipt : Bool) (minConfirmations : Nat) : Prop :=
  ∀ (d : Deployment), d.waitForReceipt = waitForReceipt → d.minConfirmations = minConfirmations →
    ∀ (c : Chain) (now : Timestamp) (nextUuid : Uuid) (nextBytes32 : Hex) (s : Sys Api World),
      (growingLedger d fun _ _ _ => True).Reachable (.fresh c now nextUuid nextBytes32) s →
        ∀ id r, s.world.payouts.find? id = some r → r.status = .confirmed → Settled d s.world.chain r

/-- Payouts are confirmed on both ways by the same threshold if and only if receipts are not waited for,
    or the threshold is zero. -/
theorem alwaysFinal_iff (waitForReceipt : Bool) (minConfirmations : Nat) :
    AlwaysFinal waitForReceipt minConfirmations ↔ waitForReceipt = false ∨ minConfirmations = 0 := by
  constructor
  · intro always
    by_contra settings
    rw [not_or, Bool.not_eq_false] at settings
    obtain ⟨waits, asked⟩ := settings
    obtain ⟨s, r, reach, found, confirmed, shallow⟩ := unsettled_of_waiting asked
    exact shallow (always (waiting minConfirmations) waits.symm rfl _ _ _ _ s reach _ r found confirmed)
  · rintro settings d rfl rfl c now nextUuid nextBytes32 s reach id r found confirmed
    obtain ⟨_, inv⟩ := Spec.inv_of_reachable (sound settings)
      (show (upkeep d).spec.inv (.fresh c now nextUuid nextBytes32) 0 from sound_fresh) reach
    exact Sound.final inv id r found confirmed

/-- Two confirmations are asked for, and a payout is confirmed with its receipt in the head block. -/
theorem confirmed_shallow : ∃ s r,
    (growingLedger (waiting 2) fun _ _ _ => True).Reachable .sample s ∧
      s.world.payouts.find? World.sampleId = some r ∧ r.status = .confirmed ∧
        ¬Settled (waiting 2) s.world.chain r :=
  unsettled_of_waiting (by decide)

end AvaSettle.Payouts.Finality
