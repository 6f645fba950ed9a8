import AvaSettle.Payins.Reorg

/-!
# How deep confirmed money is

A reconciliation confirms a pay-in only where all of its transfers are deep enough. It says that a pay-in
is underpaid or overpaid whatever their depth, and a manual acceptance, which starts from there, does not
look at the depth either.
-/

namespace AvaSettle.Payins.Depth
open Async
open Blockchain Reorg
open Data (Table)

/-! ## Sequential runs -/

/-- The pay-in services, over a chain that only grows. -/
abbrev growing (d : Deployment) : Machine Api World := payInLedger d Advances fun _ _ _ => True

/-- A step of a sequential run on a pay-in: something that leaves what the row is judged by, or a
    reconciliation or a manual acceptance, from its beginning to its end. -/
inductive Turn (d : Deployment) (id : Uuid) (may : World → Prop) : World → World → Prop where
  | elsewhere {w w'} (same : (w'.payins.find? id).map judged = (w.payins.find? id).map judged)
      (chain : Advances w.chain w'.chain) : Turn d id may w w'
  | reconcile {w w' context r h}
      (run : (growing d).Runs (growing d).Alone (reconcilePayIn d id context) w [] r w' h) :
      Turn d id may w w'
  | accept {w w' dto context r h} (allowed : may w)
      (run : (growing d).Runs (growing d).Alone (acceptPayIn id dto context) w [] r w' h) :
      Turn d id may w w'

/-- Every transfer is deep enough below the head that the last reconciliation has observed. -/
def Deep (d : Deployment) (r : PayInRecord) : Prop :=
  ∃ n, r.lastScannedBlock = some n ∧ ∀ t ∈ r.transfers, t.blockNumber + d.minConfirmations ≤ n

/-- A pay-in that can be accepted has been paid in transfers that are deep enough. -/
def Ready (d : Deployment) (id : Uuid) (w : World) : Prop :=
  ∀ r, w.payins.find? id = some r → r.status = .underpaid ∨ r.status = .overpaid → Deep d r

/-- The row is in order, and deep enough if it is confirmed. -/
structure Sound (d : Deployment) (id : Uuid) (w : World) : Prop where
  chain : ChainOk w.chain
  row : ∀ r, w.payins.find? id = some r → RowOk True d w.chain r ∧ (r.status = .confirmed → Deep d r)

/-- The row keeps what it is judged by, and the chain grows. -/
structure Kept (id : Uuid) (w w' : World) : Prop where
  row : (w'.payins.find? id).map judged = (w.payins.find? id).map judged
  chain : Advances w.chain w'.chain

section
variable {d : Deployment} {id : Uuid} {context : RequestContext} {payin r r' : PayInRecord}
  {n : Nat} {w w' w₀ : World} {h : Hist Api} {α β : Type}

/-- The assertion outlasts moves of the chain. -/
lemma steady_kept : Steady Advances (Kept id) where
  refl _ := ⟨rfl, .refl⟩
  trans h₁ h₂ := ⟨h₂.row.trans h₁.row, h₁.chain.trans h₂.chain⟩
  env move := ⟨by rw [move.payins], move.chain⟩

/-- An operation on the side keeps what the row is judged by. -/
lemma kept_exec {c : Call} {b : c.Res} (aside : isAside c = true)
    (run : World.exec c w = some (b, w')) : Kept id w w' := by
  by_cases update : ∃ k p g, c = .payInUpdate k p g
  · obtain ⟨k, p, g, rfl⟩ := update
    cases run
    refine ⟨?_, .refl⟩
    change (Table.find? (Table.update _ _ _ _).2 id).map judged = _
    rw [Table.find?_update, Option.map_map]
    refine Option.map_congr fun r _ => ?_
    simp only [Function.comp_apply]
    split
    case isTrue => exact judged_of_sweepOnly aside
    case isFalse => rfl
  · have insert : ∀ r, c ≠ .payInInsert r := by
      rintro r rfl
      cases aside
    obtain ⟨payins, chain⟩ := exec_elsewhere insert (fun k p g eq => update ⟨k, p, g, eq⟩) run
    exact ⟨by rw [payins], chain ▸ .refl⟩

/-- Depth is judged by the judged columns. -/
lemma Deep.congr (same : judged r' = judged r) (deep : Deep d r) : Deep d r' := by
  obtain ⟨n, scanned, below⟩ := deep
  have books : tally r' = tally r := congrArg (fun j => j.2.1) same
  have transfers : r'.transfers = r.transfers := congrArg Tally.transfers books
  refine ⟨n, (congrArg Tally.lastScannedBlock books).trans scanned, ?_⟩
  rw [transfers]
  exact below

/-- The row that is there now was there before, with what it is judged by. -/
lemma Kept.found (kept : Kept id w w') (found : w'.payins.find? id = some r) :
    ∃ r₀, w.payins.find? id = some r₀ ∧ judged r = judged r₀ := by
  have same := kept.row
  rw [found, Option.map_some] at same
  obtain ⟨r₀, before, eq⟩ := Option.map_eq_some_iff.1 same.symm
  exact ⟨r₀, before, eq.symm⟩

/-- A ledger that is sound stays so as the row is kept. -/
lemma Sound.kept (sound : Sound d id w) (kept : Kept id w w') : Sound d id w' where
  chain := kept.chain.ok sound.chain
  row r found := by
    obtain ⟨r₀, before, same⟩ := kept.found found
    obtain ⟨ok, deep⟩ := sound.row r₀ before
    have status : r.status = r₀.status := congrArg (fun j => j.2.2.1) same
    constructor
    · exact (ok.congr same).advance fun _ => kept.chain
    · intro confirmed
      exact (deep (status.symm.trans confirmed)).congr same

/-- What a call has read stays ready as the row is kept. -/
lemma Ready.kept (ready : Ready d id w) (kept : Kept id w w') : Ready d id w' := by
  intro r found short
  obtain ⟨r₀, before, same⟩ := kept.found found
  have status : r.status = r₀.status := congrArg (fun j => j.2.2.1) same
  rw [status] at short
  exact (ready r₀ before short).congr same

/-- A ledger that is sound stays so as the chain grows. -/
lemma Sound.grown (sound : Sound d id w) (grown : Grown w w') : Sound d id w' :=
  sound.kept ⟨by rw [grown.payins], grown.chain⟩

/-! ## Operations on the side -/

/-- An operation on the side leaves the row as sound as it was. -/
lemma wp_calm {p : Method α} (aside : Aside p) (sound : Sound d id w) :
    (growing d).wp (growing d).Alone p (fun _ w _ => Sound d id w) w h :=
  Machine.wp_uses (R := fun w _ => Sound d id w) (fun _ _ _ calm sound =>
    steady_kept.leads (kept_exec calm) fun _ _ kept => sound.kept kept) aside sound

/-- A part on the side, and what follows it. -/
lemma wp_calm_bind {p : Method α} {f : α → Method β} (aside : Aside p) (sound : Sound d id w)
    (next : ∀ b w h, Sound d id w →
      (growing d).wp (growing d).Alone (f b) (fun _ w _ => Sound d id w) w h) :
    (growing d).wp (growing d).Alone (p >>= f) (fun _ w _ => Sound d id w) w h :=
  Machine.wp_bind_of (wp_calm aside sound) next fun _ _ _ sound => sound

/-! ## Reconciliation -/

/-- The write of a reconciliation leaves the row in order. -/
lemma sound_update {new : List PayInTransferRecord} {expired : Bool} {now : Timestamp}
    {b : Option PayInRecord} (sound : Sound d id w₀) (row : w₀.payins.find? id = some payin)
    (head : n ≤ w₀.chain.head) (found : Reorg.Found w₀ payin d n new w h)
    (run : World.exec (.payInUpdate id (reconcilePatch d payin (mergeTransfers payin.transfers new) n
      (reconciledStatus d payin (mergeTransfers payin.transfers new) n expired) now) {}) w =
        some (b, w')) : Sound d id w' := by
  have before := sound.grown found.grown
  have there : w.payins.find? id = some payin := found.grown.payins ▸ row
  have real (x) (mem : x ∈ new) : x ∈ matching d w.chain (account payin) :=
    found.grown.chain.mem_matching ((found.exactly x).1 mem).1
  cases run
  refine ⟨before.chain, fun r after => ?_⟩
  obtain rfl : r = (reconcilePatch d payin (mergeTransfers payin.transfers new) n
      (reconciledStatus d payin (mergeTransfers payin.transfers new) n expired) now).applyTo w.now
        payin := by
    refine Option.some.inj (after.symm.trans ((Table.find?_update w.payins id _ _ id).trans ?_))
    rw [there, Option.map_some, if_pos (by simp [PayInUpdateGuard.holds])]
    rfl
  constructor
  · refine .reconciled (fun _ => before.chain) (before.row payin there).1 rfl (fun _ => real)
      (fun _ => head.trans found.grown.chain.head) fun _ start x mem above below => ?_
    refine (found.exactly x).2 ⟨(mem_matching_grown found.grown (by omega)).1 mem, ?_, by omega⟩
    rwa [scanStart_of_pos (start.trans_le (startBlock_le_scanFromBlock payin))]
  · -- only the confirmed branch of the classification looks at the depth
    intro confirmed
    have paid := reconciledStatus_eq_confirmed_iff.1 confirmed
    refine ⟨n, rfl, fun t mem => ?_⟩
    have deep := deep_of_enoughConfirmations paid.deep mem
    omega

/-- What follows the write keeps the ledger sound. -/
lemma wp_announceConfirmed {confirmed : Bool} (sound : Sound d id w) :
    (growing d).wp (growing d).Alone (announceConfirmed d id context payin confirmed r)
      (fun _ w _ => Sound d id w) w h := by
  unfold announceConfirmed
  split
  case isFalse => exact sound
  case isTrue =>
    refine wp_calm_bind aside_enqueue sound fun _ w h sound => ?_
    split
    case isFalse => exact sound
    case isTrue => exact sound

/-- What follows the scan. -/
lemma wp_writeReconciled {new : List PayInTransferRecord} (sound : Sound d id w₀)
    (row : w₀.payins.find? id = some payin) (head : n ≤ w₀.chain.head)
    (found : Reorg.Found w₀ payin d n new w h) :
    (growing d).wp (growing d).Alone
      (writeReconciled d id context payin n (mergeTransfers payin.transfers new))
      (fun _ w _ => Sound d id w) w h := by
  refine steady_grown.wp (c := .clock) (grown_exec rfl)
    (fun _ _ _ grown => (sound.grown found.grown).grown grown) fun _ now w₁ _ grown _ => ?_
  have found : Reorg.Found w₀ payin d n new w₁ (h ++ [⟨.clock, .done now⟩]) :=
    found.move grown (Data.findSome?_concat_of_some found.told)
  refine Machine.wp_bind_of (P := fun r w h => Sound d id w ∧ ∀ b : Bool, r = .ok b →
    Reorg.Found w₀ payin d n new w h) ?_ (fun expired w₂ h₂ post => ?_) fun _ _ _ post => post.1
  · have ended {w h} (found : Reorg.Found w₀ payin d n new w h) {r : Except Exception Bool} :
        Sound d id w ∧ ∀ b, r = .ok b → Reorg.Found w₀ payin d n new w h :=
      ⟨sound.grown found.grown, fun _ _ => found⟩
    unfold readExpired
    split
    case h_1 => exact ended found
    case h_2 =>
      exact steady_grown.wp (c := .clock) (grown_exec rfl)
        (fun _ _ _ grown => ⟨(sound.grown found.grown).grown grown, nofun⟩)
        fun _ _ _ _ grown _ => ended (found.move grown (Data.findSome?_concat_of_some found.told))
  · have found := post.2 expired rfl
    refine Machine.wp_bind (Machine.wp_await fun w₃ o w₄ move reply _ => ?_)
    have found := found.move (steady_grown.of_alone move) found.told
    cases o with
    | refused e =>
      obtain ⟨-, rfl⟩ := reply
      exact sound.grown found.grown
    | lost b e => exact sound_update sound row head found reply.1
    | done b =>
      have sound := sound_update sound row head found reply
      refine Machine.wp_bind (Machine.wp_orThrow (fun updated _ => ?_) fun _ => sound)
      refine wp_calm_bind (aside_request rfl) sound fun _ w h sound => ?_
      refine wp_calm_bind ?_ sound fun _ w h sound => ?_
      · unfold announceDetected
        split
        case isTrue => exact aside_enqueue
        case isFalse => exact Prog.uses_pure _
      · exact Machine.wp_bind_of (wp_announceConfirmed sound)
          (fun _ w h sound => wp_calm quiet_toResponse.aside sound) fun _ _ _ sound => sound

/-- A reconciliation leaves the row in order. -/
lemma wp_reconcile (sound : Sound d id w) :
    (growing d).wp (growing d).Alone (reconcilePayIn d id context) (fun _ w _ => Sound d id w) w
      [] := by
  refine Machine.wp_bind (steady_grown.wp (c := .payInFindById id context.clientId) (grown_exec rfl)
    (fun _ _ _ grown => sound.grown grown) fun w₁ b w₂ waiting grown run => ?_)
  have read := (Prod.mk.inj (Option.some.inj run)).1
  have sound := sound.grown grown
  refine Machine.wp_orThrow (fun payin eq => ?_) fun _ => sound
  rw [eq] at read
  obtain ⟨there, -⟩ := Option.filter_eq_some_iff.1 read
  have row : w₂.payins.find? id = some payin := by rw [grown.payins, ← waiting.payins, there]
  dsimp only
  split
  case isTrue => exact wp_calm quiet_toResponse.aside sound
  case isFalse =>
    refine steady_grown.wp (c := .getBlockNumber) (grown_exec rfl) (fun _ _ _ grown => sound.grown grown)
      fun w₃ n w₄ _ later run => ?_
    have sound := sound.grown later
    have told : Told n [⟨.payInFindById id context.clientId, .done b⟩, ⟨.getBlockNumber, .done n⟩] := rfl
    have head : n ≤ w₄.chain.head := by
      cases run
      exact sound.chain.reported
    refine Machine.wp_bind_of (Machine.wp_and (Reorg.wp_findPayInTransfers told head)
      (wp_calm quiet_findPayInTransfers.aside sound)) (fun new w₅ h₅ scanned => ?_)
      fun _ _ _ scanned => scanned.2
    exact wp_writeReconciled sound (later.payins ▸ row) head scanned.1

/-! ## Manual acceptance -/

/-- A manual acceptance of a pay-in whose transfers are deep enough leaves the row in order. -/
lemma wp_accept {dto : AcceptPayInDto} (sound : Sound d id w) (ready : Ready d id w) :
    (growing d).wp (growing d).Alone (acceptPayIn id dto context) (fun _ w _ => Sound d id w) w
      [] := by
  have both : Steady Advances (Kept id) := steady_kept
  refine Machine.wp_bind_of (P := fun _ w _ => Sound d id w ∧ Ready d id w)
    (Machine.wp_uses (R := fun w _ => Sound d id w ∧ Ready d id w) (fun _ _ _ aside before =>
      both.leads (kept_exec aside) fun _ _ kept => ⟨before.1.kept kept, before.2.kept kept⟩)
      quiet_requirePayIn.aside ⟨sound, ready⟩) (fun payin w h before => ?_) fun _ _ _ before => before.1
  refine both.wp (c := .clock) (kept_exec rfl) (fun _ _ _ kept => before.1.kept kept)
    fun w₁ now w₂ _ kept _ => ?_
  obtain ⟨sound, ready⟩ : Sound d id w₂ ∧ Ready d id w₂ := ⟨before.1.kept kept, before.2.kept kept⟩
  refine Machine.wp_bind (Machine.wp_await fun w₃ o w₄ move reply _ => ?_)
  have waited := both.of_alone move
  have sound := sound.kept waited
  have ready := ready.kept waited
  have written {b} (run : World.exec (.payInUpdate id (acceptPatch dto payin now) acceptGuard) w₃ =
      some (b, w₄)) : Sound d id w₄ := by
    cases run
    refine ⟨sound.chain, fun r after => ?_⟩
    obtain ⟨r₀, there, rfl⟩ := Option.map_eq_some_iff.1
      ((Table.find?_update w₃.payins id _ _ id).symm.trans after)
    split
    case isFalse => exact sound.row r₀ there
    case isTrue holds =>
      -- the guard: the row is underpaid or overpaid when it is written
      have short : r₀.status = .underpaid ∨ r₀.status = .overpaid := by
        simpa [PayInUpdateGuard.holds, acceptGuard] using holds
      exact ⟨(sound.row r₀ there).1.accepted, fun _ => ready r₀ there short⟩
  cases o with
  | refused e =>
    obtain ⟨-, rfl⟩ := reply
    exact sound
  | lost b e => exact written reply.1
  | done b =>
    cases b with
    | none =>
      refine wp_calm_bind quiet_requirePayIn.aside (written reply) fun current w h sound => ?_
      split
      case isTrue => exact wp_calm quiet_toResponse.aside sound
      case isFalse => exact sound
    | some updated =>
      refine wp_calm_bind (aside_request rfl) (written reply) fun _ w h sound => ?_
      refine wp_calm_bind aside_enqueue sound fun _ w h sound => ?_
      exact wp_calm quiet_toResponse.aside sound

/-! ## Runs -/

/-- A step of a run leaves the row in order. -/
lemma Sound.turn (sound : Sound d id w) (turn : Turn d id (Ready d id) w w') : Sound d id w' := by
  cases turn with
  | elsewhere same chain => exact sound.kept ⟨same, chain⟩
  | reconcile run => exact Machine.wp_sound run (wp_reconcile sound)
  | accept ready run => exact Machine.wp_sound run (wp_accept sound ready)

/-- A run leaves the row in order. -/
lemma Sound.turns (sound : Sound d id w)
    (turns : Relation.ReflTransGen (Turn d id (Ready d id)) w w') : Sound d id w' := by
  induction turns with
  | refl => exact sound
  | tail _ turn ih => exact ih.turn turn

end

/-- In every sequential run of reconciliations and manual acceptances on a new pay-in, over a chain that
    only grows, where it is accepted only once its transfers are deep enough: a confirmed pay-in counts
    transfers of the chain that are all at least `minConfirmations` below the head that the last
    reconciliation has observed. -/
theorem confirmed_deep {d : Deployment} {id : Uuid} {w₀ w : World} {r₀ r : PayInRecord}
    (ok : ChainOk w₀.chain) (created : w₀.payins.find? id = some r₀) (new : New r₀)
    (run : Relation.ReflTransGen (Turn d id (Ready d id)) w₀ w)
    (found : w.payins.find? id = some r) (confirmed : r.status = .confirmed) :
    r.receivedAmountAtomic = totalReceivedAtomic r.transfers ∧ ∃ n, r.lastScannedBlock = some n ∧
      ∀ t ∈ r.transfers, t ∈ matching d w.chain (account r) ∧
        t.blockNumber + d.minConfirmations ≤ n := by
  have start : Sound d id w₀ := by
    refine ⟨ok, fun r found => ?_⟩
    rw [created] at found
    cases found
    exact ⟨new.ok, fun confirmed => by rw [new.status] at confirmed; cases confirmed⟩
  obtain ⟨books, deep⟩ := (start.turns run).row r found
  obtain ⟨n, scanned, below⟩ := deep confirmed
  exact ⟨books.total, n, scanned, fun t mem => ⟨(books.books trivial).real t mem, below t mem⟩⟩

/-! ## Concrete runs -/

/-- A ledger with a pay-in of one USDC, half of which has arrived in block 2, where the client reports
    some block as the head. -/
def halfPaid (reportedHead : Nat) : World :=
  let arrived := arrive [halfTransfer] []
    { World.sample with
      payins := ⟨[newPayIn .sample (sampleDto .derivedAddress) .sample World.sampleId 0 1000000 1
        .derivedAddress none none 0 sampleDeposit], List.nodup_singleton _⟩ }
  { arrived with chain := { arrived.chain with reportedHead } }

/-- The pay-in is reconciled, and then accepted. -/
def thenAccepted (reportedHead : Nat) (between after : PayInRecord → Bool) : Bool :=
  let services := quick Advances (Entry .sample) fun _ _ _ => True
  (services.play Machine.always (reconcilePayIn .sample World.sampleId .sample) (.replicate 8 .done)
    (halfPaid reportedHead) []).any fun q => (q.2.1.payins.find? World.sampleId).any between &&
      (services.play Machine.always (acceptPayIn World.sampleId ⟨none⟩ .sample) (.replicate 8 .done)
        q.2.1 []).any fun q => (q.2.1.payins.find? World.sampleId).any after

/-- What a reconciliation and an acceptance are evaluated to is a run. -/
lemma exists_accepted (may : World → Prop) (reportedHead : Nat) (between after : PayInRecord → Bool)
    (allowed : ∀ w r, w.payins.find? World.sampleId = some r → between r = true → may w)
    (res : thenAccepted reportedHead between after = true) :
    ∃ w r, Relation.ReflTransGen (Turn .sample World.sampleId may) (halfPaid reportedHead) w ∧
      w.payins.find? World.sampleId = some r ∧ after r = true := by
  simp only [thenAccepted, quick_eq] at res
  obtain ⟨⟨x₁, w₁, h₁⟩, first, res⟩ := (Option.any_eq_true _ _).1 res
  obtain ⟨reconciled, res⟩ := Bool.and_eq_true_iff.1 res
  obtain ⟨r₁, found₁, holds⟩ := (Option.any_eq_true _ _).1 reconciled
  obtain ⟨⟨x₂, w₂, h₂⟩, second, res⟩ := (Option.any_eq_true _ _).1 res
  obtain ⟨r₂, found₂, res⟩ := (Option.any_eq_true _ _).1 res
  refine ⟨w₂, r₂, ?_, found₂, res⟩
  have alone (h : Hist Api) (w : World) : (growing .sample).Alone h w w := .refl
  have reconcile := Machine.runs_of_play (fun _ _ _ _ => trivial) alone first
  have accept := Machine.runs_of_play (fun _ _ _ _ => trivial) alone second
  exact (Relation.ReflTransGen.single (.reconcile reconcile)).tail
    (.accept (allowed w₁ r₁ found₁ holds) accept)

/-- The pay-in of the concrete run is new. -/
lemma new_halfPaid (reportedHead : Nat) : ∃ r,
    (halfPaid reportedHead).payins.find? World.sampleId = some r ∧ New r :=
  ⟨_, rfl, by decide, rfl, rfl⟩

/-- Half of the amount has been paid in block 2. The pay-in is accepted once block 4 has been
    observed. -/
theorem confirmed_deep_of_underpaid : ∃ (w : World) (r : PayInRecord) (n : Nat),
    w.payins.find? World.sampleId = some r ∧ r.status = .confirmed ∧
    r.receivedAmountAtomic = 500000 ∧ r.lastScannedBlock = some n ∧
      ∀ t ∈ r.transfers, t.blockNumber + 1 ≤ n := by
  obtain ⟨w, r, run, found, res⟩ := exists_accepted (Ready .sample World.sampleId) 4
    (fun r => decide (r.lastScannedBlock = some 4) &&
      r.transfers.all fun t => decide (t.blockNumber + 1 ≤ 4))
    (fun r => decide (r.status = .confirmed ∧ r.receivedAmountAtomic = 500000))
    (fun w r found res r' found' _ => by
      obtain rfl := Option.some.inj (found.symm.trans found')
      rw [Bool.and_eq_true, decide_eq_true_eq, List.all_eq_true] at res
      exact ⟨4, res.1, fun t mem => of_decide_eq_true (res.2 t mem)⟩) (by decide +kernel)
  obtain ⟨confirmed, received⟩ := of_decide_eq_true res
  obtain ⟨r₀, created, new⟩ := new_halfPaid 4
  obtain ⟨-, n, scanned, below⟩ := confirmed_deep ⟨by decide, by decide⟩ created new run found confirmed
  exact ⟨w, r, n, found, confirmed, received, scanned, fun t mem => (below t mem).2⟩

/-- The head that a reconciliation observes is the block of the transfer. It finds the pay-in underpaid,
    and a manual acceptance confirms it. -/
theorem confirmed_at_head : ∃ (w₀ w : World) (r₀ r : PayInRecord) (n : Nat), ChainOk w₀.chain ∧
    w₀.payins.find? World.sampleId = some r₀ ∧ New r₀ ∧
    Relation.ReflTransGen (Turn .sample World.sampleId fun _ => True) w₀ w ∧
    w.payins.find? World.sampleId = some r ∧ r.status = .confirmed ∧
    r.receivedAmountAtomic = totalReceivedAtomic r.transfers ∧ r.lastScannedBlock = some n ∧
      ∃ t ∈ r.transfers, ¬t.blockNumber + Deployment.sample.minConfirmations ≤ n := by
  obtain ⟨w, r, run, found, res⟩ := exists_accepted (fun _ => True) 2 (fun _ => true)
    (fun r => decide (r.status = .confirmed ∧ r.receivedAmountAtomic = totalReceivedAtomic r.transfers ∧
      r.lastScannedBlock = some 2) && r.transfers.any fun t => decide (¬t.blockNumber + 1 ≤ 2))
    (fun _ _ _ _ => trivial) (by decide +kernel)
  rw [Bool.and_eq_true, decide_eq_true_eq, List.any_eq_true] at res
  obtain ⟨⟨confirmed, total, scanned⟩, t, mem, shallow⟩ := res
  obtain ⟨r₀, created, new⟩ := new_halfPaid 2
  exact ⟨halfPaid 2, w, r₀, r, 2, ⟨by decide, by decide⟩, created, new, run, found, confirmed, total,
    scanned, t, mem, of_decide_eq_true shallow⟩

end AvaSettle.Payins.Depth
