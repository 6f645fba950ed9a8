import Mathlib.Algebra.Order.Group.Multiset
import AvaSettle.Model.Frame
import AvaSettle.Payins.Calm
import AvaSettle.Payins.Runs

/-!
# Deposit addresses

A pay-in with an address of its own claims an index from the counter of the database, and derives the
address from it. The index is claimed before the row is inserted, so that an index may be lost to a
replay, an error or a crash. The indexes that calls have claimed and not used yet, and those of the rows,
are distinct and below the counter.
-/

namespace AvaSettle.Payins.Derivation
open Async
open Data (Table)
open Blockchain

/-- The calls that create pay-ins, on the deployments in `D`. -/
inductive Entry (D : Deployment → Prop) : Method Unit → Prop where
  | createPayIn {d dto context} (here : D d) : Entry D (createPayIn d dto context).discard

/-- The creation of pay-ins on any number of instances, with every operation free to fail. -/
abbrev creations (D : Deployment → Prop) (chain : Chain → Chain → Prop) : Machine Api World :=
  machine chain (Entry D) fun _ _ _ => True

/-- The pay-ins with an address of their own. -/
def derived (w : World) : List PayInRecord :=
  w.payins.select fun r => decide (r.collectionMode = .derivedAddress)

/-- Their indexes. -/
def indexes (w : World) : Multiset ℤ := ↑((derived w).map PayInRecord.derivationIndex)

/-- The indexes of the rows and those that calls have claimed. -/
structure Inv (D : Deployment → Prop) (w : World) (a : Multiset ℤ) : Prop where
  /-- No index is used twice. -/
  nodup : (indexes w + a).Nodup
  /-- The counter is above all of them. -/
  below : ∀ i ∈ indexes w + a, 0 ≤ i ∧ i < w.payInIndex
  /-- The address of a row is that of its index. -/
  address : ∀ r ∈ derived w, ∃ d, D d ∧
    derivePayInAddress d r.derivationIndex.toNat = .ok r.depositAddress

section
variable {D : Deployment → Prop} {d : Deployment} {chain : Chain → Chain → Prop} {w w' : World}
  {a f : Multiset ℤ} {r : PayInRecord} {o : Option PayInRecord}

/-- The invariant is one of rows and counter. -/
lemma Inv.congr (payins : w'.payins = w.payins) (payInIndex : w.payInIndex ≤ w'.payInIndex)
    (inv : Inv D w a) : Inv D w' a := by
  have rows : derived w' = derived w := by rw [derived, derived, payins]
  have same : indexes w' = indexes w := by rw [indexes, indexes, rows]
  refine ⟨same ▸ inv.nodup, fun i mem => ?_, rows ▸ inv.address⟩
  obtain ⟨nonneg, below⟩ := inv.below i (same ▸ mem)
  exact ⟨nonneg, below.trans_le (Int.ofNat_le.2 payInIndex)⟩

/-- A claimed index is given up. -/
lemma Inv.drop (inv : Inv D w (a + f)) : Inv D w f := by
  have le : indexes w + f ≤ indexes w + (a + f) := add_le_add_right (Multiset.le_add_left f a) _
  exact ⟨Multiset.nodup_of_le le inv.nodup, fun i mem => inv.below i (Multiset.mem_of_le le mem),
    inv.address⟩

/-- An index is claimed. -/
lemma Inv.claim (inv : Inv D w f) :
    Inv D { w with payInIndex := w.payInIndex + 1 } ({(w.payInIndex : ℤ)} + f) := by
  have same : indexes { w with payInIndex := w.payInIndex + 1 } = indexes w := rfl
  have shift : indexes w + ({(w.payInIndex : ℤ)} + f) = (w.payInIndex : ℤ) ::ₘ (indexes w + f) := by
    rw [Multiset.singleton_add, Multiset.add_cons]
  have fresh : (w.payInIndex : ℤ) ∉ indexes w + f := fun mem => (inv.below _ mem).2.false
  refine ⟨?_, fun i mem => ?_, inv.address⟩
  · rw [same, shift]
    exact Multiset.nodup_cons.2 ⟨fresh, inv.nodup⟩
  · rw [same, shift] at mem
    obtain rfl | mem := Multiset.mem_cons.1 mem
    · exact ⟨Int.natCast_nonneg _, by simp⟩
    · obtain ⟨nonneg, below⟩ := inv.below i mem
      exact ⟨nonneg, below.trans (by simp)⟩

/-- A claimed index is used for a row, or given up for a row that is there already. -/
lemma Inv.insert (mode : r.collectionMode = .derivedAddress) (here : D d)
    (address : derivePayInAddress d r.derivationIndex.toNat = .ok r.depositAddress)
    (run : w.insertPayIn r = some (o, w')) (inv : Inv D w ({r.derivationIndex} + f)) : Inv D w' f := by
  obtain ⟨-, rfl, -⟩ | ⟨t, -, rfl, inserted, -⟩ := World.insertPayIn_cases run
  · exact inv.drop
  · have rows : derived { w with payins := t } = derived w ++ [r] := by
      simp [derived, Table.select, Table.rows_insert inserted, mode]
    have moved : indexes { w with payins := t } + f = indexes w + ({r.derivationIndex} + f) := by
      rw [indexes, rows, List.map_append, ← Multiset.coe_add, add_assoc]
      rfl
    refine ⟨moved ▸ inv.nodup, fun i mem => inv.below i (moved ▸ mem), fun r' mem => ?_⟩
    rw [rows] at mem
    rcases List.mem_append.1 mem with mem | mem
    · exact inv.address r' mem
    · obtain rfl := List.mem_singleton.1 mem
      exact ⟨d, here, address⟩

/-- A row on the router has no index. -/
lemma Inv.insert_router (mode : r.collectionMode = .paymentRouter)
    (run : w.insertPayIn r = some (o, w')) (inv : Inv D w a) : Inv D w' a := by
  obtain ⟨-, rfl, -⟩ | ⟨t, -, rfl, inserted, -⟩ := World.insertPayIn_cases run
  · exact inv
  · have rows : derived { w with payins := t } = derived w := by
      simp [derived, Table.select, Table.rows_insert inserted, mode]
    have same : indexes { w with payins := t } = indexes w := by rw [indexes, indexes, rows]
    exact ⟨same ▸ inv.nodup, fun i mem => inv.below i (same ▸ mem), rows ▸ inv.address⟩

/-! ## Calls -/

/-- The claimed indexes of all calls are exclusive. -/
def spec (D : Deployment → Prop) (chain : Chain → Chain → Prop) :
    Spec (creations D chain) (Multiset ℤ) where
  inv := Inv D
  le _ _ := True
  good _ := True
  good_nil := trivial
  le_refl _ := trivial
  le_trans _ _ := trivial
  env inv move := ⟨inv.congr move.payins move.payInIndex.ge, trivial⟩

/-- What an operation does with the indexes that its call has claimed. -/
lemma op_of {c : Call} {h : Hist Api} (a' : c.Res → Multiset ℤ)
    (run : ∀ w f b w', Inv D w (a + f) → World.exec c w = some (b, w') → Inv D w' (a' b + f)) :
    (spec D chain).op c (fun o a₁ _ _ => ∀ b, o.answer = .ok b → a₁ = a' b) a w h := by
  intro w₁ f o w₂ _ inv reply _
  refine ⟨trivial, ?_⟩
  cases o with
  | done b =>
    refine ⟨a' b, run w₁ f b w₂ inv reply, trivial, fun b' eq => ?_⟩
    cases eq
    rfl
  | refused e =>
    obtain ⟨-, rfl⟩ := reply
    exact ⟨a, inv, trivial, nofun⟩
  | lost b e => exact ⟨a' b, run w₁ f b w₂ inv reply.1, trivial, nofun⟩

/-- The operation leaves the pay-ins and the counter alone. -/
def IsApart (c : Call) : Prop := c.writes ≠ some .payins ∧ c.writes ≠ some .payInIndex

/-- A clerical operation other than the counter leaves rows and counter. -/
lemma isApart_of_clerical {c : Call} (clerical : isClerical c = true)
    (other : c ≠ .claimNextPayInIndex) : IsApart c := by
  unfold IsApart
  cases c <;> simp_all [Call.writes, isClerical, isQuiet, isAside]

/-- Such an operation keeps the claims on indices. -/
lemma op_apart {c : Call} {h : Hist Api} (apart : IsApart c) :
    (spec D chain).op c (fun o a₁ _ _ => ∀ b, o.answer = .ok b → a₁ = a) a w h :=
  op_of (fun _ => a) fun _ _ _ _ inv run => inv.congr ((World.exec_frame run).payins apart.1)
    ((World.exec_frame run).payInIndex apart.2).ge

/-- A program of such operations leaves what is claimed alone. -/
lemma wp_apart {α : Type} {p : Method α} {h : Hist Api} (uses : p.Uses IsApart fun _ => True) :
    (spec D chain).wp p Spec.triv a w h := by
  have op {c : Call} {a : Multiset ℤ} {w : World} {h : Hist Api} (apart : IsApart c) :
      (spec D chain).op c (fun _ _ _ _ => True) a w h :=
    Spec.op_mono (fun _ _ _ _ _ => trivial) (op_apart apart)
  exact Spec.wp_mono (fun _ _ _ _ _ => trivial) (Spec.wp_uses (R := fun _ _ _ => True)
    (fun _ _ _ _ => trivial) (fun _ _ _ _ apart _ => op apart) (fun _ _ _ _ apart _ => op apart) uses
    trivial)

/-- What follows an operation whose answer is known to leave the share `a' b`. -/
lemma wp_request {c : Call} {β : Type} {k : c.Res → Method β} {h : Hist Api} (a' : c.Res → Multiset ℤ)
    (run : ∀ w f b w', Inv D w (a + f) → World.exec c w = some (b, w') → Inv D w' (a' b + f))
    (rest : ∀ b w h, (spec D chain).wp (k b) Spec.triv (a' b) w h) :
    (spec D chain).wp (request c >>= k) Spec.triv a w h := by
  refine Spec.wp_bind (Spec.wp_await (Spec.op_mono (fun o a₁ w h post => ?_) (op_of a' run)))
  cases answer : o.answer with
  | error e => trivial
  | ok b =>
    obtain rfl := post b answer
    exact rest b w h

/-- The same for an operation that leaves the pay-ins and the counter alone. -/
lemma wp_read {c : Call} {β : Type} {k : c.Res → Method β} {h : Hist Api} (apart : IsApart c)
    (rest : ∀ b w h, (spec D chain).wp (k b) Spec.triv a w h) :
    (spec D chain).wp (request c >>= k) Spec.triv a w h :=
  wp_request (fun _ => a) (fun _ _ _ _ inv run => inv.congr ((World.exec_frame run).payins apart.1)
    ((World.exec_frame run).payInIndex apart.2).ge) rest

/-- The insert of a row, from the indexes that it needs. -/
lemma wp_insertPayIn {context : RequestContext} {h : Hist Api}
    (insert : ∀ w f o w', Inv D w (a + f) → w.insertPayIn r = some (o, w') → Inv D w' (0 + f)) :
    (spec D chain).wp (insertPayIn context r) Spec.triv a w h := by
  unfold insertPayIn createOrGetExisting
  rw [Prog.bind_assoc]
  refine wp_request (fun _ => 0) insert fun inserted w h => wp_apart ?_
  refine Prog.uses_bind ?_ fun result => ?_
  · cases inserted with
    | some inserted => exact Prog.uses_pure _
    | none =>
      refine Prog.uses_bind (uses_clerical (fun _ => isApart_of_clerical) rfl nofun) fun _ => ?_
      exact Prog.uses_bind (Prog.uses_orThrow trivial) fun _ => Prog.uses_pure _
  · obtain ⟨record, existed⟩ := result
    have announce : (recordAudit .payinCreated record.id (toAuditActor context)
        [("externalId", .str record.externalId), ("depositAddress", .str record.depositAddress),
          ("derivationIndex", .num record.derivationIndex),
          ("collectionMode", .str record.collectionMode.text),
          ("routerInvoiceId", .ofOption record.routerInvoiceId),
          ("expectedAmount", .str record.expectedAmount), ("asset", .str record.asset.symbol)] >>=
        fun _ => toResponse record).Uses IsApart fun _ => True :=
      Prog.uses_bind (uses_clerical (fun _ => isApart_of_clerical) rfl nofun) fun _ =>
        uses_payInResponse fun _ => isApart_of_clerical
    cases existed with
    | true => exact uses_payInResponse fun _ => isApart_of_clerical
    | false =>
      dsimp only
      cases truthy context.idempotencyKey with
      | none => exact announce
      | some key =>
        exact Prog.uses_bind (uses_clerical (fun _ => isApart_of_clerical) rfl nofun) fun _ => announce

/-- A creation claims an index and stores it with its address. -/
lemma wp_createNewPayIn {dto : CreatePayInDto} {context : RequestContext} {h : Hist Api} (here : D d) :
    (spec D chain).wp (createNewPayIn d dto context) Spec.triv 0 w h := by
  refine Spec.wp_bind (Spec.wp_ofExcept.2 ?_)
  cases parseAmount d dto.amount (d.getAssetConfig dto.asset).decimals with
  | error e => trivial
  | ok amount =>
    dsimp only [Spec.seq]
    split
    case h_1 =>
      refine Spec.wp_bind (Spec.wp_ofExcept.2 ?_)
      cases requirePaymentRouterAddress d with
      | error e => trivial
      | ok router =>
        refine wp_read ⟨nofun, nofun⟩ fun start w h => ?_
        refine wp_read ⟨nofun, nofun⟩ fun now w h => ?_
        refine wp_read ⟨nofun, nofun⟩ fun id w h => ?_
        exact wp_insertPayIn fun _ _ _ _ inv run => inv.insert_router rfl run
    case h_2 =>
      refine wp_read ⟨nofun, nofun⟩ fun start w h => ?_
      refine wp_read ⟨nofun, nofun⟩ fun now w h => ?_
      refine wp_request (fun index => {(index : ℤ)}) (fun w f b w' inv run => ?_) fun index w h => ?_
      · cases run
        rw [zero_add] at inv
        exact inv.claim
      · refine Spec.wp_bind (Spec.wp_ofExcept.2 ?_)
        cases address : derivePayInAddress d index with
        | error e => trivial
        | ok depositAddress =>
          refine wp_read ⟨nofun, nofun⟩ fun id w h => ?_
          refine wp_insertPayIn fun w f o w' inv run => ?_
          rw [zero_add]
          refine Inv.insert rfl here ?_ run inv
          change derivePayInAddress d (index : ℤ).toNat = .ok depositAddress
          rw [Int.toNat_natCast, address]

/-- Every creation keeps the invariant. -/
lemma sound : (spec D chain).Sound := by
  intro p called w
  cases called with
  | @createPayIn d dto context here =>
    refine Spec.wp_bind_of (P := Spec.triv) ?_ (fun _ _ _ _ _ => trivial) fun _ _ _ _ _ => trivial
    unfold createPayIn
    split
    case h_1 => exact wp_createNewPayIn here
    case h_2 key =>
      unfold findByIdempotencyKey
      rw [Prog.bind_assoc]
      refine wp_read ⟨nofun, nofun⟩ fun recordId w h => ?_
      cases recordId with
      | none => exact wp_createNewPayIn here
      | some recordId =>
        refine wp_read ⟨nofun, nofun⟩ fun prior w h => ?_
        cases prior with
        | none => exact wp_createNewPayIn here
        | some prior => exact wp_apart (uses_payInResponse fun _ => isApart_of_clerical)

/-! ## The router -/

/-- The operation does not move the counter. -/
def LeavesCounter (c : Call) : Prop :=
  ∀ w b w', World.exec c w = some (b, w') → w'.payInIndex = w.payInIndex

/-- An operation that writes elsewhere leaves the counter. -/
lemma leavesCounter_of {c : Call} (index : c.writes ≠ some .payInIndex) : LeavesCounter c :=
  fun _ _ _ run => (World.exec_frame run).payInIndex index

/-- A clerical operation other than the counter leaves it. -/
lemma leavesCounter_of_clerical {c : Call} (clerical : isClerical c = true)
    (other : c ≠ .claimNextPayInIndex) : LeavesCounter c :=
  leavesCounter_of (isApart_of_clerical clerical other).2

/-- The creation of a router pay-in leaves the counter. -/
lemma leavesCounter_createNewPayIn {dto : CreatePayInDto} {context : RequestContext}
    (mode : dto.collectionMode = some .paymentRouter) :
    (createNewPayIn d dto context).Uses LeavesCounter fun _ => True := by
  refine Prog.uses_bind (Prog.uses_ofExcept fun _ _ => trivial) fun amount => ?_
  rw [mode]
  refine Prog.uses_bind (Prog.uses_ofExcept fun _ _ => trivial) fun router => ?_
  refine Prog.uses_bind (uses_clerical (fun _ => leavesCounter_of_clerical) rfl nofun) fun start => ?_
  refine Prog.uses_bind (uses_clerical (fun _ => leavesCounter_of_clerical) rfl nofun) fun now => ?_
  refine Prog.uses_bind (uses_clerical (fun _ => leavesCounter_of_clerical) rfl nofun) fun id => ?_
  exact uses_insertPayIn (fun _ => leavesCounter_of_clerical) (leavesCounter_of nofun)

/-- So does the request for one. -/
lemma leavesCounter_createPayIn {dto : CreatePayInDto} {context : RequestContext}
    (mode : dto.collectionMode = some .paymentRouter) :
    (createPayIn d dto context).Uses LeavesCounter fun _ => True := by
  unfold createPayIn
  split
  case h_1 => exact leavesCounter_createNewPayIn mode
  case h_2 key =>
    refine Prog.uses_bind (Prog.uses_bind
      (uses_clerical (fun _ => leavesCounter_of_clerical) rfl nofun) fun recordId => ?_) fun prior => ?_
    · cases recordId with
      | none => exact Prog.uses_pure _
      | some id => exact uses_clerical (fun _ => leavesCounter_of_clerical) rfl nofun
    · cases prior with
      | none => exact leavesCounter_createNewPayIn mode
      | some prior => exact uses_payInResponse fun _ => leavesCounter_of_clerical

end

/-! ## Runs -/

/-- Two indexes have different addresses. -/
def Injective (derive : ℕ → Except Exception Hex) : Prop :=
  ∀ i j address, derive i = .ok address → derive j = .ok address → i = j

/-- The pay-ins with an address of their own have different indexes, all below the counter; where the
    deployments derive addresses alike, and different ones from different indexes, they have different
    addresses; and the creation of a pay-in on the router leaves the counter alone. -/
theorem indexes_claimed_once {D : Deployment → Prop} {chain : Chain → Chain → Prop} {c : Chain}
    {now : Timestamp} {nextUuid : Uuid} {nextBytes32 : Hex} {s : Sys Api World}
    (reach : (creations D chain).Reachable (.fresh c now nextUuid nextBytes32) s) :
    (∀ r ∈ s.world.payins.rows, r.collectionMode = .derivedAddress →
      0 ≤ r.derivationIndex ∧ r.derivationIndex < s.world.payInIndex) ∧
    (∀ r ∈ s.world.payins.rows, ∀ r' ∈ s.world.payins.rows, r.collectionMode = .derivedAddress →
      r'.collectionMode = .derivedAddress → r.derivationIndex = r'.derivationIndex → r = r') ∧
    (∀ derive, Injective derive → (∀ d, D d → ∀ i, derivePayInAddress d i = derive i) →
      ∀ r ∈ s.world.payins.rows, ∀ r' ∈ s.world.payins.rows, r.collectionMode = .derivedAddress →
        r'.collectionMode = .derivedAddress → r.depositAddress = r'.depositAddress → r = r') ∧
    ∀ d dto context, dto.collectionMode = some .paymentRouter →
      (createPayIn d dto context).Uses LeavesCounter fun _ => True := by
  have init : Inv D (.fresh c now nextUuid nextBytes32) 0 :=
    ⟨by simp [indexes, derived, World.fresh, Table.select, Table.empty],
      by simp [indexes, derived, World.fresh, Table.select, Table.empty],
      by simp [derived, World.fresh, Table.select, Table.empty]⟩
  obtain ⟨a, inv⟩ : ∃ a, Inv D s.world a := Spec.inv_of_reachable (σ := spec D chain) sound init reach
  have le : indexes s.world ≤ indexes s.world + a := Multiset.le_add_right _ _
  have mem {r : PayInRecord} (row : r ∈ s.world.payins.rows) (mode : r.collectionMode = .derivedAddress) :
      r ∈ derived s.world := List.mem_filter.2 ⟨row, decide_eq_true mode⟩
  have below {r : PayInRecord} (row : r ∈ derived s.world) :
      0 ≤ r.derivationIndex ∧ r.derivationIndex < s.world.payInIndex :=
    inv.below _ (Multiset.mem_of_le le (Multiset.mem_coe.2 (List.mem_map_of_mem row)))
  have distinct {r r' : PayInRecord} (row : r ∈ derived s.world) (row' : r' ∈ derived s.world)
      (same : r.derivationIndex = r'.derivationIndex) : r = r' :=
    List.inj_on_of_nodup_map (Multiset.coe_nodup.1 (Multiset.nodup_of_le le inv.nodup)) row row' same
  refine ⟨fun r row mode => below (mem row mode), fun r row r' row' mode mode' => distinct (mem row mode)
    (mem row' mode'), fun derive injective alike r row r' row' mode mode' same => ?_, ?_⟩
  · obtain ⟨d, here, address⟩ := inv.address r (mem row mode)
    obtain ⟨d', here', address'⟩ := inv.address r' (mem row' mode')
    rw [alike d here] at address
    rw [alike d' here', ← same] at address'
    have index := injective _ _ _ address address'
    have nonneg := (below (mem row mode)).1
    have nonneg' := (below (mem row' mode')).1
    exact distinct (mem row mode) (mem row' mode') (by omega)
  · exact fun d dto context => leavesCounter_createPayIn

/-- The first two addresses of the mnemonic of the concrete runs. -/
def sampleDerive : ℕ → Except Exception Hex
  | 0 => .ok "0xf39Fd6e51aad88F6F4ce6aB8827279cffFb92266"
  | 1 => .ok "0x70997970C51812dc3A010C7d01b50e0d17dc79C8"
  | _ => .error (.error "Invalid index.")

/-- A deployment that derives them. -/
def derivingDeployment : Deployment :=
  { Deployment.sample with
    mnemonicToAddress := fun _ _ index =>
      match index with
      | 0 => .ok "0xf39Fd6e51aad88F6F4ce6aB8827279cffFb92266"
      | 1 => .ok "0x70997970C51812dc3A010C7d01b50e0d17dc79C8"
      | _ => .error "Invalid index." }

/-- The sample derivation gives each index its own address. -/
lemma injective_sampleDerive : Injective sampleDerive := by
  intro i j address derive derive'
  match i, j with
  | 0, 0 | 1, 1 => rfl
  | 0, 1 | 1, 0 => exact absurd (Except.ok.inj (derive.trans derive'.symm)) (by decide)
  | _ + 2, _ => cases derive
  | 0, _ + 2 | 1, _ + 2 => cases derive'

/-- The schedule on which two creations claim their indexes before either inserts its row. -/
def crossed : List (Choice Api World) :=
  .enter (createPayIn derivingDeployment (sampleDto .derivedAddress) .sample).discard ::
    .enter (createPayIn derivingDeployment
      { sampleDto .derivedAddress with externalId := "inv-2" } .sample).discard ::
      (Choice.steps 0 3 ++ Choice.steps 1 3 ++ Choice.steps 0 2 ++
        .env (redraw "00000000-0000-4000-8000-000000000001") :: Choice.steps 1 2)

/-- Two pay-ins that are created side by side. -/
theorem indexes_claimed_once_of_crossed : ∃ s,
    (creations (fun d => d = derivingDeployment) Advances).Reachable .sample s ∧
      s.world.payins.rows.length = 2 ∧
      (∀ r ∈ s.world.payins.rows, ∀ r' ∈ s.world.payins.rows, r.collectionMode = .derivedAddress →
        r'.collectionMode = .derivedAddress → r.depositAddress = r'.depositAddress → r = r') := by
  obtain ⟨s, reach, two⟩ := Machine.reachable_of_run
    (M := creations (fun d => d = derivingDeployment) Advances) (w := .sample) Machine.always crossed
    (fun s => decide (s.world.payins.rows.length = 2)) (fun _ _ _ _ => trivial) (by
      simp only [crossed, List.forall_mem_cons, List.forall_mem_append]
      exact ⟨.createPayIn rfl, .createPayIn rfl, ⟨⟨Choice.legal_steps, Choice.legal_steps⟩,
        Choice.legal_steps⟩, env_redraw, Choice.legal_steps⟩) (by decide +kernel)
  obtain ⟨-, -, distinct, -⟩ := indexes_claimed_once reach
  refine ⟨s, reach, of_decide_eq_true two, distinct sampleDerive injective_sampleDerive ?_⟩
  rintro _ rfl i
  match i with
  | 0 | 1 | _ + 2 => rfl

end AvaSettle.Payins.Derivation
