import AvaSettle.Payins.Deposits

/-!
# Pay-ins in custody

A sweep takes a pay-in off the queue when it is sent, whatever it leaves behind: with an amount of its own it
takes less than there is, before the pay-in is confirmed it cannot take what arrives later, and reverted it
takes nothing. Where none of this happens, the row of a pay-in that records a sweep counts no more than what
its sweeps have taken or are about to take. A call that runs alone keeps it so.
-/

namespace AvaSettle.Payins.Custody
open Async
open Data (Table)
open Blockchain
open Sweeps (Derived Swept)

/-! ## Rows in custody -/

/-- A sweep is reverted only where its address holds none of the tokens that are counted. -/
def Spares (d : Deployment) (w : World) (s : Submission) : Prop :=
  ∀ r ∈ w.payins.rows, Derived r → sameHex s.account r.depositAddress = true → held d w r = 0

/-- The services, where sweeps are reverted only if they are spared. -/
abbrev sparing (d : Deployment) : Machine Api World := collecting d (Spares d)

/-- What a row has counted is outgoing. -/
def Covered (d : Deployment) (w : World) (r : PayInRecord) : Prop :=
  ∀ token, tokenOf d r = some token → r.receivedAmountAtomic ≤ outgoing w token r.depositAddress

/-- What a row has counted has arrived. -/
def Counted (d : Deployment) (w : World) (r : PayInRecord) : Prop :=
  ∀ token, tokenOf d r = some token → r.receivedAmountAtomic ≤ arrived w.chain token r.depositAddress

/-- With this amount, what a row has counted will have left. -/
def Enough (d : Deployment) (w : World) (r : PayInRecord) (amount : Nat) : Prop :=
  ∀ token, tokenOf d r = some token → r.receivedAmountAtomic ≤ departed w token r.depositAddress + amount

/-- What every row has counted has arrived. -/
def AllCounted (d : Deployment) (w : World) : Prop :=
  ∀ r ∈ w.payins.rows, Derived r → Counted d w r

/-- Every row has the address of its index, and what a row has counted that records a sweep is outgoing, but
    for one that has just been counted again. -/
structure InCustody (d : Deployment) (recounted : Option Uuid) (w : World) : Prop where
  balanced : Balanced d w
  address : ∀ r ∈ w.payins.rows, Derived r → derivePayInAddress d r.derivationIndex.toNat = .ok r.depositAddress
  required : ∀ r ∈ w.payins.rows, Derived r → r.sweepStatus ≠ .notRequired
  covered : ∀ r ∈ w.payins.rows, Derived r → some r.id ≠ recounted → Swept r → Covered d w r

/-- All rows are in custody, and what they have counted has arrived. -/
structure Kept (d : Deployment) (w : World) : Prop where
  custody : InCustody d none w
  counted : AllCounted d w

/-- What the world and the operations do that write no pay-ins. -/
structure Beside (d : Deployment) (w w' : World) : Prop where
  payins : w'.payins = w.payins
  balanced : Balanced d w → Balanced d w'
  arrived : ∀ token a, arrived w.chain token a ≤ arrived w'.chain token a
  departed : Balanced d w → ∀ token a, departed w token a ≤ departed w' token a
  outgoing : Balanced d w → ∀ token a,
    outgoing w token a ≤ outgoing w' token a ∨ ∃ s, Spares d w s ∧ sameHex s.account a = true

/-- Whether the operation leaves the pay-ins alone. -/
def leavesPayIns : Call → Bool
  | .payInInsert _ => false
  | .payInUpdate _ _ _ => false
  | _ => true

/-- The operation writes no pay-ins. -/
abbrev IsApart (c : Call) : Prop := leavesPayIns c = true

section
variable {d : Deployment} {w w' : World} {r r' : PayInRecord} {id : Uuid} {patch : PayInPatch}
  {guard : PayInUpdateGuard} {k : Option Uuid} {amount : Nat}

/-- Such an operation writes elsewhere. -/
lemma writes_of_apart {c : Call} (apart : IsApart c) : c.writes ≠ some .payins := by
  cases c
  case payInInsert => cases apart
  case payInUpdate => cases apart
  all_goals simp [Call.writes]

/-- The moves of the world. -/
lemma beside_env (move : (sparing d).env w w') : Beside d w w' := by
  obtain ⟨env, occurs⟩ := move
  exact ⟨env.payins, fun balanced => balanced.occurs env.submissions occurs, fun _ _ => arrived_le occurs,
    fun balanced _ _ => departed_le balanced.hashes env.submissions occurs,
    fun balanced _ _ => outgoing_le balanced.hashes env.submissions occurs⟩

/-- The operations that write no pay-ins. -/
lemma beside_exec {c : Call} {b : c.Res} (apart : IsApart c) (smooth : Smooth w ⟨c, .done b⟩)
    (run : World.exec c w = some (b, w')) : Beside d w w' := by
  have frame := World.exec_frame run
  by_cases sends : c.writes = some .submissions
  · cases c <;> cases sends
    rename_i account tx payouts
    obtain ⟨unused, fresh⟩ := smooth.2 account tx payouts rfl
    have submissions : w'.submissions = w.submissions ++ [⟨w.chain.nextHash, account, tx, payouts⟩] := by
      cases run
      rfl
    have left {token a : Hex} : departed w' token a = departed w token a := by
      have sums : departed w' token a = departed w token a + _ := taken_submit submissions frame.chain
      rwa [unused] at sums
    have out {token a : Hex} : outgoing w' token a = outgoing w token a + _ :=
      taken_submit submissions frame.chain
    refine ⟨frame.payins (writes_of_apart apart), fun balanced => ⟨fun token a ours own => ?_, ?_⟩,
      fun _ _ => ?_, fun _ _ _ => left.ge, fun _ _ _ => .inl (out ▸ Nat.le_add_right _ _)⟩
    · rw [left, frame.chain]
      exact balanced.balance token a ours own
    · rw [submissions, List.map_append, List.map_singleton]
      refine List.nodup_append_comm.1 (List.nodup_cons.2 ⟨fun mem => ?_, balanced.hashes⟩)
      obtain ⟨s, sent, same⟩ := List.mem_map.1 mem
      exact fresh s sent same
    · rw [frame.chain]
  · have submissions := frame.submissions sends
    have receipts : w'.chain.receipts = w.chain.receipts := congrArg Chain.receipts frame.chain
    have left {token a : Hex} : departed w' token a = departed w token a := taken_congr submissions receipts
    have out {token a : Hex} : outgoing w' token a = outgoing w token a := taken_congr submissions receipts
    refine ⟨frame.payins (writes_of_apart apart),
      fun balanced => ⟨fun token a ours own => ?_, submissions ▸ balanced.hashes⟩, fun _ _ => ?_, fun _ _ _ => left.ge, fun _ _ _ => .inl out.ge⟩
    · rw [left, frame.chain]
      exact balanced.balance token a ours own
    · rw [frame.chain]

/-- What is held is what has not left. -/
lemma InCustody.held (custody : InCustody d k w) (mem : r ∈ w.payins.rows) (own : Derived r) {token : Hex}
    (asset : tokenOf d r = some token) :
    Custody.held d w r = r.receivedAmountAtomic - departed w token r.depositAddress :=
  custody.balanced.held ⟨_, custody.address r mem own⟩ asset

/-- What is outgoing for a row stays so. -/
lemma Covered.beside (custody : InCustody d k w) (beside : Beside d w w') (mem : r ∈ w.payins.rows)
    (own : Derived r) (covered : Covered d w r) : Covered d w' r := by
  intro token asset
  rcases beside.outgoing custody.balanced token r.depositAddress with le | ⟨s, spares, here⟩
  · exact (covered token asset).trans le
  · have none := spares r mem own here
    rw [custody.held mem own asset] at none
    have left := beside.departed custody.balanced token r.depositAddress
    have out : departed w' token r.depositAddress ≤ outgoing w' token r.depositAddress := departed_le_outgoing
    omega

/-- Rows stay in custody. -/
lemma InCustody.beside (beside : Beside d w w') (custody : InCustody d k w) : InCustody d k w' where
  balanced := beside.balanced custody.balanced
  address := beside.payins ▸ custody.address
  required := beside.payins ▸ custody.required
  covered := by
    rw [beside.payins]
    exact fun r mem own other swept => (custody.covered r mem own other swept).beside custody beside mem own

/-- What has arrived stays. -/
lemma Counted.beside (beside : Beside d w w') (counted : Counted d w r) : Counted d w' r :=
  fun token asset => (counted token asset).trans (beside.arrived _ _)

/-- So does what all rows have counted. -/
lemma Kept.beside (beside : Beside d w w') (kept : Kept d w) : Kept d w' := by
  refine ⟨kept.custody.beside beside, ?_⟩
  rw [AllCounted, beside.payins]
  exact fun r mem own => (kept.counted r mem own).beside beside

/-- What will have left will have left. -/
lemma Enough.beside (custody : InCustody d k w) (beside : Beside d w w') (enough : Enough d w r amount) :
    Enough d w' r amount := by
  intro token asset
  have before := enough token asset
  have left := beside.departed custody.balanced token r.depositAddress
  omega

/-! ## Writes to the pay-ins -/

/-- A row after an update is an old one, or the one that has been written. -/
lemma mem_updatePayIn (mem : r' ∈ (w.updatePayIn id patch guard).2.payins.rows) :
    r' ∈ w.payins.rows ∧ (r'.id ≠ id ∨ guard.holds r' = false) ∨
      ∃ r, w.payins.find? id = some r ∧ guard.holds r = true ∧ r' = patch.applyTo w.now r := by
  obtain ⟨r, before, rfl⟩ := List.mem_map.1 mem
  unfold Data.Patch.applyIf
  split
  case isTrue here =>
    obtain ⟨rfl, holds⟩ : r.id = id ∧ guard.holds r = true := by simpa using here
    exact .inr ⟨r, Table.find?_of_mem before, holds, rfl⟩
  case isFalse there =>
    refine .inl ⟨before, ?_⟩
    by_cases key : r.id = id
    · exact .inr (by simpa [key] using there)
    · exact .inl key

/-- An update keeps the rows in custody that allows for them. -/
lemma InCustody.update (custody : InCustody d none w)
    (allows : ∀ r, w.payins.find? id = some r → guard.holds r = true → Derived r →
      (patch.applyTo w.now r).sweepStatus ≠ .notRequired ∧
        (some id ≠ k → Swept (patch.applyTo w.now r) → Covered d w (patch.applyTo w.now r))) :
    InCustody d k (w.updatePayIn id patch guard).2 where
  balanced := ⟨custody.balanced.balance, custody.balanced.hashes⟩
  address r' mem own := by
    rcases mem_updatePayIn mem with ⟨mem, -⟩ | ⟨r, found, -, rfl⟩
    · exact custody.address r' mem own
    · exact custody.address r (Table.mem_of_find? found) own
  required r' mem own := by
    rcases mem_updatePayIn mem with ⟨mem, -⟩ | ⟨r, found, holds, rfl⟩
    · exact custody.required r' mem own
    · exact (allows r found holds own).1
  covered r' mem own other swept := by
    rcases mem_updatePayIn mem with ⟨mem, -⟩ | ⟨r, found, holds, rfl⟩
    · exact custody.covered r' mem own (fun eq => by cases eq) swept
    · have key : r.id = id := Table.key_of_find? found
      exact (allows r found holds own).2 (key ▸ other) swept

/-- An update that counts nothing keeps what has been counted. -/
lemma AllCounted.update (counted : AllCounted d w) (still : patch.receivedAmountAtomic = none) :
    AllCounted d (w.updatePayIn id patch guard).2 := by
  intro r' mem own token asset
  rcases mem_updatePayIn mem with ⟨mem, -⟩ | ⟨r, found, -, rfl⟩
  · exact counted r' mem own token asset
  · have before := counted r (Table.mem_of_find? found) own token asset
    rwa [← show (patch.applyTo w.now r).receivedAmountAtomic = r.receivedAmountAtomic by
      simp [PayInPatch.applyTo, still]] at before

/-- A new row is in custody that has its address and no sweep. -/
lemma InCustody.insert {o : Option PayInRecord} (custody : InCustody d k w)
    (run : w.insertPayIn r = some (o, w'))
    (address : Derived r → derivePayInAddress d r.derivationIndex.toNat = .ok r.depositAddress)
    (unswept : Derived r → r.sweepStatus = .pending) : InCustody d k w' := by
  obtain ⟨-, rfl, -⟩ | ⟨t, -, rfl, inserted, -⟩ := World.insertPayIn_cases run
  · exact custody
  · have rows {r' : PayInRecord} (mem : r' ∈ t.rows) : r' ∈ w.payins.rows ∨ r' = r := by
      rw [Table.rows_insert inserted] at mem
      exact (List.mem_append.1 mem).imp_right List.mem_singleton.1
    refine ⟨⟨custody.balanced.balance, custody.balanced.hashes⟩, fun r' mem own => ?_, fun r' mem own => ?_,
      fun r' mem own other swept => ?_⟩
    · rcases rows mem with mem | rfl
      · exact custody.address r' mem own
      · exact address own
    · rcases rows mem with mem | rfl
      · exact custody.required r' mem own
      · simp [unswept own]
    · rcases rows mem with mem | rfl
      · exact custody.covered r' mem own other swept
      · rw [Swept, unswept own] at swept
        rcases swept with eq | eq <;> cases eq

end

/-! ## Programs that write no pay-ins -/

section
variable {d : Deployment} {id : Uuid} {context : RequestContext} {r : PayInRecord}

/-- A request that writes elsewhere. -/
lemma apart_request {c : Call} (apart : IsApart c) : (request c).Uses IsApart fun _ => True :=
  Prog.uses_await (S := Api) apart

/-- A clerical operation writes no pay-ins. -/
lemma isApart_of_clerical (c : Call) (clerical : isClerical c = true) : IsApart c := by
  cases c <;> first | rfl | cases clerical

/-- A response writes none. -/
lemma apart_toResponse {replay : Bool} : (toResponse r replay).Uses IsApart fun _ => True :=
  uses_payInResponse fun c clerical _ => isApart_of_clerical c clerical

/-- The audit writes none. -/
lemma apart_recordAudit {type : AuditEventType} {payload : List (String × Json)} :
    (recordAudit type id (toAuditActor context) payload).Uses IsApart fun _ => True :=
  apart_request rfl

/-- A webhook writes none. -/
lemma apart_enqueue {clientId : Option String} {event : String} {payload : List (String × Json)} :
    (enqueue clientId event payload).Uses IsApart fun _ => True := by
  unfold enqueue
  split
  case h_1 => exact Prog.uses_pure _
  case h_2 => exact Prog.uses_awaitOr (S := Api) rfl

/-- Reading the pay-in writes none. -/
lemma apart_requirePayIn : (requirePayIn id context).Uses IsApart fun _ => True :=
  Prog.uses_bind (apart_request rfl) fun _ => Prog.uses_orThrow trivial

/-- Reading a transaction back writes none. -/
lemma apart_toTransferExecution {hash : Hex} : (toTransferExecution d hash).Uses IsApart fun _ => True := by
  unfold toTransferExecution
  split
  case isTrue => exact Prog.uses_bind (apart_request rfl) fun _ => Prog.uses_pure _
  case isFalse => exact Prog.uses_pure _

/-- Gas for the address writes none. -/
lemma apart_topUp {amount : Option String} : (topUp d id context r amount).Uses IsApart fun _ => True := by
  refine Prog.uses_bind (Prog.uses_ofExcept fun _ _ => trivial) fun wei => Prog.uses_bind ?_ fun transfer =>
    Prog.uses_bind apart_recordAudit fun _ => Prog.uses_pure _
  refine Prog.uses_bind (Prog.uses_require fun _ => trivial) fun _ => ?_
  refine Prog.uses_bind (Prog.uses_ofExcept fun _ _ => trivial) fun account => ?_
  refine Prog.uses_bind (apart_request rfl) fun balance => ?_
  refine Prog.uses_bind (Prog.uses_require fun _ => trivial) fun _ => ?_
  exact Prog.uses_bind (apart_request rfl) fun hash => apart_toTransferExecution

/-- A scan in chunks writes none where a chunk writes none. -/
lemma apart_paginateLogs {T : Type} {fetchChunk : Nat → Nat → Method (List T)} {size : ℕ+}
    {fromBlock toBlock : Nat} (chunk : ∀ f t, (fetchChunk f t).Uses IsApart fun _ => True) :
    (paginateLogs fromBlock toBlock fetchChunk size).Uses IsApart fun _ => True := by
  have loop (fuel fromBlock : Nat) (results : List T) :
      (paginateFrom fetchChunk size toBlock fuel fromBlock results).Uses IsApart fun _ => True := by
    induction fuel generalizing fromBlock results with
    | zero => exact Prog.uses_pure _
    | succ fuel ih =>
      unfold paginateFrom
      split
      case isTrue => exact Prog.uses_bind (chunk _ _) fun _ => ih _ _
      case isFalse => exact Prog.uses_pure _
  unfold paginateLogs
  split
  case isTrue => exact Prog.uses_pure _
  case isFalse => exact loop _ _ _

/-- A scan writes none. -/
lemma apart_findPayInTransfers {toBlock : Nat} :
    (findPayInTransfers d r toBlock).Uses IsApart fun _ => True := by
  unfold findPayInTransfers
  split
  case h_1 =>
    refine Prog.uses_bind (Prog.uses_orThrow trivial) fun invoice => Prog.uses_bind ?_ fun _ => Prog.uses_pure _
    refine Prog.uses_bind (Prog.uses_orThrow trivial) fun router => ?_
    refine Prog.uses_bind (Prog.uses_ofExcept fun _ _ => trivial) fun config => ?_
    refine Prog.uses_bind (Prog.uses_ofExcept fun _ _ => trivial) fun invoiceId => ?_
    split
    case isTrue => exact Prog.uses_pure _
    case isFalse =>
      exact Prog.uses_bind (apart_paginateLogs fun _ _ => apart_request rfl) fun _ =>
        Prog.uses_pure _
  case h_2 =>
    refine Prog.uses_bind (Prog.uses_ofExcept fun _ _ => trivial) fun config => ?_
    split
    case isTrue => exact Prog.uses_pure _
    case isFalse =>
      exact Prog.uses_bind (apart_paginateLogs fun _ _ => apart_request rfl) fun _ =>
        Prog.uses_pure _

/-- Asking whether the pay-in has expired writes none. -/
lemma apart_readExpired : (readExpired r).Uses IsApart fun _ => True := by
  unfold readExpired
  split
  case h_1 => exact Prog.uses_pure _
  case h_2 => exact Prog.uses_bind (apart_request rfl) fun _ => Prog.uses_pure _

/-- The webhook of a first detection writes none. -/
lemma apart_announceDetected {first : Bool} : (announceDetected first r).Uses IsApart fun _ => True := by
  unfold announceDetected
  split
  case isTrue => exact apart_enqueue
  case isFalse => exact Prog.uses_pure _

end

/-! ## Assertions that last -/

/-- The assertion outlasts the moves of the world and the operations that write no pay-ins. -/
def Lasts (d : Deployment) (R : World → Prop) : Prop := ∀ w w', Beside d w w' → R w → R w'

section
variable {α β : Type} {d : Deployment} {R : World → Prop} {id : Uuid} {context : RequestContext}
  {ps : Table PayInRecord.id}

/-- The world keeps what lasts. -/
lemma Lasts.env (lasts : Lasts d R) : ∀ w w', (sparing d).env w w' → R w → R w' :=
  fun w w' move => lasts w w' (beside_env move)

/-- An operation that writes no pay-ins keeps what lasts. -/
lemma Lasts.reply {c : Call} {w w' : World} {o : Outcome Exception c.Res} (lasts : Lasts d R)
    (apart : IsApart c) (reply : (sparing d).Reply c w o w') (smooth : Smooth w ⟨c, o⟩) (holds : R w) :
    R w' := by
  cases o with
  | done b => exact lasts w w' (beside_exec apart smooth reply) holds
  | refused e => exact reply.2 ▸ holds
  | lost b e => exact smooth.1.elim

/-- A program that writes no pay-ins keeps what lasts. -/
lemma takes_apart {p : Method α} (lasts : Lasts d R) (uses : p.Uses IsApart fun _ => True) :
    (sparing d).Takes R p fun _ => R :=
  Machine.takes_uses lasts.env (fun _ _ _ _ _ apart holds reply smooth =>
    lasts.reply apart reply smooth holds) uses

/-- What comes first writes no pay-ins. -/
lemma takes_apart_bind {p : Method α} {f : α → Method β} {K : Except Exception β → World → Prop}
    (lasts : Lasts d R) (uses : p.Uses IsApart fun _ => True) (next : ∀ a, (sparing d).Takes R (f a) K)
    (error : ∀ e w, R w → K (.error e) w) : (sparing d).Takes R (p >>= f) K :=
  Machine.takes_bind (takes_apart lasts uses) next error

/-- The answer of an operation that writes no pay-ins tells of the world. -/
lemma takes_ask {c : Call} {P : c.Res → World → Prop} (lasts : Lasts d R) (apart : IsApart c)
    (done : ∀ w b w', R w → World.exec c w = some (b, w') → R w' → P b w') :
    (sparing d).Takes R (request c) fun r w => R w ∧ ∀ b, r = .ok b → P b w := by
  refine Machine.takes_await lasts.env fun h w o w' holds reply smooth => ?_
  have kept := lasts.reply apart reply smooth holds
  refine ⟨kept, fun b eq => ?_⟩
  cases o with
  | done b' =>
    cases eq
    exact done w b w' holds reply kept
  | refused e => cases eq
  | lost b' e => exact smooth.1.elim

/-- The row that is read is that of the table. -/
lemma takes_requirePayIn (lasts : Lasts d R) (here : ∀ w, R w → w.payins = ps) :
    (sparing d).Takes R (requirePayIn id context) fun res w =>
      R w ∧ ∀ r, res = .ok r → ps.find? id = some r := by
  refine Machine.takes_bind (takes_ask (P := fun found _ => ∀ r, found = some r → ps.find? id = some r) lasts
    rfl fun w found w' holds run _ r eq => ?_) (fun found => ?_)
    fun e w post => ⟨post.1, fun r eq => by cases eq⟩
  · obtain ⟨looked, rfl⟩ := Prod.mk.inj (Option.some.inj run)
    rw [eq] at looked
    rw [← here w holds]
    exact (Option.filter_eq_some_iff.1 looked).1
  · cases found with
    | none => exact Machine.takes_throw fun w post => ⟨post.1, fun r eq => by cases eq⟩
    | some r =>
      refine Machine.takes_pure fun w post => ⟨post.1, fun r' eq => ?_⟩
      cases eq
      exact post.2 _ rfl r rfl

/-- A guarded update of the pay-ins. -/
lemma takes_update {patch : PayInPatch} {guard : PayInUpdateGuard}
    {K : Except Exception (Option PayInRecord) → World → Prop} (lasts : Lasts d R)
    (post : ∀ w, R w → ∀ r, r = .ok (w.updatePayIn id patch guard).1 → K r (w.updatePayIn id patch guard).2) :
    (sparing d).Takes R (request (.payInUpdate id patch guard)) K := by
  refine Machine.takes_await lasts.env fun h w o w' holds reply smooth => ?_
  cases o with
  | done b =>
    cases reply
    exact post w holds _ rfl
  | refused e => cases smooth.1
  | lost b e => exact smooth.1.elim

end

/-! ## Sweeps -/

section
variable {α : Type} {d : Deployment} {id : Uuid} {context : RequestContext} {ps : Table PayInRecord.id}
  {r : PayInRecord} {amount : Option Nat}

/-- All rows are kept, and they are those of the table. -/
structure Ready (d : Deployment) (ps : Table PayInRecord.id) (w : World) : Prop where
  kept : Kept d w
  payins : w.payins = ps

/-- Being kept lasts. -/
lemma lasts_kept : Lasts d (Kept d) := fun _ _ beside kept => kept.beside beside

/-- So does being ready. -/
lemma lasts_ready : Lasts d (Ready d ps) :=
  fun _ _ beside ready => ⟨ready.kept.beside beside, beside.payins.trans ready.payins⟩

/-- What an amount is enough for lasts. -/
lemma lasts_enough {m : Nat} : Lasts d fun w => Ready d ps w ∧ Enough d w r m :=
  fun _ _ beside post => ⟨lasts_ready _ _ beside post.1, post.2.beside post.1.kept.custody beside⟩

/-- An amount that is given is enough. -/
def Sufficient (d : Deployment) (r : PayInRecord) (amount : Option Nat) (w : World) : Prop :=
  ∀ m, amount = some m → Enough d w r m

/-- That lasts. -/
lemma lasts_sufficient : Lasts d fun w => Ready d ps w ∧ Sufficient d r amount w :=
  fun _ _ beside post => ⟨lasts_ready _ _ beside post.1,
    fun m eq => (post.2 m eq).beside post.1.kept.custody beside⟩

/-- That the row is covered lasts. -/
lemma lasts_covered (mem : r ∈ ps.rows) (own : Derived r) : Lasts d fun w => Ready d ps w ∧ Covered d w r :=
  fun _ _ beside post => ⟨lasts_ready _ _ beside post.1,
    post.2.beside post.1.kept.custody beside (post.1.payins ▸ mem) own⟩

/-- A configured asset has the token of the pay-in. -/
lemma address_of_requireAsset {asset : SettlementAsset} {config : ConfiguredAsset}
    (found : requireAsset d asset = .ok config) : (d.getAssetConfig asset).address = some config.address := by
  unfold requireAsset at found
  split at found
  case h_1 a eq =>
    cases found
    exact eq
  case h_2 => cases found

/-- The balance that is read is enough, where no amount is given. -/
lemma takes_balanceOf {token : Hex} (mem : r ∈ ps.rows) (own : Derived r) (asset : tokenOf d r = some token) :
    (sparing d).Takes (fun w => Ready d ps w ∧ Sufficient d r amount w)
      (request (.balanceOf token r.depositAddress)) fun res w =>
        Ready d ps w ∧ ∀ balance, res = .ok balance → Enough d w r (amount.getD balance) := by
  refine Machine.takes_mono (fun w holds => holds) (fun res w post => ⟨post.1.1, post.2⟩)
    (takes_ask lasts_sufficient rfl fun w b w' holds run kept => ?_)
  cases run
  obtain ⟨ready, sufficient⟩ := holds
  cases amount with
  | some m => exact sufficient m rfl
  | none =>
    intro token' asset'
    obtain rfl : token = token' := Option.some_inj.1 (asset.symm.trans asset')
    have here := ready.payins ▸ mem
    have counted := ready.kept.counted r here own token asset
    have balance := ready.kept.custody.balanced.balance token r.depositAddress ⟨r.asset, asset⟩
      ⟨_, ready.kept.custody.address r here own⟩
    rw [Option.getD_none]
    omega

/-- A sweep of enough covers the row. -/
lemma takes_submit {token treasury : Hex} {m : Nat} (asset : tokenOf d r = some token) :
    (sparing d).Takes (fun w => Ready d ps w ∧ Enough d w r m)
      (request (.submit r.depositAddress (.transfer token treasury m) [])) fun res w =>
        Ready d ps w ∧ ∀ hash, res = .ok hash → Covered d w r := by
  refine Machine.takes_await lasts_enough.env fun h w o w' holds reply smooth => ?_
  have ready := lasts_ready.reply rfl reply smooth holds.1
  refine ⟨ready, fun hash eq token' asset' => ?_⟩
  obtain rfl : token = token' := Option.some_inj.1 (asset.symm.trans asset')
  cases o with
  | done b =>
    obtain ⟨unused, -⟩ := smooth.2 _ _ _ rfl
    have enough := holds.2 token asset
    have part : departed w token r.depositAddress ≤ outgoing w token r.depositAddress := departed_le_outgoing
    have submissions : w'.submissions =
        w.submissions ++ [⟨w.chain.nextHash, r.depositAddress, .transfer token treasury m, []⟩] := by
      cases reply
      rfl
    have chain : w'.chain = w.chain := by
      cases reply
      rfl
    have sums : outgoing w' token r.depositAddress = outgoing w token r.depositAddress + _ :=
      taken_submit submissions chain
    simp only [unused, unreverted, takes, sameHex, beq_self_eq_true, Bool.and_self, if_true] at sums
    omega
  | refused e => cases eq
  | lost b e => exact smooth.1.elim

/-- A sweep that is sent covers the row that it is for. -/
lemma takes_sweepDerivedPayIn (mem : r ∈ ps.rows) (own : Derived r) :
    (sparing d).Takes (fun w => Ready d ps w ∧ Sufficient d r amount w)
      (sweepDerivedPayIn d r.asset r.derivationIndex r.depositAddress amount) fun res w =>
        Ready d ps w ∧ ∀ sweep, res = .ok sweep → Covered d w r := by
  have failed (e : Exception) (w : World) (holds : Ready d ps w ∧ Sufficient d r amount w) :
      Ready d ps w ∧ ∀ sweep, (.error e : Except Exception SweepExecution) = .ok sweep → Covered d w r :=
    ⟨holds.1, fun sweep eq => by cases eq⟩
  refine Machine.takes_require_bind (fun index => ?_) (failed _)
  refine Machine.takes_ofExcept_bind (fun treasury _ => ?_) failed
  refine Machine.takes_ofExcept_bind (fun account derived => ?_) failed
  refine Machine.takes_ofExcept_bind (fun checksummed _ => ?_) failed
  refine Machine.takes_ofExcept_bind (fun expected _ => ?_) failed
  refine Machine.takes_require_bind (fun _ => ?_) (failed _)
  refine takes_apart_bind lasts_sufficient (apart_request rfl) (fun native => ?_) failed
  refine Machine.takes_require_bind (fun _ => ?_) (failed _)
  refine Machine.takes_ofExcept_bind (fun config configured => ?_) failed
  have asset : tokenOf d r = some config.address := address_of_requireAsset configured
  -- the account that signs is the address of the row
  refine Machine.takes_of_fact (c := account = r.depositAddress) (fun w post => ?_) fun same => ?_
  · have signer := post.1.kept.custody.address r (post.1.payins ▸ mem) own
    exact Except.ok.inj (derived.symm.trans signer)
  obtain rfl := same
  refine Machine.takes_bind (takes_balanceOf mem own asset) (fun balance => ?_) fun e w post =>
    ⟨post.1, fun sweep eq => by cases eq⟩
  refine Machine.takes_mono (R := fun w => Ready d ps w ∧ Enough d w r (amount.getD balance))
    (fun w post => ⟨post.1, post.2 balance rfl⟩) (fun _ _ post => post) ?_
  have failed (e : Exception) (w : World) (holds : Ready d ps w ∧ Enough d w r (amount.getD balance)) :
      Ready d ps w ∧ ∀ sweep, (.error e : Except Exception SweepExecution) = .ok sweep → Covered d w r :=
    ⟨holds.1, fun sweep eq => by cases eq⟩
  refine Machine.takes_require_bind (fun _ => ?_) (failed _)
  refine Machine.takes_require_bind (fun _ => ?_) (failed _)
  refine Machine.takes_bind (takes_submit asset) (fun hash => ?_) fun e w post =>
    ⟨post.1, fun sweep eq => by cases eq⟩
  refine Machine.takes_mono (R := fun w => Ready d ps w ∧ Covered d w r)
    (K := fun _ w => Ready d ps w ∧ Covered d w r) (fun w post => ⟨post.1, post.2 hash rfl⟩) (fun _ _ post => ⟨post.1, fun _ _ => post.2⟩)
    (takes_apart (lasts_covered mem own) ?_)
  exact Prog.uses_bind apart_toTransferExecution fun _ => Prog.uses_pure _

end

/-! ## Calls that sweep -/

section
variable {α : Type} {d : Deployment} {id : Uuid} {context : RequestContext} {ps : Table PayInRecord.id}
  {r : PayInRecord} {amount : Option Nat} {w w' : World} {patch : PayInPatch} {guard : PayInUpdateGuard}

/-- Being in custody lasts. -/
lemma lasts_custody {k : Option Uuid} : Lasts d (InCustody d k) :=
  fun _ _ beside custody => custody.beside beside

/-- Everything is kept by an update that counts nothing and allows for the rows. -/
lemma Kept.update (kept : Kept d w) (still : patch.receivedAmountAtomic = none)
    (allows : ∀ r, w.payins.find? id = some r → guard.holds r = true → Derived r →
      (patch.applyTo w.now r).sweepStatus ≠ .notRequired ∧
        (Swept (patch.applyTo w.now r) → Covered d w r)) :
    Kept d (w.updatePayIn id patch guard).2 := by
  refine ⟨kept.custody.update fun r found holds own => ?_, kept.counted.update still⟩
  obtain ⟨required, covered⟩ := allows r found holds own
  refine ⟨required, fun _ swept token asset => ?_⟩
  have same : (patch.applyTo w.now r).receivedAmountAtomic = r.receivedAmountAtomic := by
    simp [PayInPatch.applyTo, still]
  rw [same]
  exact covered swept token asset

/-- A sweep is recorded over a row that it covers. -/
lemma takes_executeSweep {dto : SweepPayInDto} (row : ps.find? id = some r) (own : Derived r) :
    (sparing d).Takes (fun w => Ready d ps w ∧ Sufficient d r amount w)
      (executeSweep d id dto context r amount) fun _ => Kept d := by
  have mem := Table.mem_of_find? row
  refine Machine.takes_bind (takes_sweepDerivedPayIn mem own) (fun sweep => ?_) fun e w post => post.1.kept
  refine Machine.takes_mono (R := fun w => Ready d ps w ∧ Covered d w r)
    (fun w post => ⟨post.1, post.2 sweep rfl⟩) (fun _ _ post => post) ?_
  have lasts := lasts_covered (d := d) mem own
  refine takes_apart_bind lasts (apart_request rfl) (fun now => ?_) fun e w post => post.1.kept
  refine Machine.takes_bind (K := fun _ => Kept d) (takes_update lasts fun w post res _ => ?_) (fun updated => ?_) fun e w post => post
  · obtain ⟨ready, covered⟩ := post
    refine ready.kept.update rfl fun r' found _ _ => ?_
    obtain rfl : r = r' := Option.some_inj.1 (row.symm.trans (ready.payins ▸ found))
    refine ⟨?_, fun _ => covered⟩
    change (if sweep.status = .confirmed then PayInSweepStatus.confirmed else .broadcasted) ≠ .notRequired
    split
    case isTrue => simp
    case isFalse => simp
  · refine takes_apart lasts_kept (Prog.uses_bind apart_recordAudit fun _ => ?_)
    cases updated with
    | none => exact Prog.uses_bind apart_requirePayIn fun _ => Prog.uses_pure _
    | some updated => exact Prog.uses_pure _

/-- A sweep that failed is recorded. -/
lemma takes_handleSweepError {dto : SweepPayInDto} {e : Exception} :
    (sparing d).Takes (Kept d) (handleSweepError id dto context e) fun _ => Kept d := by
  refine Machine.takes_bind (K := fun _ => Kept d) (takes_update lasts_kept fun w kept res _ => ?_)
    (fun failed => ?_) fun e w post => post
  · refine kept.update rfl fun r _ _ _ => ⟨by simp [sweepFailedPatch, PayInPatch.applyTo], fun swept => ?_⟩
    rcases swept with eq | eq <;> cases eq
  · refine takes_apart lasts_kept (Prog.uses_bind apart_recordAudit fun _ => ?_)
    cases failed with
    | none => exact Prog.uses_throw trivial
    | some failed => exact Prog.uses_pure _

/-- An amount that the request asks for is enough for the pay-in. -/
def Asked (d : Deployment) (dto : SweepPayInDto) (id : Uuid) (ps : Table PayInRecord.id) (w : World) : Prop :=
  ∀ r, ps.find? id = some r → Derived r →
    ∀ amount, sweepAmount d dto r = .ok (some amount) → Enough d w r amount

/-- That lasts. -/
lemma lasts_asked {dto : SweepPayInDto} : Lasts d fun w => Ready d ps w ∧ Asked d dto id ps w :=
  fun _ _ beside post => ⟨lasts_ready _ _ beside post.1, fun r row own amount asked =>
    (post.2 r row own amount asked).beside post.1.kept.custody beside⟩

/-- A sweep keeps the rows. -/
lemma takes_sweepPayIn {dto : SweepPayInDto} :
    (sparing d).Takes (fun w => Ready d ps w ∧ Asked d dto id ps w) (sweepPayIn d id dto context)
      fun _ => Kept d := by
  refine Machine.takes_bind (takes_requirePayIn lasts_asked fun w post => post.1.payins) (fun r => ?_)
    fun e w post => post.1.1.kept
  refine Machine.takes_of_fact (fun w post => post.2 r rfl) fun row => ?_
  refine Machine.takes_mono (fun w post => post.1) (fun _ _ post => post) ?_
  dsimp only
  split
  case isTrue routed =>
    refine Machine.takes_bind (K := fun _ => Kept d) (takes_update lasts_asked fun w post res _ => ?_)
      (fun updated => ?_) fun e w post => post
    · refine post.1.kept.update rfl fun r' found _ own => ?_
      obtain rfl : r = r' := Option.some_inj.1 (row.symm.trans (post.1.payins ▸ found))
      cases routed.symm.trans own
    · refine takes_apart lasts_kept (Prog.uses_bind (Prog.uses_orThrow trivial) fun _ => apart_toResponse)
  case isFalse derived =>
    have own : Derived r := by
      unfold Derived
      cases mode : r.collectionMode with
      | derivedAddress => rfl
      | paymentRouter => exact absurd mode derived
    split
    case isTrue =>
      exact Machine.takes_mono (fun w post => post.1.kept) (fun _ _ post => post)
        (takes_apart lasts_kept apart_toResponse)
    case isFalse =>
      refine Machine.takes_ofExcept_bind (fun amount asked => ?_) fun e w post => post.1.kept
      refine Machine.takes_bind (K := fun _ => Kept d) ?_ (fun result => ?_) fun e w post => post
      · refine Machine.takes_tryCatch (K := fun _ => Kept d) ?_ (fun _ _ post => post)
          fun e => takes_handleSweepError
        refine Machine.takes_mono (R := fun w => Ready d ps w ∧ Sufficient d r amount w)
          (fun w post => ⟨post.1, fun m eq => ?_⟩) (fun _ _ post => post) (takes_executeSweep row own)
        exact post.2 r row own m (eq ▸ asked)
      · exact takes_apart lasts_kept apart_toResponse

/-- What keeps the rows of each table keeps the rows. -/
lemma takes_of_ready {p : Method α} {K : Except Exception α → World → Prop}
    (takes : ∀ ps, (sparing d).Takes (Ready d ps) p K) : (sparing d).Takes (Kept d) p K :=
  fun w h kept => takes w.payins w h ⟨kept, rfl⟩

/-- A sweep of all that there is keeps the rows. -/
lemma takes_sweepAll {notes : Option String} :
    (sparing d).Takes (Kept d) (sweepPayIn d id ⟨notes, none⟩ context) fun _ => Kept d := by
  refine takes_of_ready fun ps => Machine.takes_mono (fun w ready => ⟨ready, ?_⟩) (fun _ _ post => post)
    takes_sweepPayIn
  intro r _ _ amount asked
  simp [sweepAmount, truthy] at asked

/-- So does a sweep after a top-up. -/
lemma takes_topUpAndSweep {dto : TopUpAndSweepDto} :
    (sparing d).Takes (Kept d) (topUpAndSweep d id dto context) fun _ => Kept d := by
  refine takes_apart_bind lasts_kept apart_requirePayIn (fun payin => ?_) fun e w kept => kept
  refine Machine.takes_require_bind (fun _ => ?_) fun w kept => kept
  refine takes_apart_bind lasts_kept apart_topUp (fun topup => ?_) fun e w kept => kept
  dsimp only
  split
  case isTrue =>
    exact takes_apart_bind lasts_kept (apart_request rfl) (fun _ => takes_sweepAll) fun e w kept => kept
  case isFalse => exact takes_sweepAll

/-- A call whose result is dropped. -/
lemma takes_discard {R P : World → Prop} {p : Method α} (takes : (sparing d).Takes R p fun _ => P) :
    (sparing d).Takes R p.discard fun _ => P :=
  Machine.takes_bind takes (fun _ => Machine.takes_pure fun _ post => post) fun _ _ post => post

/-- So do the sweeps that are tried again. -/
lemma takes_retryPendingSweeps {limit : Nat} :
    (sparing d).Takes (Kept d) (retryPendingSweeps d limit context) fun _ => Kept d := by
  refine takes_apart_bind lasts_kept (apart_request rfl) (fun candidates => ?_) fun e w kept => kept
  refine Machine.takes_bind (K := fun _ => Kept d) (Machine.takes_forEach fun r _ => ?_)
    (fun _ => Machine.takes_pure fun _ kept => kept) fun e w kept => kept
  exact Machine.takes_tryCatch (takes_discard takes_topUpAndSweep) (fun _ _ kept => kept)
    fun e => Machine.takes_pure fun _ kept => kept

/-! ## Calls that count -/

/-- So does a manual acceptance. -/
lemma takes_acceptPayIn {dto : AcceptPayInDto} :
    (sparing d).Takes (Kept d) (acceptPayIn id dto context) fun _ => Kept d := by
  refine takes_apart_bind lasts_kept apart_requirePayIn (fun payin => ?_) fun e w kept => kept
  refine takes_apart_bind lasts_kept (apart_request rfl) (fun now => ?_) fun e w kept => kept
  refine Machine.takes_bind (K := fun _ => Kept d) (takes_update lasts_kept fun w kept res _ => ?_)
    (fun updated => ?_) fun e w post => post
  · refine kept.update rfl fun r found _ own => ⟨kept.custody.required r (Table.mem_of_find? found) own, ?_⟩
    exact fun swept => kept.custody.covered r (Table.mem_of_find? found) own (by simp) swept
  · refine takes_apart lasts_kept ?_
    cases updated with
    | none =>
      refine Prog.uses_bind apart_requirePayIn fun current => ?_
      dsimp only
      split
      case isTrue => exact apart_toResponse
      case isFalse => exact Prog.uses_throw trivial
    | some updated =>
      exact Prog.uses_bind apart_recordAudit fun _ => Prog.uses_bind apart_enqueue fun _ => apart_toResponse

/-- A row that was not confirmed has been counted again, and records the sweep that it has recorded. -/
structure Recounted (d : Deployment) (ps : Table PayInRecord.id) (id : Uuid) (w : World) : Prop where
  custody : InCustody d (some id) w
  row : ∃ payin, ps.find? id = some payin ∧ payin.status ≠ .confirmed ∧
    ∀ r, w.payins.find? id = some r → account r = account payin ∧ r.sweepStatus = payin.sweepStatus

/-- That lasts. -/
lemma lasts_recounted : Lasts d (Recounted d ps id) :=
  fun _ _ beside recounted => ⟨recounted.custody.beside beside, beside.payins ▸ recounted.row⟩

/-- The row is written that has been counted again. -/
lemma Ready.recounted {payin : PayInRecord} {transfers : List PayInTransferRecord} {latestBlock : Nat}
    {status : PayInStatus} {now : Timestamp} (ready : Ready d ps w) (row : ps.find? id = some payin)
    (unconfirmed : payin.status ≠ .confirmed) :
    Recounted d ps id (w.updatePayIn id (reconcilePatch d payin transfers latestBlock status now) {}).2 := by
  constructor
  · refine ready.kept.custody.update fun r found _ own => ⟨?_, fun other => absurd rfl other⟩
    exact ready.kept.custody.required r (Table.mem_of_find? found) own
  · refine ⟨payin, row, unconfirmed, fun r found => ?_⟩
    rcases mem_updatePayIn (Table.mem_of_find? found) with ⟨-, ne | fails⟩ | ⟨r', found', -, rfl⟩
    · exact absurd (Table.key_of_find? found) ne
    · cases fails
    · obtain rfl : payin = r' := Option.some_inj.1 (row.symm.trans (ready.payins ▸ found'))
      exact ⟨rfl, rfl⟩

/-- The webhook of a new confirmation writes no pay-ins, and the sweep that it starts is a request of its
    own. -/
lemma takes_announceConfirmed {payin updated : PayInRecord} {confirmed : Bool} :
    (sparing d).Takes (Recounted d ps id) (announceConfirmed d id context payin confirmed updated)
      fun _ => Recounted d ps id := by
  unfold announceConfirmed
  split
  case isFalse => exact Machine.takes_pure fun _ post => post
  case isTrue =>
    refine takes_apart_bind lasts_recounted apart_enqueue (fun _ => ?_) fun e w post => post
    split
    case isTrue => exact Machine.takes_spawn
    case isFalse => exact Machine.takes_pure fun _ post => post

/-- A reconciliation keeps the rows, or counts one again. -/
lemma takes_reconcilePayIn :
    (sparing d).Takes (Ready d ps) (reconcilePayIn d id context) fun _ w => Kept d w ∨ Recounted d ps id w := by
  refine Machine.takes_bind (takes_requirePayIn lasts_ready fun w ready => ready.payins) (fun payin => ?_)
    fun e w post => .inl post.1.kept
  refine Machine.takes_of_fact (fun w post => post.2 payin rfl) fun row => ?_
  refine Machine.takes_mono (R := Ready d ps) (fun w post => post.1) (fun _ _ post => post) ?_
  dsimp only
  split
  case isTrue =>
    exact Machine.takes_mono (fun w ready => ready) (fun _ w (ready : Ready d ps w) => .inl ready.kept)
      (takes_apart lasts_ready apart_toResponse)
  case isFalse unconfirmed =>
    have failed (e : Exception) (w : World) (ready : Ready d ps w) : Kept d w ∨ Recounted d ps id w :=
      .inl ready.kept
    refine takes_apart_bind lasts_ready (apart_request rfl) (fun latestBlock => ?_) failed
    refine takes_apart_bind lasts_ready apart_findPayInTransfers (fun new => ?_) failed
    refine takes_apart_bind lasts_ready (apart_request rfl) (fun now => ?_) failed
    refine takes_apart_bind lasts_ready apart_readExpired (fun expired => ?_) failed
    refine Machine.takes_bind (K := fun _ => Recounted d ps id)
      (takes_update lasts_ready fun w ready _ _ => ready.recounted row unconfirmed) (fun updated => ?_)
      fun e w post => .inr post
    refine Machine.takes_mono (fun w post => post) (fun _ w (post : Recounted d ps id w) => .inr post) ?_
    refine takes_apart_bind lasts_recounted (Prog.uses_orThrow trivial) (fun updated => ?_) fun e w post => post
    refine takes_apart_bind lasts_recounted apart_recordAudit (fun _ => ?_) fun e w post => post
    refine takes_apart_bind lasts_recounted apart_announceDetected (fun _ => ?_) fun e w post => post
    refine Machine.takes_bind (K := fun _ => Recounted d ps id) takes_announceConfirmed
      (fun _ => takes_apart lasts_recounted apart_toResponse) fun e w post => post

/-! ## Creations -/

/-- Storing a new row with its address keeps the rows. -/
lemma takes_insertPayIn {record : PayInRecord}
    (address : Derived record → derivePayInAddress d record.derivationIndex.toNat = .ok record.depositAddress)
    (unswept : Derived record → record.sweepStatus = .pending) :
    (sparing d).Takes (InCustody d none) (insertPayIn context record) fun _ => InCustody d none := by
  refine Machine.takes_uses lasts_custody.env (fun c h w o w' here custody reply smooth => ?_)
    (uses_insertPayIn (O := fun c => IsApart c ∨ c = .payInInsert record)
      (fun c clerical _ => .inl (isApart_of_clerical c clerical)) (.inr rfl))
  rcases here with apart | rfl
  · exact lasts_custody.reply apart reply smooth custody
  · cases o with
    | done b => exact custody.insert reply address unswept
    | refused e => exact reply.2 ▸ custody
    | lost b e => exact smooth.1.elim

/-- A new row has the address of its index, and no sweep. -/
lemma takes_createNewPayIn {dto : CreatePayInDto} :
    (sparing d).Takes (InCustody d none) (createNewPayIn d dto context) fun _ => InCustody d none := by
  refine Machine.takes_ofExcept_bind (fun expected _ => ?_) fun e w post => post
  dsimp only
  split
  case h_1 =>
    refine Machine.takes_ofExcept_bind (fun router _ => ?_) fun e w post => post
    refine takes_apart_bind lasts_custody (apart_request rfl) (fun startBlock => ?_) fun e w post => post
    refine takes_apart_bind lasts_custody (apart_request rfl) (fun now => ?_) fun e w post => post
    refine takes_apart_bind lasts_custody (apart_request rfl) (fun id => ?_) fun e w post => post
    exact takes_insertPayIn (fun own => by cases own) fun own => by cases own
  case h_2 =>
    refine takes_apart_bind lasts_custody (apart_request rfl) (fun startBlock => ?_) fun e w post => post
    refine takes_apart_bind lasts_custody (apart_request rfl) (fun now => ?_) fun e w post => post
    refine takes_apart_bind lasts_custody (apart_request rfl) (fun index => ?_) fun e w post => post
    refine Machine.takes_ofExcept_bind (fun depositAddress derived => ?_) fun e w post => post
    refine takes_apart_bind lasts_custody (apart_request rfl) (fun id => ?_) fun e w post => post
    refine takes_insertPayIn (fun _ => ?_) fun _ => rfl
    exact derived

/-- Every creation keeps the rows. -/
lemma takes_createPayIn {dto : CreatePayInDto} :
    (sparing d).Takes (InCustody d none) (createPayIn d dto context) fun _ => InCustody d none := by
  unfold createPayIn
  split
  case h_1 => exact takes_createNewPayIn
  case h_2 key =>
    refine takes_apart_bind lasts_custody (Prog.uses_bind (apart_request rfl) fun recordId => ?_)
      (fun prior => ?_) fun e w post => post
    · cases recordId with
      | none => exact Prog.uses_pure _
      | some recordId => exact apart_request rfl
    · cases prior with
      | none => exact takes_createNewPayIn
      | some prior => exact takes_apart lasts_custody apart_toResponse

end

end AvaSettle.Payins.Custody
