import AvaSettle.Async.Session
import AvaSettle.Payouts.Runs

/-!
# Announced payouts

Which confirmed payouts the outbox tells their clients about, in sessions of payout calls without
faults. `Told` is kept by everything but the write that confirms a payout, and the two authorizations
announce what they have confirmed before they return. A reconciliation does not: it keeps `Told` just
where what it confirms has been confirmed before.
-/

namespace AvaSettle.Payouts.Announce
open Async
open Blockchain
open Data (Table)

/-! ## Announcements -/

/-- The client has been told of the payout. -/
def Announced (c : String) (id : Uuid) (w : World) : Prop :=
  ∃ e ∈ w.outbox, e.clientId = c ∧ e.announces "payout.confirmed" id = true

/-- The clients of confirmed payouts have been told, apart from those still to come. -/
def Told (rest : List Uuid) (w : World) : Prop :=
  ∀ id r c, w.payouts.find? id = some r → r.status = .confirmed → truthy r.clientId = some c →
    id ∈ rest ∨ Announced c id w

/-- A reconciliation that sees a transaction final finds its payout confirmed by then. -/
def Unconfirming (d : Deployment) (h : Hist Api) (w : World) (e : Event Api) : Prop :=
  ∀ id patch, e.op = .payoutUpdate id patch none → SeenFinal d h →
    ∀ r, w.payouts.find? id = some r → r.status = .confirmed

/-- The payout services of a deployment without faults, and the operations in `cond`. -/
abbrev faultlessLedger (d : Deployment) (chain : Chain → Chain → Prop)
    (cond : Hist Api → World → Event Api → Prop) : Machine Api World :=
  machine chain (Entry fun d' => d' = d) fun h w e => e.Faultless World.exec w ∧ cond h w e

/-! ## Operations -/

/-- The rows stay, and the outbox grows. -/
structure Calm (w w' : World) : Prop where
  payouts : w'.payouts = w.payouts
  outbox : w.outbox <+: w'.outbox

/-- The operation does not write rows. -/
def IsCalm : Call → Prop
  | .payoutInsert _ => False
  | .payoutUpdate _ _ _ => False
  | _ => True

/-- The operation does not confirm a payout. -/
def IsHarmless : Call → Prop
  | .payoutInsert r => r.status = .prepared
  | .payoutUpdate _ patch guard => guard ≠ none ∧ patch.status ≠ some .confirmed
  | _ => True

/-- An assertion that calm moves keep. -/
def Stays (R : World → Prop) : Prop :=
  ∀ w w', Calm w w' → R w → R w'

section
variable {chain : Chain → Chain → Prop} {w w' : World} {id : Uuid} {rest : List Uuid}
  {r r' : PayoutRecord} {c : String}

/-- Staying is calm. -/
lemma Calm.refl : Calm w w := ⟨rfl, List.prefix_rfl⟩

/-- The world moves calmly by itself. -/
lemma calm_env (w w' : World) (move : World.Env chain w w') : Calm w w' :=
  ⟨move.payouts, move.outbox ▸ List.prefix_rfl⟩

/-- A calm operation moves the world calmly. -/
lemma calm_exec {op : Call} {b : op.Res} (run : World.exec op w = some (b, w')) (calm : IsCalm op) :
    Calm w w' := by
  refine ⟨?_, World.outbox_exec run⟩
  cases op
  case payoutInsert => exact calm.elim
  case payoutUpdate => exact calm.elim
  case waitForTransactionReceipt hash =>
    obtain ⟨rc, -, eq⟩ := Option.map_eq_some_iff.1 run
    cases eq
    rfl
  case submit =>
    cases run
    rfl
  all_goals exact (exec_neutral rfl run).1

/-- Who has been told stays told. -/
lemma Announced.calm (calm : Calm w w') (announced : Announced c id w) : Announced c id w' := by
  obtain ⟨e, mem, told⟩ := announced
  exact ⟨e, calm.outbox.subset mem, told⟩

/-- That clients have been told is kept. -/
lemma stays_told : Stays (Told rest) := fun _ _ calm told id r c found confirmed client =>
  (told id r c (calm.payouts ▸ found) confirmed client).imp_right (Announced.calm calm)

/-- A new payout is not confirmed. -/
lemma told_insert {o : Option PayoutRecord} (told : Told rest w) (prepared : r.status = .prepared)
    (run : w.insertPayout r = some (o, w')) : Told rest w' := by
  unfold World.insertPayout at run
  split at run
  case isTrue =>
    cases run
    exact told
  case isFalse =>
    split at run
    case isTrue => cases run
    case isFalse =>
      obtain ⟨t, inserted, eq⟩ := Option.map_eq_some_iff.1 run
      cases eq
      intro id r₀ c found confirmed client
      rw [Table.find?_insert inserted] at found
      split at found
      case isTrue =>
        cases found
        exact absurd (prepared.symm.trans confirmed) nofun
      case isFalse => exact told id r₀ c found confirmed client

/-- A row after an update was there before, and has been written or not. -/
lemma row_of_update {patch : PayoutPatch} {guard : Option (List PayoutStatus)} {k : Uuid}
    (found : (w.updatePayout id patch guard).2.payouts.find? k = some r) :
    ∃ r₀, w.payouts.find? k = some r₀ ∧ (r = r₀ ∨ k = id ∧ r = patch.applyTo w.now r₀) := by
  change (Table.update _ _ _ _).2.find? k = _ at found
  rw [Table.find?_update] at found
  obtain ⟨r₀, before, rfl⟩ := Option.map_eq_some_iff.1 found
  refine ⟨r₀, before, ?_⟩
  split
  case isTrue written => exact .inr ⟨of_decide_eq_true (Bool.and_eq_true_iff.1 written).1, rfl⟩
  case isFalse => exact .inl rfl

/-- An update may confirm its own row only. -/
lemma told_update (id : Uuid) (patch : PayoutPatch) (guard : Option (List PayoutStatus))
    (told : Told rest w) :
    Told (id :: rest) (w.updatePayout id patch guard).2 := by
  intro k r c found confirmed client
  obtain ⟨r₀, before, rfl | ⟨rfl, -⟩⟩ := row_of_update found
  · exact (told k r c before confirmed client).imp_left (List.mem_cons_of_mem _)
  · exact .inl List.mem_cons_self

/-- An update to another status confirms nothing. -/
lemma told_update_of_ne (id : Uuid) (patch : PayoutPatch) (guard : Option (List PayoutStatus))
    (told : Told rest w) (status : patch.status ≠ some .confirmed) :
    Told rest (w.updatePayout id patch guard).2 := by
  intro k r c found confirmed client
  obtain ⟨r₀, before, rfl | ⟨rfl, rfl⟩⟩ := row_of_update found
  · exact told k r c before confirmed client
  · refine told k r₀ c before ?_ client
    change patch.status.getD r₀.status = _ at confirmed
    cases eq : patch.status with
    | none => simpa [eq] using confirmed
    | some s => exact absurd (by simpa [eq] using confirmed) (eq ▸ status)

/-- More may still be to come. -/
lemma Told.mono {rest' : List Uuid} (told : Told rest w) (sub : rest ⊆ rest') : Told rest' w :=
  fun id r c found confirmed client => (told id r c found confirmed client).imp_left fun mem => sub mem

/-- An update leaves the other rows. -/
lemma find?_update_of_ne {patch : PayoutPatch} {guard : Option (List PayoutStatus)} {k : Uuid}
    (ne : k ≠ id) :
    (w.updatePayout id patch guard).2.payouts.find? k = w.payouts.find? k := by
  change (Table.update _ _ _ _).2.find? k = _
  rw [Table.find?_update]
  cases w.payouts.find? k <;> simp [ne]

/-- A payout that has been dealt with. -/
lemma Told.tail (told : Told (id :: rest) w)
    (announced : ∀ r c, w.payouts.find? id = some r → r.status = .confirmed →
      truthy r.clientId = some c → Announced c id w) : Told rest w := by
  intro k r c found confirmed client
  rcases told k r c found confirmed client with mem | announced'
  · rcases List.mem_cons.1 mem with rfl | mem
    · exact .inr (announced r c found confirmed client)
    · exact .inl mem
  · exact .inr announced'

end

/-! ## Programs -/

section
variable {d : Deployment} {chain : Chain → Chain → Prop}
  {cond : Hist Api → World → Event Api → Prop} {w : World} {h : Hist Api} {R : World → Prop}

/-- No operation fails in the machine without failures. -/
lemma isFaultless_ledger : (faultlessLedger d chain cond).IsFaultless := fun _ _ _ ok => ok.1

/-- While a payout call is waiting nothing happens to the ledger. -/
lemma calm_alone {w' : World} (move : (faultlessLedger d chain cond).Alone h w w') : Calm w w' :=
  Machine.Alone.keeps (I := Calm w) (fun _ _ move calm =>
    ⟨(calm_env _ _ move).payouts.trans calm.payouts,
      calm.outbox.trans (calm_env _ _ move).outbox⟩) move .refl

/-- A calm operation. -/
lemma leads_calm {op : Call} (calm : IsCalm op) (stays : Stays R) (hR : R w) :
    (faultlessLedger d chain cond).Leads (faultlessLedger d chain cond).Alone op
      (fun _ w _ => R w) w h :=
  Machine.leads_of_faultless isFaultless_ledger
    (fun _ _ _ move run _ => stays _ _ (calm_exec run calm) (stays _ _ (calm_alone move) hR))
    fun _ _ move _ _ => stays _ _ (calm_alone move) hR

/-- A program of calm operations. -/
lemma wp_calm {α : Type} {p : Method α} (uses : p.Uses IsCalm fun _ => True) (stays : Stays R)
    (hR : R w) : (faultlessLedger d chain cond).wp (faultlessLedger d chain cond).Alone p
      (fun _ w _ => R w) w h :=
  Machine.wp_uses (R := fun w _ => R w) (fun _ _ _ calm => leads_calm calm stays) uses hR

/-- A program that confirms nothing. -/
lemma wp_harmless {α : Type} {rest : List Uuid} {p : Method α} (uses : p.Uses IsHarmless fun _ => True)
    (told : Told rest w) : (faultlessLedger d chain cond).wp (faultlessLedger d chain cond).Alone p
      (fun _ w _ => Told rest w) w h := by
  refine Machine.wp_uses (R := fun w _ => Told rest w) (fun op w h harmless told => ?_) uses told
  cases op
  case payoutInsert r =>
    refine Machine.leads_of_faultless isFaultless_ledger (fun _ _ _ move run _ => ?_)
      fun _ _ move _ _ => stays_told _ _ (calm_alone move) told
    exact told_insert (stays_told _ _ (calm_alone move) told) harmless run
  case payoutUpdate id patch guard =>
    refine Machine.leads_of_faultless isFaultless_ledger (fun _ _ _ move run _ => ?_)
      fun _ _ move _ _ => stays_told _ _ (calm_alone move) told
    cases run
    exact told_update_of_ne _ _ _ (stays_told _ _ (calm_alone move) told) harmless.2
  all_goals exact leads_calm trivial stays_told told

end

/-! ## What the methods use -/

section
variable {d : Deployment} {E : Exception → Prop}

/-- A neutral operation is calm. -/
lemma isCalm_of_neutral {c : Call} (hc : Neutral c) : IsCalm c := by
  cases c <;> trivial

/-- A calm operation confirms nothing. -/
lemma isHarmless_of_calm {c : Call} (hc : IsCalm c) : IsHarmless c := by
  cases c <;> trivial

/-- The batch transfer is calm. -/
lemma calm_vaultPayoutBatch {asset : SettlementAsset} {batchRef : Hex} {recipients : List Hex}
    {amountsAtomic : List Nat} {payouts : List Uuid} :
    (vaultPayoutBatch d asset batchRef recipients amountsAtomic payouts).Uses IsCalm fun _ => True :=
  uses_vaultPayoutBatch (fun _ => trivial) (fun _ _ => trivial)
    fun _ asks => isCalm_of_neutral (neutral_of_asks asks)

/-- Each rail is calm. -/
lemma calm_transferPayout {r : PayoutRecord} : (transferPayout d r).Uses IsCalm fun _ => True :=
  uses_transferPayout (fun _ => trivial) (fun _ _ => trivial)
    (fun _ asks => isCalm_of_neutral (neutral_of_asks asks)) rfl

/-- A guarded update to another status is harmless. -/
lemma uses_updateAuthorized {id : Uuid} {patch : PayoutPatch}
    (status : patch.status ≠ some .confirmed) : (request (updateAuthorized id patch)).Uses IsHarmless E :=
  Prog.uses_await ⟨nofun, status⟩

/-- What the handler of a payout does confirms nothing. -/
lemma uses_handlePayoutError {id : Uuid} {dto : AuthorizePayoutDto} {context : RequestContext}
    {e : Exception} : (handlePayoutError id dto context e).Uses IsHarmless fun _ => True := by
  unfold handlePayoutError
  split
  case h_1 => exact Prog.uses_bind (uses_updateAuthorized nofun) fun _ => Prog.uses_throw trivial
  case h_2 =>
    refine Prog.uses_bind (uses_updateAuthorized nofun) fun _ => ?_
    refine Prog.uses_bind (Prog.uses_await trivial) fun _ => ?_
    refine Prog.uses_bind (Prog.uses_orThrow trivial) fun _ => ?_
    exact Prog.uses_bind (Prog.uses_bind (Prog.uses_await trivial) fun _ => trivial) fun _ =>
      Prog.uses_throw trivial

/-- Nor does the handler of a batch. -/
lemma uses_handleBatchError {dto : AuthorizePayoutDto} {context : RequestContext}
    {claimed : List PayoutRecord} {e : Exception} :
    (handleBatchError dto context claimed e).Uses IsHarmless fun _ => True := by
  have fails (patch : PayoutPatch) (status : patch.status ≠ some .confirmed) :
      (Prog.promiseAll (claimed.map (batchFailSlot patch))).Uses IsHarmless fun _ => True := by
    refine Prog.uses_promiseAll fun s mem => ?_
    obtain ⟨c, -, rfl⟩ := List.mem_map.1 mem
    exact ⟨⟨nofun, status⟩, fun _ _ _ _ => trivial⟩
  unfold handleBatchError
  dsimp only
  split
  case isTrue => exact Prog.uses_bind (fails _ nofun) fun _ => Prog.uses_throw trivial
  case isFalse =>
    refine Prog.uses_bind (fails _ nofun) fun _ => Prog.uses_bind ?_ fun _ => Prog.uses_throw trivial
    refine Prog.uses_promiseAll fun s mem => ?_
    obtain ⟨c, -, rfl⟩ := List.mem_map.1 mem
    exact ⟨trivial, fun _ _ _ _ => trivial⟩

end

/-! ## authorizePayout -/

/-- The row is in the ledger, authorized. -/
def Holding (r : PayoutRecord) (w : World) : Prop :=
  w.payouts.find? r.id = some r ∧ r.status = .authorized

section
variable {d : Deployment} {chain : Chain → Chain → Prop}
  {cond : Hist Api → World → Event Api → Prop} {w : World} {h : Hist Api} {id : Uuid}
  {rest : List Uuid} {r : PayoutRecord}

/-- A row that is held stays held. -/
lemma stays_holding : Stays (Holding r) := fun _ _ calm holding =>
  ⟨calm.payouts ▸ holding.1, holding.2⟩

/-- A guarded update of a row that is authorized. -/
lemma updatePayout_of_holding (patch : PayoutPatch) (holding : Holding r w) :
    (w.updatePayout r.id patch (some [.authorized])).1 = some (patch.applyTo w.now r) ∧
      (w.updatePayout r.id patch (some [.authorized])).2.payouts.find? r.id =
        some (patch.applyTo w.now r) := by
  obtain ⟨found, status⟩ := holding
  constructor
  · change Option.map _ (Option.filter _ (w.payouts.find? r.id)) = _
    simp [found, Option.filter, status, PayoutPatch.toPatch]
  · change (Table.update _ _ _ _).2.find? r.id = _
    rw [Table.find?_update, found]
    simp [status, PayoutPatch.toPatch]

/-- The webhook of a payout, where it is confirmed. -/
lemma wp_announceConfirmed {status : TransferStatus} {R : World → Prop} (stays : Stays R) (hR : R w)
    (found : w.payouts.find? r.id = some r) (recorded : r.status = statusOf status)
    (told : Told (r.id :: rest) w) :
    (faultlessLedger d chain cond).wp (faultlessLedger d chain cond).Alone
      (announceConfirmed status (some r)) (fun r w _ => r = .ok () ∧ Told rest w ∧ R w) w h := by
  have others {w' : World} (calm : Calm w w')
      (announced : ∀ c, r.status = .confirmed → truthy r.clientId = some c → Announced c r.id w') :
      Except.ok () = (Except.ok () : Except Exception Unit) ∧ Told rest w' ∧ R w' := by
    refine ⟨rfl, (stays_told _ _ calm told).tail fun r' c found' confirmed client => ?_,
      stays _ _ calm hR⟩
    obtain rfl : r = r' := Option.some_inj.1 (found.symm.trans (calm.payouts ▸ found'))
    exact announced c confirmed client
  unfold announceConfirmed
  split
  case isFalse broadcasted =>
    refine others .refl fun c confirmed => ?_
    cases status with
    | broadcasted => exact absurd (recorded.symm.trans confirmed) nofun
    | confirmed => exact absurd rfl broadcasted
  case isTrue =>
    change (faultlessLedger d chain cond).wp _ (enqueue _ _ _) _ _ _
    unfold enqueue
    split
    case h_1 missing => exact others .refl fun c _ client => absurd (missing.symm.trans client) nofun
    case h_2 c given =>
      refine Machine.leads_of_faultless isFaultless_ledger (fun w₁ b w₂ move run _ => ?_)
        fun _ _ _ refused _ => nomatch refused
      have calm := calm_alone move
      cases run
      refine others ⟨calm.payouts, calm.outbox.trans (List.prefix_append _ _)⟩ fun c' _ client => ?_
      obtain rfl : c = c' := Option.some_inj.1 (given.symm.trans client)
      exact mem_insertOutbox rfl

/-- An operation that the world never refuses. -/
lemma wp_request {op : Call} {Q : End Api World op.Res} (total : ∀ w, World.exec op w ≠ none)
    (done : ∀ w₁ b w₂, Calm w w₁ → World.exec op w₁ = some (b, w₂) →
      Q (.ok b) w₂ (h ++ [⟨op, .done b⟩])) :
    (faultlessLedger d chain cond).wp (faultlessLedger d chain cond).Alone (request op) Q w h :=
  Machine.wp_await (Machine.leads_of_faultless isFaultless_ledger
    (fun w₁ b w₂ move run _ => done w₁ b w₂ (calm_alone move) run)
    fun w₁ _ _ refused _ => absurd refused (total w₁))

/-- An update, in whatever world it meets. -/
lemma leads_update {patch : PayoutPatch} {guard : Option (List PayoutStatus)}
    {K : Outcome Exception (Option PayoutRecord) → World → Hist Api → Prop}
    (done : ∀ w₁ h, Calm w w₁ → K (.done (w₁.updatePayout id patch guard).1)
      (w₁.updatePayout id patch guard).2 h) :
    (faultlessLedger d chain cond).Leads (faultlessLedger d chain cond).Alone
      (.payoutUpdate id patch guard) K w h := by
  refine Machine.leads_of_faultless isFaultless_ledger (fun w₁ b w₂ move run _ => ?_)
    fun _ _ _ refused _ => nomatch refused
  cases run
  exact done w₁ _ (calm_alone move)

/-- An update is performed in the world as it has calmly become. -/
lemma wp_update {patch : PayoutPatch} {guard : Option (List PayoutStatus)}
    {Q : End Api World (Option PayoutRecord)}
    (done : ∀ w₁ h, Calm w w₁ → Q (.ok (w₁.updatePayout id patch guard).1)
      (w₁.updatePayout id patch guard).2 h) :
    (faultlessLedger d chain cond).wp (faultlessLedger d chain cond).Alone
      (request (.payoutUpdate id patch guard)) Q w h :=
  Machine.wp_await (leads_update done)

/-- The audit is written. -/
lemma wp_recordAudit {type : AuditEventType} {actor : AuditActor} {payload : List (String × Json)}
    {R : World → Prop} (stays : Stays R) (hR : R w) :
    (faultlessLedger d chain cond).wp (faultlessLedger d chain cond).Alone
      (recordAudit type id actor payload) (fun r w _ => r = .ok () ∧ R w) w h :=
  wp_request (fun _ => nofun) fun _ _ _ calm run =>
    ⟨rfl, stays _ _ (calm_exec run trivial) (stays _ _ calm hR)⟩

/-- The body of the `try`: what it confirms is announced. -/
lemma wp_executePayout {now : Timestamp} {dto : AuthorizePayoutDto} {context : RequestContext}
    (holding : Holding r w) (told : Told [] w) :
    (faultlessLedger d chain cond).wp (faultlessLedger d chain cond).Alone
      (executePayout d r.id now dto context r) (fun _ w _ => Told [] w) w h := by
  have stays : Stays fun w => Holding r w ∧ Told [] w := fun w w' calm both =>
    ⟨stays_holding _ _ calm both.1, stays_told _ _ calm both.2⟩
  refine Machine.wp_bind_of (wp_calm (Prog.uses_mono (fun _ => isCalm_of_neutral)
    uses_getAssetBalance) stays ⟨holding, told⟩) (fun balance w h both => ?_) fun _ _ _ both => both.2
  refine Machine.wp_bind_of (wp_calm (Prog.uses_require fun _ => trivial) stays both)
    (fun _ w h both => ?_) fun _ _ _ both => both.2
  refine Machine.wp_bind_of (wp_calm calm_transferPayout stays both)
    (fun transfer w h both => ?_) fun _ _ _ both => both.2
  refine Machine.wp_bind (wp_update fun w₁ h calm => ?_)
  obtain ⟨holding, told⟩ := stays _ _ calm both
  obtain ⟨returned, written⟩ := updatePayout_of_holding (recordPatch transfer now) holding
  have recorded := told_update r.id (recordPatch transfer now) (some [.authorized]) told
  dsimp only
  rw [returned]
  refine Machine.wp_bind_of (wp_recordAudit (R := fun w => w.payouts.find? r.id =
      some ((recordPatch transfer now).applyTo w₁.now r) ∧ Told [r.id] w)
    (fun w w' calm both => ⟨calm.payouts ▸ both.1, stays_told _ _ calm both.2⟩) ⟨written, recorded⟩)
    (fun _ w h both => ?_) fun _ _ _ both => nomatch both.1
  refine Machine.wp_bind_of (wp_announceConfirmed (R := fun _ => True) (fun _ _ _ _ => trivial)
    trivial both.2.1 rfl both.2.2) (fun _ _ _ post => post.2.1) fun _ _ _ post => nomatch post.1

/-- A claim that succeeds holds its row, and leaves those that are held. -/
lemma holding_of_claim {now : Timestamp} {a : PayoutRecord}
    (res : (w.updatePayout id (claimPatch now) (some [.prepared])).1 = some a) :
    a.id = id ∧ Holding a (w.updatePayout id (claimPatch now) (some [.prepared])).2 ∧
      ∀ b, Holding b w → b.id ≠ id ∧
        Holding b (w.updatePayout id (claimPatch now) (some [.prepared])).2 := by
  obtain ⟨r₀, written, prepared, rfl⟩ := written_of_update res
  have key := written.id_eq
  refine ⟨key, ⟨?_, rfl⟩, fun b holding => ?_⟩
  · rw [key, written.find, if_pos rfl]
  · have ne : b.id ≠ id := by
      intro same
      obtain rfl : r₀ = b := Option.some_inj.1 (written.old.symm.trans (same ▸ holding.1))
      simp [holding.2] at prepared
    exact ⟨ne, by rw [written.find, if_neg ne]; exact holding.1, holding.2⟩

/-- An authorization leaves the clients told. -/
lemma wp_authorizePayout {dto : AuthorizePayoutDto} {context : RequestContext} (told : Told [] w) :
    (faultlessLedger d chain cond).wp (faultlessLedger d chain cond).Alone
      (authorizePayout d id dto context) (fun _ w _ => Told [] w) w h := by
  have reads : ∀ {α : Type} {p : Method α} {w h}, p.Uses Neutral (fun _ => True) → Told [] w →
      (faultlessLedger d chain cond).wp (faultlessLedger d chain cond).Alone p
        (fun _ w _ => Told [] w) w h := fun uses told =>
    wp_calm (Prog.uses_mono (fun _ => isCalm_of_neutral) uses) stays_told told
  refine Machine.wp_bind_of (reads uses_requirePayout told) (fun payout w h told => ?_)
    fun _ _ _ told => told
  split
  case isTrue => exact reads uses_toResponse told
  case isFalse =>
    refine Machine.wp_bind_of (reads (uses_request rfl) told) (fun now w h told => ?_)
      fun _ _ _ told => told
    refine Machine.wp_bind (wp_update fun w₁ h calm => ?_)
    have claimed := told_update_of_ne id (claimPatch now) (some [.prepared])
      (stays_told _ _ calm told) nofun
    dsimp only
    cases res : (w₁.updatePayout id (claimPatch now) (some [.prepared])).1 with
    | none =>
      refine Machine.wp_bind_of (reads uses_requirePayout claimed) (fun current w h told => ?_)
        fun _ _ _ told => told
      split
      case isTrue => exact reads uses_toResponse told
      case isFalse => exact told
    | some a =>
      obtain ⟨rfl, holding, -⟩ := holding_of_claim res
      have stays : Stays fun w => Holding a w ∧ Told [] w := fun w w' calm both =>
        ⟨stays_holding _ _ calm both.1, stays_told _ _ calm both.2⟩
      refine Machine.wp_bind_of (wp_recordAudit stays ⟨holding, claimed⟩) (fun _ w h both => ?_)
        fun _ _ _ both => both.2.2
      refine Machine.wp_bind_of (P := fun _ w _ => Told [] w) (Machine.wp_tryCatch_of
        (wp_executePayout both.2.1 both.2.2) (fun _ _ _ told => told) fun e w h told =>
          wp_harmless uses_handlePayoutError told) (fun updated w h told => ?_) fun _ _ _ told => told
      refine Machine.wp_bind_of (reads (Prog.uses_orThrow trivial) told) (fun updated w h told => ?_)
        fun _ _ _ told => told
      exact reads uses_toResponse told

/-- A creation leaves the clients told. -/
lemma wp_createPayout {dto : CreatePayoutDto} {context : RequestContext} (told : Told [] w) :
    (faultlessLedger d chain cond).wp (faultlessLedger d chain cond).Alone
      (createPayout d dto context) (fun _ w _ => Told [] w) w h := by
  have next : ∀ {α β : Type} {p : Method α} {f : α → Method β} {w h},
      p.Uses IsHarmless (fun _ => True) → Told [] w →
      (∀ a w h, Told [] w → (faultlessLedger d chain cond).wp
        (faultlessLedger d chain cond).Alone (f a) (fun _ w _ => Told [] w) w h) →
      (faultlessLedger d chain cond).wp (faultlessLedger d chain cond).Alone (p >>= f)
        (fun _ w _ => Told [] w) w h := fun uses told rest =>
    Machine.wp_bind_of (wp_harmless uses told) rest fun _ _ _ told => told
  refine next (Prog.uses_ofExcept fun _ _ => trivial) told fun amountAtomic w h told => ?_
  refine next (Prog.uses_ofExcept fun _ _ => trivial) told fun _ w h told => ?_
  refine next (Prog.uses_await trivial) told fun now w h told => ?_
  refine next (Prog.uses_await trivial) told fun id w h told => ?_
  refine next (Prog.uses_bind (Prog.uses_await rfl) fun o => ?_) told fun r w h told => ?_
  · cases o with
    | some inserted => trivial
    | none => exact Prog.uses_bind (Prog.uses_await trivial) fun _ =>
        Prog.uses_bind (Prog.uses_orThrow trivial) fun _ => trivial
  · obtain ⟨record, existed⟩ := r
    have harmless {α : Type} {p : Method α} (uses : p.Uses Neutral fun _ => True) :
        p.Uses IsHarmless fun _ => True :=
      Prog.uses_mono (fun _ hc => isHarmless_of_calm (isCalm_of_neutral hc)) uses
    cases existed with
    | true => exact next (harmless uses_recordAudit) told fun _ w h told =>
        wp_harmless (harmless uses_toResponse) told
    | false =>
      refine next (harmless uses_recordAudit) told fun _ w h told => ?_
      dsimp only
      split
      case isTrue => exact wp_authorizePayout told
      case isFalse => exact wp_harmless (harmless uses_toResponse) told

/-! ## authorizePayoutBatch -/

/-- The legs of a batch are held, each once, and nothing has to be announced. -/
structure Held (claimed : List PayoutRecord) (w : World) : Prop where
  told : Told [] w
  holding : ∀ a ∈ claimed, Holding a w
  nodup : (claimed.map PayoutRecord.id).Nodup

variable {claimed : List PayoutRecord} {context : RequestContext} {dto : AuthorizePayoutDto}

/-- Legs that are held stay held. -/
lemma stays_held : Stays (Held claimed) := fun _ _ calm held =>
  ⟨stays_told _ _ calm held.told, fun a mem => stays_holding _ _ calm (held.holding a mem),
    held.nodup⟩

/-- The claims of a batch leave its legs held, or nothing to announce. -/
lemma wp_claimBatch {now : Timestamp} {payouts : List PayoutRecord} (held : Held claimed w) :
    (faultlessLedger d chain cond).wp (faultlessLedger d chain cond).Alone
      (claimBatch now payouts claimed)
      (fun r w _ => Told [] w ∧ ∀ claimed, r = .ok claimed → Held claimed w) w h := by
  induction payouts generalizing claimed w h with
  | nil => exact ⟨held.told, fun _ eq => by cases eq; exact held⟩
  | cons payout payouts ih =>
    refine Machine.wp_bind (wp_update fun w₁ h calm => ?_)
    have told := told_update_of_ne payout.id (claimPatch now) (some [.prepared])
      (stays_told _ _ calm held.told) nofun
    dsimp only
    cases res : (w₁.updatePayout payout.id (claimPatch now) (some [.prepared])).1 with
    | none =>
      have rollback : (Prog.promiseAll (claimed.map rollbackSlot)).Uses IsHarmless fun _ => True := by
        refine Prog.uses_promiseAll fun s mem => ?_
        obtain ⟨c, -, rfl⟩ := List.mem_map.1 mem
        exact ⟨⟨nofun, nofun⟩, fun _ _ _ _ => trivial⟩
      exact Machine.wp_bind_of (wp_harmless rollback told) (fun _ _ _ told => ⟨told, nofun⟩)
        fun _ _ _ told => ⟨told, nofun⟩
    | some a =>
      obtain ⟨key, holding, others⟩ := holding_of_claim res
      refine ih ⟨told, fun b mem => ?_, ?_⟩
      · rcases List.mem_append.1 mem with mem | mem
        · exact (others b (stays_holding _ _ calm (held.holding b mem))).2
        · obtain rfl := List.mem_singleton.1 mem
          exact holding
      · rw [List.map_append, List.map_singleton]
        refine List.nodup_append_comm.1 (List.nodup_cons.2 ⟨fun mem => ?_, held.nodup⟩)
        obtain ⟨b, hb, same⟩ := List.mem_map.1 mem
        exact (others b (stays_holding _ _ calm (held.holding b hb))).1 (same.trans key)

/-- The rows of a batch after its transfer has been recorded. -/
structure Settled (status : TransferStatus) (rows : List PayoutRecord) (w : World) : Prop where
  told : Told (rows.map PayoutRecord.id) w
  found : ∀ r ∈ rows, w.payouts.find? r.id = some r
  recorded : ∀ r ∈ rows, r.status = statusOf status

/-- Legs that have been recorded stay so. -/
lemma stays_settled {status : TransferStatus} {rows : List PayoutRecord} :
    Stays (Settled status rows) := fun _ _ calm settled =>
  ⟨stays_told _ _ calm settled.told, fun r mem => calm.payouts ▸ settled.found r mem,
    settled.recorded⟩

/-- The loop that announces the legs. -/
lemma wp_announceLegs {exec : TransferExecution} {rows : List PayoutRecord}
    (settled : Settled exec.status rows w) :
    (faultlessLedger d chain cond).wp (faultlessLedger d chain cond).Alone
      (Prog.forEach (announceLeg dto context exec) (rows.map some)) (fun _ w _ => Told [] w) w h := by
  refine Machine.wp_forEach (I := fun bs w _ => ∃ rows, bs = rows.map some ∧
    Settled exec.status rows w) ?_ ?_ ⟨rows, rfl, settled⟩
  · rintro b bs w h ⟨rows, eq, settled⟩
    cases rows with
    | nil => cases eq
    | cons u rows =>
      obtain ⟨rfl, rfl⟩ := List.cons.inj eq
      refine Machine.wp_bind (Machine.wp_orThrow (fun _ eq => ?_) nofun)
      cases eq
      refine Machine.wp_bind_of (wp_recordAudit stays_settled settled) (fun _ w h both => ?_)
        fun _ _ _ both => nomatch both.1
      obtain ⟨-, settled⟩ := both
      obtain ⟨found, later⟩ := List.forall_mem_cons.1 settled.found
      obtain ⟨recorded, alike⟩ := List.forall_mem_cons.1 settled.recorded
      refine Machine.wp_mono (fun r w h post => ?_) (wp_announceConfirmed
        (R := fun w => ∀ r ∈ rows, w.payouts.find? r.id = some r)
        (fun _ _ calm later r mem => calm.payouts ▸ later r mem) later found recorded settled.told)
      cases r with
      | ok _ => exact ⟨rows, rfl, post.2.1, post.2.2, alike⟩
      | error e => exact nomatch post.1
  · rintro w h ⟨rows, eq, settled⟩
    obtain rfl := List.map_eq_nil_iff.1 eq.symm
    exact settled.told

/-- The rows that the legs of a batch have become. -/
lemma rows_of_legs {status : TransferStatus} {updated : List (Option PayoutRecord)}
    (each : List.Forall₂ (fun a b => ∃ r, b = some r ∧ r.id = a.id ∧ r.status = statusOf status ∧
      w.payouts.find? r.id = some r) claimed updated) :
    ∃ rows : List PayoutRecord, updated = rows.map some ∧ rows.map PayoutRecord.id = claimed.map PayoutRecord.id ∧
      ∀ r ∈ rows, r.status = statusOf status ∧ w.payouts.find? r.id = some r := by
  induction each with
  | nil => exact ⟨[], rfl, rfl, by simp⟩
  | cons head _ ih =>
    obtain ⟨r, rfl, key, row⟩ := head
    obtain ⟨rows, rfl, keys, found⟩ := ih
    exact ⟨r :: rows, rfl, by simp [key, keys], List.forall_mem_cons.2 ⟨row, found⟩⟩

/-- The body of the `try`: what it confirms is announced. -/
lemma wp_executeBatch {asset : SettlementAsset} {now : Timestamp} (held : Held claimed w) :
    (faultlessLedger d chain cond).wp (faultlessLedger d chain cond).Alone
      (executeBatch d asset now dto context claimed) (fun _ w _ => Told [] w) w h := by
  refine Machine.wp_bind_of (wp_calm calm_vaultPayoutBatch stays_held held)
    (fun exec w h held => ?_) fun _ _ _ held => held.told
  have distinct := List.inj_on_of_nodup_map held.nodup
  refine Machine.wp_bind (Machine.wp_promiseAll_each
    (P := Holding) (R := fun a b w => ∃ r, b = some r ∧ r.id = a.id ∧ r.status = statusOf exec.status ∧
      w.payouts.find? r.id = some r)
    (G := Told (claimed.map PayoutRecord.id)) (fun _ => ⟨_, _, rfl⟩) held.nodup.of_map
    (fun a mem op post slot w h holding told => ?_) (fun updated w h each told => ?_) held.holding
    (held.told.mono (List.nil_subset _)))
  · cases slot
    refine leads_update fun w₁ h calm => ⟨?_, by rintro e ⟨⟩⟩
    rintro b ⟨⟩
    obtain ⟨returned, written⟩ := updatePayout_of_holding (recordPatch exec now)
      (stays_holding _ _ calm holding)
    refine ⟨⟨_, returned, rfl, rfl, written⟩, ?_, fun y hy ne => ?_⟩
    · exact (told_update _ _ _ (stays_told _ _ calm told)).mono (List.cons_subset.2
        ⟨List.mem_map_of_mem mem, List.Subset.refl _⟩)
    · have apart : y.id ≠ a.id := fun same => ne (distinct hy mem same)
      refine ⟨fun holding => ⟨?_, holding.2⟩, ?_⟩
      · rw [find?_update_of_ne apart, calm.payouts]
        exact holding.1
      · rintro b ⟨r, rfl, key, recorded, found⟩
        refine ⟨r, rfl, key, recorded, ?_⟩
        rw [find?_update_of_ne (key ▸ apart), calm.payouts]
        exact found
  · obtain ⟨rows, rfl, keys, found⟩ := rows_of_legs each
    have settled : Settled exec.status rows w :=
      ⟨keys ▸ told, fun r mem => (found r mem).2, fun r mem => (found r mem).1⟩
    exact Machine.wp_bind_of (wp_announceLegs settled) (fun _ _ _ told => told) fun _ _ _ told => told

/-- A batch leaves the clients told. -/
lemma wp_authorizePayoutBatch {payoutIds : List Uuid} (told : Told [] w) :
    (faultlessLedger d chain cond).wp (faultlessLedger d chain cond).Alone
      (authorizePayoutBatch d payoutIds dto context) (fun _ w _ => Told [] w) w h := by
  have next : ∀ {α β : Type} {p : Method α} {f : α → Method β} {w h},
      p.Uses IsCalm (fun _ => True) → Told [] w →
      (∀ a w h, Told [] w → (faultlessLedger d chain cond).wp
        (faultlessLedger d chain cond).Alone (f a) (fun _ w _ => Told [] w) w h) →
      (faultlessLedger d chain cond).wp (faultlessLedger d chain cond).Alone (p >>= f)
        (fun _ w _ => Told [] w) w h := fun uses told rest =>
    Machine.wp_bind_of (wp_calm uses stays_told told) rest fun _ _ _ told => told
  refine next (Prog.uses_require fun _ => trivial) told fun _ w h told => ?_
  split
  case h_1 => exact told
  case h_2 ids _ =>
    refine next (Prog.uses_promiseAll fun s mem => ?_) told fun payouts w h told => ?_
    · obtain ⟨id, -, rfl⟩ := List.mem_map.1 mem
      exact ⟨trivial, fun _ _ _ _ => trivial⟩
    refine next (Prog.uses_orThrow trivial) told fun first w h told => ?_
    refine next (Prog.uses_require fun _ => trivial) told fun _ w h told => ?_
    refine next (Prog.uses_require fun _ => trivial) told fun _ w h told => ?_
    refine next (Prog.uses_mono (fun _ => isCalm_of_neutral) uses_getAssetBalance) told
      fun balance w h told => ?_
    refine next (Prog.uses_require fun _ => trivial) told fun _ w h told => ?_
    refine next (Prog.uses_await trivial) told fun now w h told => ?_
    have held : Held [] w := ⟨told, by simp, .nil⟩
    refine Machine.wp_bind_of (wp_claimBatch held) (fun claimed w h post => ?_)
      fun _ _ _ post => post.1
    have audits : (Prog.promiseAll (claimed.map (batchAuthorizedSlot dto context))).Uses IsCalm
        fun _ => True := by
      refine Prog.uses_promiseAll fun s mem => ?_
      obtain ⟨c, -, rfl⟩ := List.mem_map.1 mem
      exact ⟨trivial, fun _ _ _ _ => trivial⟩
    refine Machine.wp_bind_of (wp_calm audits stays_held (post.2 claimed rfl)) (fun _ w h held => ?_)
      fun _ _ _ held => held.told
    refine Machine.wp_bind_of (P := fun _ w _ => Told [] w) (Machine.wp_tryCatch_of
      (wp_executeBatch held) (fun _ _ _ told => told) fun e w h told =>
        wp_harmless uses_handleBatchError told) (fun updated w h told => ?_) fun _ _ _ told => told
    refine wp_calm (Prog.uses_promiseAll fun s mem => ?_) stays_told told
    obtain ⟨c, -, rfl⟩ := List.mem_map.1 mem
    exact ⟨trivial, fun _ _ _ _ => trivial⟩

/-! ## reconcilePayout -/

/-- The events of a history say nothing of the chain. -/
def Unseen (h : Hist Api) : Prop :=
  h.findSome? receiptOf = none ∧ h.findSome? headOf = none

/-- The row is as the reconciliation has read it, and what it takes as final it has seen final. -/
structure Read (d : Deployment) (payout : PayoutRecord) (r : TransactionReconciliation) (w : World)
    (h : Hist Api) : Prop where
  told : Told [] w
  row : w.payouts.find? payout.id = some payout
  final : r.finalized = true → SeenFinal d h

/-- What has been seen final has been seen. -/
lemma seenFinal_append {e : Event Api} (seen : SeenFinal d h) : SeenFinal d (h ++ [e]) := by
  obtain ⟨rc, n, receipt, head, final⟩ := seen
  exact ⟨rc, n, by rw [Data.findSome?_concat, receipt]; rfl, by rw [Data.findSome?_concat, head]; rfl, final⟩

/-- The row that is read is in the ledger, and the chain has not been asked. -/
lemma wp_requirePayout (told : Told [] w) :
    (faultlessLedger d chain cond).wp (faultlessLedger d chain cond).Alone (requirePayout id context)
      (fun r w h => Told [] w ∧ ∀ payout, r = .ok payout →
        payout.id = id ∧ w.payouts.find? payout.id = some payout ∧ Unseen h) w [] := by
  refine Machine.wp_bind (wp_request (fun _ => nofun) fun w₁ b w₂ calm run => ?_)
  obtain ⟨rfl, rfl⟩ : w₁.findPayout id context.clientId = b ∧ w₁ = w₂ := by
    cases run
    exact ⟨rfl, rfl⟩
  have told := stays_told _ _ calm told
  cases read : w₁.findPayout id context.clientId with
  | none => exact ⟨told, by rintro _ ⟨⟩⟩
  | some payout =>
    have found : w₁.payouts.find? id = some payout := (Option.filter_eq_some_iff.1 read).1
    obtain rfl := Table.key_of_find? found
    refine ⟨told, ?_⟩
    rintro _ ⟨⟩
    exact ⟨rfl, found, rfl, rfl⟩

/-- What counts as final has been seen final. -/
lemma wp_reconcileTransaction {payout : PayoutRecord} {hash : Hex} (told : Told [] w)
    (row : w.payouts.find? payout.id = some payout) (unseen : Unseen h) :
    (faultlessLedger d chain cond).wp (faultlessLedger d chain cond).Alone
      (reconcileTransaction d hash)
      (fun r w h => Told [] w ∧ ∀ rec, r = .ok rec → Read d payout rec w h) w h := by
  refine Machine.wp_bind (Machine.leads_of_faultless isFaultless_ledger
    (fun w₁ rc w₂ move run _ => ?_) fun w₁ e move _ _ => ?_)
  · have calm := calm_alone move
    have told := stays_told _ _ calm told
    obtain ⟨rc', -, eq⟩ := Option.map_eq_some_iff.1 run
    cases eq
    refine Machine.wp_bind (wp_request (fun _ => by simp [World.exec]) fun w₂ n w₃ calm' run => ?_)
    cases run
    refine ⟨stays_told _ _ calm' told, ?_⟩
    rintro _ ⟨⟩
    refine ⟨stays_told _ _ calm' told, (calm'.payouts.trans calm.payouts) ▸ row, fun final => ?_⟩
    simp only [reconciliationOf, Bool.and_eq_true, decide_eq_true_eq] at final
    refine ⟨rc, w₂.chain.reportedHead, ?_, ?_, final⟩
    · rw [Data.findSome?_concat, Data.findSome?_concat, unseen.1]
      rfl
    · rw [Data.findSome?_concat, Data.findSome?_concat, unseen.2]
      rfl
  · have calm := calm_alone move
    refine ⟨stays_told _ _ calm told, ?_⟩
    rintro _ ⟨⟩
    exact ⟨stays_told _ _ calm told, calm.payouts ▸ row, fun final => absurd final Bool.false_ne_true⟩

/-- The write of a reconciliation: it confirms what has been announced. -/
lemma leads_reconcile {payout : PayoutRecord} {r : TransactionReconciliation} {now : Timestamp}
    (read : Read d payout r w h) :
    (faultlessLedger d chain (Unconfirming d)).Leads (faultlessLedger d chain (Unconfirming d)).Alone
      (.payoutUpdate payout.id (reconcilePatch payout r now) none) (fun _ w _ => Told [] w) w h := by
  refine Machine.leads_of_faultless isFaultless_ledger (fun w₁ b w₂ move run ok => ?_)
    fun _ _ _ refused _ => nomatch refused
  cases run
  have calm := calm_alone move
  have told := stays_told _ _ calm read.told
  have row : w₁.payouts.find? payout.id = some payout := calm.payouts ▸ read.row
  refine Told.tail (told_update _ _ _ told) fun r' c found confirmed client => ?_
  obtain ⟨r₀, before, eq⟩ := row_of_update found
  obtain rfl : payout = r₀ := Option.some_inj.1 (row.symm.trans before)
  have already : payout.status = .confirmed ∧ truthy payout.clientId = some c := by
    rcases eq with rfl | ⟨-, rfl⟩
    · exact ⟨confirmed, client⟩
    · refine ⟨?_, client⟩
      change reconciledStatus payout r = .confirmed at confirmed
      by_cases final : r.finalized = true
      · exact ok.2 payout.id _ rfl (read.final final) payout row
      · unfold reconciledStatus at confirmed
        rw [if_neg final] at confirmed
        split at confirmed
        case isTrue => cases confirmed
        case isFalse => exact confirmed
  exact (told payout.id payout c row already.1 already.2).resolve_left List.not_mem_nil

/-- A reconciliation that confirms no payout keeps the clients told. -/
lemma wp_reconcilePayout (told : Told [] w) :
    (faultlessLedger d chain (Unconfirming d)).wp (faultlessLedger d chain (Unconfirming d)).Alone
      (reconcilePayout d id context) (fun _ w _ => Told [] w) w [] := by
  refine Machine.wp_bind_of (wp_requirePayout told) (fun payout w h post => ?_) fun _ _ _ post => post.1
  obtain ⟨told, read⟩ := post
  obtain ⟨rfl, row, unseen⟩ := read payout rfl
  refine Machine.wp_bind (Machine.wp_orThrow (fun hash _ => ?_) fun _ => told)
  refine Machine.wp_bind_of (wp_reconcileTransaction told row unseen) (fun r w h post => ?_)
    fun _ _ _ post => post.1
  refine Machine.wp_bind (wp_request (fun _ => nofun) fun w₁ now w₂ calm run => ?_)
  cases run
  have read := post.2 r rfl
  have read : Read d payout r w₁ (h ++ [⟨.clock, .done w₁.now⟩]) :=
    ⟨stays_told _ _ calm read.told, calm.payouts ▸ read.row, fun final =>
      seenFinal_append (read.final final)⟩
  refine Machine.wp_bind_of (P := fun _ w _ => Told [] w) (Machine.wp_await (leads_reconcile read))
    (fun updated w h told => wp_calm ?_ stays_told told) fun _ _ _ told => told
  refine Prog.uses_bind (Prog.uses_await trivial) fun _ => ?_
  refine Prog.uses_bind (Prog.uses_orThrow trivial) fun _ => ?_
  exact Prog.uses_bind (Prog.uses_await trivial) fun _ => trivial

end

/-! ## Sessions -/

section
variable {d : Deployment} {chain : Chain → Chain → Prop} {c : Chain} {now : Timestamp}
  {nextUuid : Uuid} {nextBytes32 : Hex} {w : World}

/-- What a call is discarded of it has done all the same. -/
lemma wp_discard {α : Type} {p : Method α} {w : World}
    (wp : (faultlessLedger d chain (Unconfirming d)).wp (faultlessLedger d chain (Unconfirming d)).Alone
      p (fun _ w _ => Told [] w) w []) :
    (faultlessLedger d chain (Unconfirming d)).wp (faultlessLedger d chain (Unconfirming d)).Alone
      p.discard (fun _ w _ => Told [] w) w [] :=
  Machine.wp_bind_of wp (fun _ _ _ told => told) fun _ _ _ told => told

/-- Where no reconciliation is the first to confirm a payout, the client of every confirmed payout has
    been told, after any session of payout calls without faults. -/
theorem announced_of_session
    (session : (faultlessLedger d chain (Unconfirming d)).Session (.fresh c now nextUuid nextBytes32) w)
    {r : PayoutRecord} {client : String} (mem : r ∈ w.payouts.rows) (confirmed : r.status = .confirmed)
    (owner : r.clientId = some client) (named : client ≠ "") : Announced client r.id w := by
  have told : Told [] w := by
    refine Machine.session_induction (fun w w' move told => stays_told w w' (calm_env w w' move) told)
      (fun p r w w' h entry run told =>
        Machine.wp_sound (Q := fun _ w _ => Told [] w) run ?_) session fun _ _ _ found => nomatch found
    cases entry with
    | createPayout here =>
      cases here
      exact wp_discard (wp_createPayout told)
    | authorizePayout here =>
      cases here
      exact wp_discard (wp_authorizePayout told)
    | authorizePayoutBatch here =>
      cases here
      exact wp_discard (wp_authorizePayoutBatch told)
    | reconcilePayout here =>
      cases here
      exact wp_discard (wp_reconcilePayout told)
  refine (told r.id r client (Table.find?_of_mem mem) confirmed ?_).resolve_left List.not_mem_nil
  simp [truthy, owner, Option.filter, named]

end

/-! ## Concrete sessions -/

/-- The operation is performed and answered, and is not the write of a reconciliation. -/
def plain (_ : Hist Api) (_ : World) (e : Event Api) : Bool :=
  match e.outcome with
  | .done _ => guarded e
  | _ => false

/-- The operation is performed and answered. -/
def answered (_ : Hist Api) (_ : World) (e : Event Api) : Bool :=
  match e.outcome with
  | .done _ => true
  | _ => false

/-- The check of the concrete runs decides that nothing fails. -/
lemma faultless_of_answered {h : Hist Api} {w : World} {e : Event Api}
    (ok : answered h w e = true) : e.Faultless World.exec w := by
  obtain ⟨op, b | e | ⟨b, e⟩⟩ := e
  · trivial
  · cases ok
  · cases ok

/-- The check of the concrete runs decides that the condition is met. -/
lemma allowed_of_plain {d : Deployment} {h : Hist Api} {w : World} {e : Event Api}
    (ok : plain h w e = true) : e.Faultless World.exec w ∧ Unconfirming d h w e := by
  obtain ⟨op, b | e | ⟨b, e⟩⟩ := e
  · refine ⟨trivial, ?_⟩
    rintro id patch eq
    cases eq
    cases ok
  · cases ok
  · cases ok

/-- The payout of the concrete sessions is confirmed, and belongs to the client. -/
def confirmedFor (w : World) : Bool :=
  (w.payouts.find? World.sampleId).any fun r =>
    decide (r.status = .confirmed ∧ r.clientId = some "client")

/-- The check of the concrete runs finds a confirmed payout of the client. -/
lemma of_confirmedFor {w : World} (res : confirmedFor w = true) :
    ∃ r ∈ w.payouts.rows, r.status = .confirmed ∧ r.clientId = some "client" := by
  obtain ⟨r, found, status⟩ := (Option.any_eq_true _ _).1 res
  exact ⟨r, Table.mem_of_find? found, of_decide_eq_true status⟩

/-- A payout that is confirmed by its authorization. -/
theorem announced_of_authorization :
    ∃ w, (faultlessLedger .sample Grows (Unconfirming .sample)).Session .sample w ∧
      ∃ r ∈ w.payouts.rows, r.status = .confirmed ∧ Announced "client" r.id w := by
  obtain ⟨w, session, res⟩ := Machine.exists_session
    (M := faultlessLedger .sample Grows (Unconfirming .sample)) (w := .sample) plain
    [.env mine, .call sampleCall (.replicate 15 .done)] confirmedFor
    (fun _ _ _ => allowed_of_plain) (by
      simp only [List.forall_mem_cons]
      exact ⟨env_mine, entry_sampleCall rfl, by simp⟩) (by decide +kernel)
  obtain ⟨r, mem, confirmed, owner⟩ := of_confirmedFor res
  exact ⟨w, session, r, mem, confirmed, announced_of_session session mem confirmed owner (by decide)⟩

/-- A payout that is broadcast, mined, and confirmed by a reconciliation: its client is not told. -/
theorem unannounced_of_reconciliation :
    ∃ w, (faultlessLedger asyncDeployment Grows fun _ _ _ => True).Session .sample w ∧
      ∃ r ∈ w.payouts.rows, r.status = .confirmed ∧ r.clientId = some "client" ∧
        ¬Announced "client" r.id w := by
  obtain ⟨w, session, res⟩ := Machine.exists_session
    (M := faultlessLedger asyncDeployment Grows fun _ _ _ => True) (w := .sample) answered
    [.call (createPayout asyncDeployment sampleDto .sample).discard (.replicate 15 .done), .env mine,
      .call (reconcilePayout asyncDeployment World.sampleId .sample).discard (.replicate 7 .done)]
    (fun w => confirmedFor w && w.outbox.isEmpty)
    (fun _ _ _ ok => ⟨faultless_of_answered ok, trivial⟩) (by
      simp only [List.forall_mem_cons]
      exact ⟨.createPayout rfl, env_mine, .reconcilePayout rfl, by simp⟩) (by decide +kernel)
  obtain ⟨confirmed, empty⟩ := Bool.and_eq_true_iff.1 res
  obtain ⟨r, mem, confirmed, owner⟩ := of_confirmedFor confirmed
  refine ⟨w, session, r, mem, confirmed, owner, ?_⟩
  rintro ⟨e, mem, -⟩
  rw [List.isEmpty_iff.1 empty] at mem
  cases mem

end AvaSettle.Payouts.Announce
