import Mathlib.Algebra.Order.Group.Multiset
import AvaSettle.Async.Observed
import AvaSettle.Async.Session
import AvaSettle.Settlements.Runs

/-!
# What a settlement response means

`record` inserts the row first and submits its commitment afterwards, and takes the row back where the
submission fails. Until the hash of the transaction is stored the row belongs to the call that has
inserted it, which alone may delete it; from then on nobody deletes it. A replay that finds the hash
can rely on both.
-/

namespace AvaSettle.Settlements.Responses
open Async
open Blockchain
open Data (Table)

/-! ## Rows -/

/-- What a row claims: its id, and the commitment under its reference. -/
structure Claim where
  id : Uuid
  settlementRef : Hex
  commitment : Hex

/-- The claim of a row. -/
def claimOf (r : PrivateSettlementRecord) : Claim := ⟨r.id, r.settlementRef, r.commitment⟩

/-- The claim of a response. -/
def claimIn (r : PrivateSettlementResponse) : Claim := ⟨r.id, r.settlementRef, r.commitment⟩

/-- A response claims what its row claims. -/
@[simp] lemma claimIn_toResponse {r : PrivateSettlementRecord} {b : Bool} :
    claimIn (toResponse r b) = claimOf r := rfl

/-- The claim of the row with an id, and the transaction that the row names. -/
def look (w : World) (id : Uuid) : Option (Claim × Option Hex) :=
  (w.settlements.find? id).map fun r => (claimOf r, r.transactionHash)

/-- The row of the claim is there, without a transaction. -/
def Pending (w : World) (c : Claim) : Prop := look w c.id = some (c, none)

/-- The row of the claim is there, with a transaction. -/
def Anchored (w : World) (c : Claim) : Prop := ∃ hash, look w c.id = some (c, some hash)

/-- A transaction that publishes the commitment has been submitted. -/
def Submitted (w : World) (c : Claim) : Prop :=
  ∃ s ∈ w.submissions, ∃ registry metadata,
    s.tx = .recordSettlement registry c.settlementRef c.commitment metadata

/-- The rows that calls have inserted and may take back. -/
abbrev Claims := Multiset Claim

/-- The invariant: every row that may be taken back belongs to one call and names no transaction, and
    what names a transaction has been submitted. -/
structure Inv (w : World) (a : Claims) : Prop where
  nodup : (a.map Claim.id).Nodup
  pending : ∀ c ∈ a, Pending w c
  submitted : ∀ c, Anchored w c → Submitted w c

/-- What other calls may do meanwhile. -/
structure Later (w w' : World) : Prop where
  anchored : ∀ c, Anchored w c → Anchored w' c
  submissions : w.submissions <+: w'.submissions

section
variable {w w' w₁ w₂ w₃ : World} {a : Claims} {c : Claim} {hash : Hex}

/-- The world may stay. -/
lemma Later.refl : Later w w := ⟨fun _ anchored => anchored, List.prefix_rfl⟩

/-- Two changes are one. -/
lemma Later.trans (h₁ : Later w₁ w₂) (h₂ : Later w₂ w₃) : Later w₁ w₃ :=
  ⟨fun c anchored => h₂.anchored c (h₁.anchored c anchored), h₁.submissions.trans h₂.submissions⟩

/-- What has been submitted stays so. -/
lemma Submitted.later (submitted : Submitted w c) (later : w.submissions <+: w'.submissions) :
    Submitted w' c := by
  obtain ⟨s, mem, tx⟩ := submitted
  exact ⟨s, later.subset mem, tx⟩

/-- Nothing that counts has changed. -/
lemma Inv.same (same : ∀ id, look w' id = look w id) (submissions : w.submissions <+: w'.submissions)
    (inv : Inv w a) : Inv w' a ∧ Later w w' := by
  have anchored (c : Claim) : Anchored w' c ↔ Anchored w c := by rw [Anchored, Anchored, same]
  refine ⟨⟨inv.nodup, fun c mem => ?_, fun c h => ?_⟩, fun c => (anchored c).2, submissions⟩
  · rw [Pending, same]
    exact inv.pending c mem
  · exact (inv.submitted c ((anchored c).1 h)).later submissions

/-- A row has been inserted. -/
lemma Inv.insert (look' : ∀ id, look w' id = if id = c.id then some (c, none) else look w id)
    (fresh : look w c.id = none) (submissions : w'.submissions = w.submissions) (inv : Inv w a) :
    Inv w' (c ::ₘ a) ∧ Later w w' := by
  have anchored (c' : Claim) : Anchored w' c' ↔ Anchored w c' := by
    rw [Anchored, Anchored, look']
    split
    case isTrue eq => simp [eq, fresh]
    case isFalse => rfl
  have new : c.id ∉ a.map Claim.id := fun mem => by
    obtain ⟨c', held, eq⟩ := Multiset.mem_map.1 mem
    have row := inv.pending c' held
    rw [Pending, eq, fresh] at row
    cases row
  refine ⟨⟨?_, fun c' mem => ?_, fun c' h => ?_⟩, fun c' => (anchored c').2, submissions ▸ List.prefix_rfl⟩
  · rw [Multiset.map_cons, Multiset.nodup_cons]
    exact ⟨new, inv.nodup⟩
  · rw [Pending, look']
    rcases Multiset.mem_cons.1 mem with rfl | mem
    · exact if_pos rfl
    · have ne : c'.id ≠ c.id := fun eq => new (eq ▸ Multiset.mem_map_of_mem _ mem)
      rw [if_neg ne]
      exact inv.pending c' mem
  · exact (inv.submitted c' ((anchored c').1 h)).later (submissions ▸ List.prefix_rfl)

/-- The other rows that may be taken back have other ids. -/
lemma Inv.ne_of_mem {c' : Claim} (inv : Inv w (c ::ₘ a)) (mem : c' ∈ a) : c'.id ≠ c.id := by
  intro eq
  have nodup := inv.nodup
  rw [Multiset.map_cons, Multiset.nodup_cons] at nodup
  exact nodup.1 (eq ▸ Multiset.mem_map_of_mem _ mem)

/-- The claims of other calls are of other rows. -/
lemma Inv.nodup_tail (inv : Inv w (c ::ₘ a)) : (a.map Claim.id).Nodup := by
  have nodup := inv.nodup
  rw [Multiset.map_cons, Multiset.nodup_cons] at nodup
  exact nodup.2

/-- The transaction of a row has been stored. -/
lemma Inv.anchor (look' : ∀ id, look w' id = if id = c.id then some (c, some hash) else look w id)
    (submitted : Submitted w c) (submissions : w'.submissions = w.submissions)
    (inv : Inv w (c ::ₘ a)) : Inv w' a ∧ Later w w' ∧ Anchored w' c := by
  have own : Pending w c := inv.pending c (Multiset.mem_cons_self c a)
  have other {c' : Claim} (ne : c'.id ≠ c.id) : look w' c'.id = look w c'.id := by
    rw [look', if_neg ne]
  refine ⟨⟨inv.nodup_tail, fun c' mem => ?_, fun c' anchored => ?_⟩, ⟨fun c' anchored => ?_, ?_⟩,
    hash, (look' c.id).trans (if_pos rfl)⟩
  · rw [Pending, other (inv.ne_of_mem mem)]
    exact inv.pending c' (Multiset.mem_cons_of_mem mem)
  · by_cases eq : c'.id = c.id
    · obtain ⟨hash', found⟩ := anchored
      rw [look', if_pos eq] at found
      cases found
      exact submitted.later (submissions ▸ List.prefix_rfl)
    · rw [Anchored, other eq] at anchored
      exact (inv.submitted c' anchored).later (submissions ▸ List.prefix_rfl)
  · by_cases eq : c'.id = c.id
    · obtain ⟨hash', found⟩ := anchored
      rw [Pending] at own
      rw [eq, own] at found
      cases found
    · rwa [Anchored, other eq]
  · exact submissions ▸ List.prefix_rfl

/-- A row has been taken back. -/
lemma Inv.erase (look' : ∀ id, look w' id = if id = c.id then none else look w id)
    (submissions : w'.submissions = w.submissions) (inv : Inv w (c ::ₘ a)) :
    Inv w' a ∧ Later w w' := by
  have own : Pending w c := inv.pending c (Multiset.mem_cons_self c a)
  have other {c' : Claim} (ne : c'.id ≠ c.id) : look w' c'.id = look w c'.id := by
    rw [look', if_neg ne]
  refine ⟨⟨inv.nodup_tail, fun c' mem => ?_, fun c' anchored => ?_⟩, ⟨fun c' anchored => ?_, ?_⟩⟩
  · rw [Pending, other (inv.ne_of_mem mem)]
    exact inv.pending c' (Multiset.mem_cons_of_mem mem)
  · by_cases eq : c'.id = c.id
    · obtain ⟨hash', found⟩ := anchored
      rw [look', if_pos eq] at found
      cases found
    · rw [Anchored, other eq] at anchored
      exact (inv.submitted c' anchored).later (submissions ▸ List.prefix_rfl)
  · by_cases eq : c'.id = c.id
    · obtain ⟨hash', found⟩ := anchored
      rw [Pending] at own
      rw [eq, own] at found
      cases found
    · rwa [Anchored, other eq]
  · exact submissions ▸ List.prefix_rfl

end

/-! ## The system -/

/-- Only the submission and the wait for its receipt may fail. -/
def OnlyChainFails (w : World) (e : Event Api) : Prop :=
  match e.op with
  | .submit _ _ _ => True
  | .waitForTransactionReceipt _ => True
  | _ => e.Faultless World.exec w

/-- A replay finds a row that names its transaction. -/
def SeesTransaction (w : World) : Event Api → Prop
  | ⟨.settlementFindByExternalId clientId externalId, _⟩ => ∀ r,
      w.settlements.rows.find? (fun r => sameKey clientId externalId r.clientId r.externalId) = some r →
        r.transactionHash ≠ none
  | _ => True

/-- The chain may fail, and a replay finds a row that names its transaction. -/
def Steady (_ : Hist Api) (w : World) (e : Event Api) : Prop :=
  OnlyChainFails w e ∧ SeesTransaction w e

/-- What is maintained of the settlement services. -/
def spec (d : Deployment) (chain : Chain → Chain → Prop) :
    Spec (settlementLedger d chain Steady) Claims where
  inv := Inv
  le := Later
  good _ := True
  good_nil := trivial
  le_refl _ := .refl
  le_trans := .trans
  env inv move := inv.same (fun id => by rw [look, move.settlements, look])
    (move.submissions ▸ List.prefix_rfl)

section
variable {d : Deployment} {chain : Chain → Chain → Prop} {a : Claims} {w w' : World} {h : Hist Api}
  {c : Claim} {α : Type}

/-- The operations that leave claims and transactions of all rows alone. -/
def IsCalm : Call → Prop
  | .settlementInsert _ => False
  | .settlementUpdate _ patch => patch.transactionHash = none
  | .settlementDelete _ => False
  | _ => True

/-- What a row claims and names after an update. -/
lemma look_update {id : Uuid} {patch : PrivateSettlementPatch} (k : Uuid) :
    look (w.updateSettlement id patch).2 k = if k = id then
      (look w k).map fun p => (p.1, patch.transactionHash.getD p.2) else look w k := by
  change ((w.settlements.update id _ _).2.find? k).map _ = _
  rw [Table.find?_update, look, Option.map_map]
  by_cases eq : k = id
  · rw [if_pos eq, Option.map_map]
    refine Option.map_congr fun r _ => ?_
    simp [eq, claimOf, PrivateSettlementPatch.toPatch, PrivateSettlementPatch.applyTo]
  · rw [if_neg eq]
    refine Option.map_congr fun r _ => ?_
    simp [eq]

/-- A calm operation leaves the ledger as it is. -/
lemma calm_exec {c : Call} {b : c.Res} (calm : IsCalm c) (run : World.exec c w = some (b, w'))
    (inv : Inv w a) : Inv w' a ∧ Later w w' := by
  refine inv.same (fun id => ?_) (World.submissions_exec run)
  by_cases writes : c.writes = some .settlements
  · cases c
    case settlementUpdate k patch =>
      obtain rfl : (w.updateSettlement k patch).2 = w' := by
        cases run
        rfl
      rw [look_update, show patch.transactionHash = none from calm]
      split
      case isTrue => simp
      case isFalse => rfl
    case settlementInsert => exact calm.elim
    case settlementDelete => exact calm.elim
    all_goals cases writes
  · rw [look, (World.exec_frame run).settlements writes, look]

/-- A calm operation, with what is known when it is answered. -/
lemma op_calm {o : Call} (calm : IsCalm o) {K : Outcome Exception o.Res → Claims → World → Hist Api → Prop}
    (post : ∀ w₁ f r w₂, Later w w₁ → Inv w₁ (a + f) →
      (settlementLedger d chain Steady).Reply o w₁ r w₂ → Steady h w₁ ⟨o, r⟩ → Later w₁ w₂ →
        K r a w₂ (h ++ [⟨o, r⟩])) : (spec d chain).op o K a w h := by
  intro w₁ f r w₂ later inv reply ok
  have after : Inv w₂ (a + f) ∧ Later w₁ w₂ := by
    cases r with
    | done b => exact calm_exec calm reply inv
    | refused e =>
      obtain ⟨-, rfl⟩ := reply
      exact ⟨inv, .refl⟩
    | lost b e => exact calm_exec calm reply.1 inv
  exact ⟨trivial, a, after.1, after.2, post w₁ f r w₂ later inv reply ok after.2⟩

/-- A calm operation in a program that promises nothing when it throws. -/
lemma wp_calm {o : Call} (calm : IsCalm o) {f : o.Res → Method α} {Q : Post Api World Claims α}
    (error : ∀ e a w h, Q (.error e) a w h) (next : ∀ b w h, (spec d chain).wp (f b) Q a w h) :
    (spec d chain).wp (request o >>= f) Q a w h := by
  refine Spec.wp_bind (Spec.wp_await (op_calm calm fun w₁ f r w₂ _ _ _ _ _ => ?_))
  cases r.answer with
  | ok b => exact next b _ _
  | error e => exact error ..

/-! ## Creation -/

/-- What the claim of the external id leaves: a row that names its transaction, or a row that belongs
    to the call. -/
def Created (input : PrivateSettlementRecord) :
    Post Api World Claims (PrivateSettlementRecord × Bool)
  | .ok (record, true), a, w, _ => a = 0 ∧ Anchored w (claimOf record)
  | .ok (record, false), a, _, _ => a = {claimOf input} ∧ claimOf record = claimOf input
  | .error _, _, _, _ => True

/-- A row that names a transaction is anchored. -/
lemma anchored_of_mem {r : PrivateSettlementRecord} (mem : r ∈ w.settlements.rows)
    (named : r.transactionHash ≠ none) : Anchored w (claimOf r) := by
  obtain ⟨hash, eq⟩ := Option.ne_none_iff_exists'.1 named
  have found : w.settlements.find? (claimOf r).id = some r := Table.find?_of_mem mem
  exact ⟨hash, by rw [look, found, Option.map_some, eq]⟩

/-- An insertion inserts a row without a transaction, or none. -/
lemma inv_insertSettlement {input : PrivateSettlementRecord} {o : Option PrivateSettlementRecord}
    (unnamed : input.transactionHash = none) (run : w.insertSettlement input = some (o, w'))
    (inv : Inv w a) : Later w w' ∧ match o with
      | none => Inv w' a
      | some record => Inv w' (claimOf input ::ₘ a) ∧ claimOf record = claimOf input := by
  unfold World.insertSettlement at run
  split at run
  case isTrue =>
    cases run
    exact ⟨.refl, inv⟩
  case isFalse =>
    obtain ⟨t, inserted, eq⟩ := Option.map_eq_some_iff.1 run
    cases eq
    have fresh : look w (claimOf input).id = none := by
      have free := Table.fresh_of_insert inserted
      exact Option.map_eq_none_iff.2 free
    have look' (id : Uuid) : look { w with settlements := t } id =
        if id = (claimOf input).id then some (claimOf input, none) else look w id := by
      rw [look, Table.find?_insert inserted]
      change Option.map _ (if id = (claimOf input).id then _ else _) = _
      split
      case isTrue => rw [Option.map_some, unnamed]; rfl
      case isFalse => rfl
    obtain ⟨inv', later⟩ := Inv.insert look' fresh rfl inv
    exact ⟨later, inv', rfl⟩

/-- Storing a settlement gives the call the claim of its row, unless it finds another. -/
lemma wp_createOrGetExisting {input : PrivateSettlementRecord} (unnamed : input.transactionHash = none) :
    (spec d chain).wp (createOrGetExisting input) (Created input) 0 w h := by
  refine Spec.wp_bind (Spec.wp_await fun w₁ f r w₂ later inv reply ok => ?_)
  cases r with
  | lost b e => exact ok.1.elim
  | refused e =>
    obtain ⟨-, rfl⟩ := reply
    exact ⟨trivial, 0, inv, .refl, trivial⟩
  | done b =>
    obtain ⟨later, after⟩ := inv_insertSettlement unnamed reply inv
    cases b with
    | some record =>
      refine ⟨trivial, {claimOf input}, ?_, later, rfl, after.2⟩
      rw [zero_add] at after
      exact after.1
    | none =>
      refine ⟨trivial, 0, after, later, ?_⟩
      have calm : IsCalm (.settlementFindByExternalId input.clientId input.externalId) := trivial
      refine Spec.wp_bind (Spec.wp_await (op_calm calm fun w₁ f r w₂ _ _ reply ok _ => ?_))
      cases r with
      | lost b e => trivial
      | refused e => trivial
      | done existing =>
        refine Spec.wp_bind (Spec.wp_orThrow (fun record eq => ?_) fun _ => trivial)
        subst eq
        obtain ⟨found, rfl⟩ := Prod.mk.inj (Option.some.inj reply)
        exact ⟨rfl, anchored_of_mem (List.mem_of_find?_eq_some found) (ok.2 _ found)⟩

/-! ## Publication -/

/-- What the publication leaves: a row that names its transaction, or a row that still belongs to the
    call. -/
def Published (c : Claim) : Post Api World Claims PrivateSettlementResponse
  | .ok response, _, w, _ => claimIn response = c ∧ Anchored w c
  | .error _, a, _, _ => a = {c}

/-- The submission; configuration errors come before it, and the wait for the receipt after. -/
lemma wp_recordPrivateSettlement :
    (spec d chain).wp (recordPrivateSettlement d c.settlementRef c.commitment)
      (fun r a w _ => a = {c} ∧ ((∃ exec, r = .ok exec) → Submitted w c)) {c} w h := by
  have failed {e : Exception} {w : World} : ({c} : Claims) = {c} ∧
      ((∃ exec, (.error e : Except Exception TransferExecution) = .ok exec) → Submitted w c) :=
    ⟨rfl, nofun⟩
  refine Spec.wp_bind (Spec.wp_ofExcept.2 ?_)
  cases requireRegistryAddress d with
  | error e => exact failed
  | ok registry =>
    refine Spec.wp_bind (Spec.wp_ofExcept.2 ?_)
    cases requireRegistrarAccount d with
    | error e => exact failed
    | ok account =>
      have calm : IsCalm (.submit account
        (.recordSettlement registry c.settlementRef c.commitment "0x") []) := trivial
      refine Spec.wp_bind (Spec.wp_await (op_calm calm fun w₁ f r w₂ _ _ reply _ _ => ?_))
      cases r with
      | lost b e => exact failed
      | refused e => exact failed
      | done hash =>
        cases reply
        have submitted : Submitted { w₁ with submissions := w₁.submissions ++ [⟨w₁.chain.nextHash,
            account, .recordSettlement registry c.settlementRef c.commitment "0x", []⟩] } c :=
          ⟨_, List.mem_append_right _ (List.mem_singleton_self _), registry, "0x", rfl⟩
        change (spec d chain).wp (toTransferExecution d _) _ _ _ _
        unfold toTransferExecution
        split
        case isFalse => exact ⟨rfl, fun _ => submitted⟩
        case isTrue =>
          have calm : IsCalm (.waitForTransactionReceipt w₁.chain.nextHash) := trivial
          refine Spec.wp_bind (Spec.wp_await (op_calm calm fun w₃ f r w₄ later _ _ _ later' => ?_))
          cases r with
          | lost b e => exact failed
          | refused e => exact failed
          | done receipt =>
            exact ⟨rfl, fun _ => submitted.later (later.submissions.trans later'.submissions)⟩

/-- The update that stores the transaction of a row that belongs to the call. -/
lemma op_anchor {hash : Hex} (submitted : Submitted w c) :
    (spec d chain).op (.settlementUpdate c.id { transactionHash := some (some hash) })
      (fun r _ w _ => ∃ record, r.answer = .ok (some record) ∧ claimOf record = c ∧ Anchored w c)
      {c} w h := by
  intro w₁ f r w₂ later inv reply ok
  rw [Multiset.singleton_add] at inv
  cases r with
  | lost b e => exact ok.1.elim
  | refused e => cases (show World.exec _ _ = none from ok.1)
  | done b =>
    obtain ⟨rfl, rfl⟩ := Prod.mk.inj (Option.some.inj reply)
    have own : look w₁ c.id = some (c, none) := inv.pending c (Multiset.mem_cons_self c f)
    have look' (id : Uuid) : look (w₁.updateSettlement c.id { transactionHash := some (some hash) }).2 id
        = if id = c.id then some (c, some hash) else look w₁ id := by
      rw [look_update]
      split
      case isTrue eq => rw [eq, own]; rfl
      case isFalse => rfl
    obtain ⟨inv', later', anchored⟩ := inv.anchor look' (submitted.later later.submissions) rfl
    obtain ⟨r, found, eq⟩ := Option.map_eq_some_iff.1 own
    obtain ⟨rfl, -⟩ := Prod.mk.inj eq
    refine ⟨trivial, 0, ?_, later', _, congrArg Except.ok (Option.map_eq_some_iff.2
      ⟨r, Option.filter_eq_some_iff.2 ⟨found, rfl⟩, rfl⟩), rfl, anchored⟩
    rw [zero_add]
    exact inv'

/-- The body of the `try` leaves the row with its transaction, or with the call. -/
lemma wp_publish {context : RequestContext} {settlementId : Hex} {record : PrivateSettlementRecord}
    (own : claimOf record = c) :
    (spec d chain).wp (publish d context c.settlementRef settlementId c.commitment record)
      (Published c) {c} w h := by
  subst own
  refine Spec.wp_bind_of wp_recordPrivateSettlement (fun exec a w h post => ?_)
    fun e a w h post => post.1
  obtain ⟨rfl, submitted⟩ := post
  refine Spec.wp_bind (Spec.wp_await (Spec.op_mono (fun r a w h post => ?_)
    (op_anchor (submitted ⟨exec, rfl⟩))))
  obtain ⟨record', answer, same, anchored⟩ := post
  rw [answer]
  -- the audit write does not fail
  have calm : IsCalm (.auditInsert ⟨.privateSettlementRecorded, record.id, toAuditActor context,
    .obj [("externalId", .str record.externalId), ("settlementId", .str settlementId),
      ("commitment", .str (claimOf record).commitment), ("transactionHash", .str exec.hash)]⟩) := trivial
  refine Spec.wp_bind (Spec.wp_await (op_calm calm fun w₁ f r w₂ later _ _ ok later' => ?_))
  cases r with
  | lost b e => exact ok.1.elim
  | refused e => cases (show World.exec _ _ = none from ok.1)
  | done b => exact ⟨same, later'.anchored _ (later.anchored _ anchored)⟩

/-- The deletion of a row that belongs to the call. -/
lemma wp_release {error : Exception} {Q : Post Api World Claims PrivateSettlementResponse}
    (thrown : ∀ e a w h, Q (.error e) a w h) :
    (spec d chain).wp (release c.id error) Q {c} w h := by
  refine Spec.wp_bind (Spec.wp_await fun w₁ f r w₂ later inv reply ok => ?_)
  cases r with
  | lost b e => exact ok.1.elim
  | refused e =>
    obtain ⟨-, rfl⟩ := reply
    exact ⟨trivial, {c}, inv, .refl, thrown ..⟩
  | done b =>
    cases reply
    rw [Multiset.singleton_add] at inv
    have look' (id : Uuid) : look { w₁ with settlements := w₁.settlements.erase c.id } id =
        if id = c.id then none else look w₁ id := by
      rw [look, Table.find?_erase]
      split
      case isTrue => rfl
      case isFalse => rfl
    obtain ⟨inv', later'⟩ := Inv.erase look' rfl inv
    refine ⟨trivial, 0, ?_, later', thrown ..⟩
    rw [zero_add]
    exact inv'

/-! ## Calls -/

/-- The row of a response that is returned names its transaction. -/
def Returned : Post Api World Claims PrivateSettlementResponse
  | .ok response, _, w, _ => Anchored w (claimIn response)
  | .error _, _, _, _ => True

/-- What is returned stays true. -/
lemma stays_returned {r} (later : Later w w') (returned : Returned r a w h) : Returned r a w' h := by
  cases r with
  | ok response => exact later.anchored _ returned
  | error e => trivial

/-- The rule of a computation in `record`. -/
lemma wp_compute {α : Type} {x : Except Exception α} {f : α → Method PrivateSettlementResponse}
    (next : ∀ a', x = .ok a' → (spec d chain).wp (f a') Returned a w h) :
    (spec d chain).wp (.ofExcept x >>= f) Returned a w h := by
  refine Spec.wp_bind (Spec.wp_ofExcept.2 ?_)
  cases x with
  | ok a' => exact next a' rfl
  | error e => exact trivial

/-- A recording that returns has a row that names its transaction. -/
lemma wp_record {dto : CreateSettlementDto} {context : RequestContext} :
    (spec d chain).wp (record d dto context) Returned 0 w h := by
  refine Spec.wp_bind (Spec.wp_require (fun _ => ?_) fun _ => trivial)
  refine Spec.wp_bind (Spec.wp_orThrow (fun tokenAddress _ => ?_) fun _ => trivial)
  refine wp_compute fun amountAtomic _ => wp_compute fun counterparty _ => ?_
  refine wp_calm (o := .randomBytes32) trivial (fun _ _ _ _ => trivial) fun nonce w h => ?_
  refine wp_compute fun settlementId _ => wp_compute fun commitment _ => ?_
  refine wp_calm (o := .randomUUID) trivial (fun _ _ _ _ => trivial) fun id w h => ?_
  refine Spec.wp_bind_of (wp_createOrGetExisting rfl) (fun p a w h post => ?_)
    fun _ _ _ _ _ => trivial
  obtain ⟨record, existed⟩ := p
  cases existed with
  | true =>
    exact post.2
  | false =>
    obtain ⟨rfl, own⟩ := post
    refine Spec.wp_tryCatch_of (wp_publish own) (fun response a w h published => ?_)
      fun e a w h released => ?_
    · change Anchored w (claimIn response)
      rw [published.1]
      exact published.2
    · obtain rfl : a = {_} := released
      rw [show record.id = (claimOf record).id from rfl, own]
      exact wp_release fun _ _ _ _ => trivial

/-- A program of calm operations. -/
lemma wp_of_calm {α : Type} {p : Method α} (uses : p.Uses IsCalm fun _ => True) :
    (spec d chain).wp p Spec.triv 0 w h :=
  Spec.wp_mono (fun _ _ _ _ _ => trivial) (Spec.wp_uses (R := fun a _ _ => a = 0)
    (fun _ _ _ _ => trivial)
    (fun _ _ _ _ calm zero => op_calm calm fun _ _ _ _ _ _ _ _ _ => zero)
    (fun _ _ _ _ calm _ => op_calm calm fun _ _ _ _ _ _ _ _ _ => trivial) uses rfl)

/-- Only a recording changes claims and transactions. -/
lemma calm_of_not_recording (c : Call) (other : isRecording c = false) : IsCalm c := by
  cases c with
  | settlementInsert => cases other
  | settlementUpdate id patch => exact Option.isSome_eq_false_iff.1 other |> Option.isNone_iff_eq_none.1
  | settlementDelete => cases other
  | _ => trivial

/-- Every call keeps the invariant. -/
lemma sound : (spec d chain).Sound := by
  intro p entry w
  rcases records_of_entry entry with ⟨dto, context, rfl⟩ | uses
  · exact Spec.wp_bind_of wp_record (fun _ _ _ _ _ => trivial) fun _ _ _ _ _ => trivial
  · exact wp_of_calm (Prog.uses_mono calm_of_not_recording uses)

end

/-- As long as no replay finds a row that names no transaction yet, what a call returns has been
    submitted, and its row is never deleted afterwards. -/
theorem submitted_of_returned {d : Deployment} {chain : Chain → Chain → Prop} {c : Chain}
    {now : Timestamp} {nextUuid : Uuid} {nextBytes32 : Hex} {dto : CreateSettlementDto}
    {context : RequestContext} {s s' s'' : Sys Api World} {response : PrivateSettlementResponse}
    {h : Hist Api}
    (reach : (settlementLedger d chain Steady).Reachable (.fresh c now nextUuid nextBytes32) s)
    (run : (settlementLedger d chain Steady).Returns (record d dto context) s [] (.ok response) s' h)
    (later : (settlementLedger d chain Steady).Steps s' s'') :
    Submitted s'.world (claimIn response) ∧
      ∃ r ∈ s''.world.settlements.rows, claimOf r = claimIn response := by
  have init : Inv (.fresh c now nextUuid nextBytes32) 0 :=
    ⟨Multiset.nodup_zero, nofun, fun c ⟨_, found⟩ => nomatch found⟩
  obtain ⟨⟨a, f, inv, returned⟩, moved⟩ := Spec.of_returns (Q := Returned) sound init reach
    run later (fun _ _ _ _ _ => stays_returned) wp_record
  obtain ⟨hash, found⟩ := moved.anchored _ returned
  obtain ⟨r, row, eq⟩ := Option.map_eq_some_iff.1 found
  exact ⟨inv.submitted _ returned, r, Table.mem_of_find? row, (Prod.mk.inj eq).1⟩

/-! ## Concrete calls -/

/-- The concrete settlement. -/
def sampleCall : Method PrivateSettlementResponse :=
  record registryDeployment sampleSettlement .sample

/-- The call that records it takes some steps. -/
def recording (n : Nat) : List (Choice Api World) := .enter sampleCall.discard :: Choice.steps 0 n

/-- The schedule of the concrete recording is a legal one. -/
lemma legal_recording {n : Nat} {cond : Hist Api → World → Event Api → Prop} :
    ∀ c ∈ recording n, c.Legal (settlementLedger registryDeployment Eq cond) := by
  simp only [recording, List.forall_mem_cons]
  exact ⟨.record, Choice.legal_steps⟩

/-- Nothing throws, and a replay finds a row that names its transaction. -/
def steady (_ : Hist Api) (w : World) (e : Event Api) : Bool :=
  !e.outcome.threw && match e.op with
    | .settlementFindByExternalId clientId externalId =>
      (w.settlements.rows.find? fun r => sameKey clientId externalId r.clientId r.externalId).all
        fun r => r.transactionHash.isSome
    | _ => true

/-- An operation that does not throw has not failed. -/
lemma onlyChainFails_of_not_threw {w : World} {e : Event Api} (ok : (!e.outcome.threw) = true) :
    OnlyChainFails w e := by
  unfold OnlyChainFails
  split
  case h_1 => trivial
  case h_2 => trivial
  case h_3 => exact Event.faultless_of_not_threw ok

/-- The check of the concrete runs decides the condition. -/
lemma steady_of_eval {h : Hist Api} {w : World} {e : Event Api} (ok : steady h w e = true) :
    Steady h w e := by
  obtain ⟨ok, sees⟩ := Bool.and_eq_true_iff.1 ok
  refine ⟨onlyChainFails_of_not_threw ok, ?_⟩
  obtain ⟨op, o⟩ := e
  cases op
  case settlementFindByExternalId clientId externalId =>
    intro r found
    simpa [found, Option.isSome_iff_ne_none] using sees
  all_goals trivial

/-- A settlement that is recorded, and returned once more by a replay. -/
theorem submitted_of_replay : ∃ s s' response h,
    (settlementLedger registryDeployment Eq Steady).Returns sampleCall s [] (.ok response) s' h ∧
      response.idempotentReplay = some true ∧ Submitted s'.world (claimIn response) ∧
        ∃ r ∈ s'.world.settlements.rows, claimOf r = claimIn response := by
  obtain ⟨s, r, s', h, s'', reach, run, later, replay⟩ := Machine.returns_of_run
    (M := settlementLedger registryDeployment Eq Steady) (w := minedWorld) steady sampleCall
    (recording 7) [] [.done, .done, .done, .done]
    (fun r _ _ => match r with
      | .ok response => decide (response.idempotentReplay = some true)
      | .error _ => false) (fun _ _ _ => steady_of_eval) legal_recording
    (fun _ mem => absurd mem List.not_mem_nil) (by decide)
  cases r with
  | error e => cases replay
  | ok response =>
    have said := submitted_of_returned reach run .refl
    exact ⟨s, s', response, h, run, of_decide_eq_true replay, said.1, said.2⟩

/-- Nothing throws but a submission. -/
def onlySubmissionFails (_ : Hist Api) (_ : World) (e : Event Api) : Bool :=
  !e.outcome.threw || match e.op with
    | .submit _ _ _ => true
    | _ => false

/-- The weaker check decides that only the chain fails. -/
lemma onlyChainFails_of_eval {h : Hist Api} {w : World} {e : Event Api}
    (ok : onlySubmissionFails h w e = true) : OnlyChainFails w e := by
  rcases Bool.or_eq_true_iff.1 ok with ok | ok
  · exact onlyChainFails_of_not_threw ok
  · unfold OnlyChainFails
    split at ok
    case h_1 eq => rw [eq]; trivial
    case h_2 => cases ok

/-- A replay that comes before the submission: the submission fails and the row is taken back, although
    the replay has returned it. -/
theorem unsubmitted_of_replay : ∃ s s' s'' response h,
    (settlementLedger registryDeployment Eq fun _ => OnlyChainFails).Reachable minedWorld s ∧
      (settlementLedger registryDeployment Eq fun _ => OnlyChainFails).Returns sampleCall s []
        (.ok response) s' h ∧
        (settlementLedger registryDeployment Eq fun _ => OnlyChainFails).Steps s' s'' ∧
          ¬Submitted s'.world (claimIn response) ∧ s''.world.settlements.rows = [] := by
  obtain ⟨s, r, s', h, s'', reach, run, later, gone⟩ := Machine.returns_of_run
    (M := settlementLedger registryDeployment Eq fun _ => OnlyChainFails) (w := minedWorld)
    onlySubmissionFails sampleCall (recording 3)
    [.run 0 (.call (.refused Exception.unknown)), .run 0 (.call .done)] [.done, .done, .done, .done]
    (fun r s' s'' => match r with
      | .ok _ => s'.world.submissions.isEmpty && s''.world.settlements.rows.isEmpty
      | .error _ => false) (fun _ _ _ => onlyChainFails_of_eval) legal_recording (by simp) (by decide)
  cases r with
  | error e => cases gone
  | ok response =>
    obtain ⟨unsent, gone⟩ := Bool.and_eq_true_iff.1 gone
    refine ⟨s, s', s'', response, h, reach, run, later, ?_, List.isEmpty_iff.1 gone⟩
    rintro ⟨t, mem, -⟩
    rw [List.isEmpty_iff.1 unsent] at mem
    cases mem

end AvaSettle.Settlements.Responses
