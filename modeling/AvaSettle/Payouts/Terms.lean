import Mathlib.Algebra.Order.BigOperators.Group.List
import AvaSettle.Async.Discipline
import AvaSettle.Model.Frame
import AvaSettle.Payouts.Runs

/-!
# What is paid is what was prepared

The terms of a payout are the columns that no update names. A transaction is built from rows that a call
has read or claimed some time before, so what has to be shown is that the terms it carries are those that
the ledger still has when it is sent, and ever after. With at most one transaction for a payout this
bounds what leaves the treasury by what the ledger owes.
-/

namespace AvaSettle.Payouts
open Async
open Data (Table)
open Blockchain

/-! ## Terms -/

/-- The columns of a payout that say who is paid what. -/
structure Terms where
  id : Uuid
  clientId : Option String
  externalId : String
  asset : SettlementAsset
  tokenAddress : Option Hex
  amountAtomic : Nat
  beneficiaryAddress : Hex

/-- The terms of a row. -/
def termsOf (r : PayoutRecord) : Terms :=
  ⟨r.id, r.clientId, r.externalId, r.asset, r.tokenAddress, r.amountAtomic, r.beneficiaryAddress⟩

/-- The terms of all payouts, in the order of the table. -/
def listing (w : World) : List Terms := w.payouts.rows.map termsOf

/-- The transaction pays what the terms say, on one of the rails of the deployment. -/
inductive Carries (d : Deployment) : Tx → List Terms → Prop where
  | transfer {token : Hex} {t : Terms} (configured : t.tokenAddress = some token) :
      Carries d (.transfer token t.beneficiaryAddress t.amountAtomic) [t]
  | vaultPayout {vault token : Hex} {t : Terms} (address : d.settlementVaultAddress = some vault)
      (configured : t.tokenAddress = some token) :
      Carries d (.vaultPayout vault (vaultPayoutRefFromExternalId d t.externalId) token
        t.beneficiaryAddress t.amountAtomic "0x") [t]
  | vaultPayoutBatch {vault token : Hex} {ts : List Terms} (address : d.settlementVaultAddress = some vault)
      (configured : ∀ t ∈ ts, t.tokenAddress = some token) :
      Carries d (.vaultPayoutBatch vault (batchRefFromExternalIds d (ts.map Terms.externalId)) token
        (ts.map Terms.beneficiaryAddress) (ts.map Terms.amountAtomic) "0x") ts

section
variable {D : Deployment → Prop} {tokens : SettlementAsset → Option Hex} {w w' : World} {t t' : Terms}
  {r : PayoutRecord} {id : Uuid} {patch : PayoutPatch} {guard : Option (List PayoutStatus)}

/-- The transaction is that of some listed terms. -/
def Founded (D : Deployment → Prop) (w : World) (tx : Tx) (ids : List Uuid) : Prop :=
  ∃ d ts, D d ∧ Carries d tx ts ∧ ts.map Terms.id = ids ∧ ∀ t ∈ ts, t ∈ listing w

/-- The ids of the listing are those of the rows. -/
lemma nodup_listing : ((listing w).map Terms.id).Nodup := by
  have ids : (listing w).map Terms.id = w.payouts.rows.map PayoutRecord.id := by
    rw [listing, List.map_map]
    rfl
  rw [ids]
  exact w.payouts.nodup

/-- The terms of a listed payout are determined by its id. -/
lemma unique_of_listing (mem : t ∈ listing w) (mem' : t' ∈ listing w) (same : t.id = t'.id) : t = t' :=
  List.inj_on_of_nodup_map nodup_listing mem mem' same

/-- What is listed stays, and so does what has been sent. -/
structure Kept (w w' : World) : Prop where
  listing : listing w <+: listing w'
  submissions : w.submissions <+: w'.submissions

/-- Rows and submissions may stay. -/
lemma Kept.refl : Kept w w := ⟨List.prefix_rfl, List.prefix_rfl⟩

/-- A transaction stays founded on its rows. -/
lemma Kept.founded {tx : Tx} {ids : List Uuid} (kept : Kept w w') (founded : Founded D w tx ids) :
    Founded D w' tx ids := by
  obtain ⟨d, ts, here, carries, same, listed⟩ := founded
  exact ⟨d, ts, here, carries, same, fun t mem => kept.listing.subset (listed t mem)⟩

/-- The rows have the tokens of their assets, and the transactions are those of listed terms. -/
structure InTerms (D : Deployment → Prop) (tokens : SettlementAsset → Option Hex) (w : World) : Prop where
  tokens : ∀ t ∈ listing w, t.tokenAddress = tokens t.asset
  founded : ∀ s ∈ w.submissions, Founded D w s.tx s.payouts

/-- What may be done: a new row has the token of its asset, and a transaction is that of listed terms. -/
def MayDo (D : Deployment → Prop) (tokens : SettlementAsset → Option Hex) : Call → World → Prop
  | .payoutInsert r, _ => r.tokenAddress = tokens r.asset
  | .submit _ tx ids, w => Founded D w tx ids
  | _, _ => True

/-! ## What an operation does -/

/-- No update changes the terms of a row. -/
lemma listing_updatePayout : listing (w.updatePayout id patch guard).2 = listing w := by
  change (w.payouts.rows.map _).map termsOf = w.payouts.rows.map termsOf
  rw [List.map_map]
  refine List.map_congr_left fun r _ => ?_
  rw [Function.comp_apply, Data.Patch.applyIf]
  split <;> rfl

/-- An insert adds a row, or nothing. -/
lemma listing_insertPayout {o : Option PayoutRecord} (run : w.insertPayout r = some (o, w')) :
    listing w' = listing w ∨ listing w' = listing w ++ [termsOf r] := by
  obtain ⟨-, rfl, -⟩ | ⟨t', -, rfl, inserted, -⟩ := World.insertPayout_cases run
  · exact Or.inl rfl
  · refine Or.inr ?_
    rw [listing, Table.rows_insert inserted, List.map_append]
    rfl

/-- Where the listing is as before and nothing has been sent, everything is as before. -/
lemma InTerms.of_same (inTerms : InTerms D tokens w) (same : listing w' = listing w)
    (sent : w'.submissions = w.submissions) : InTerms D tokens w' ∧ Kept w w' := by
  have kept : Kept w w' := ⟨same ▸ List.prefix_rfl, sent ▸ List.prefix_rfl⟩
  refine ⟨⟨fun t mem => inTerms.tokens t (same ▸ mem), fun s mem => ?_⟩, kept⟩
  rw [sent] at mem
  exact kept.founded (inTerms.founded s mem)

/-- What may be done keeps the terms. -/
theorem inTerms_exec {c : Call} {b : c.Res} (inTerms : InTerms D tokens w) (may : MayDo D tokens c w)
    (run : World.exec c w = some (b, w')) : InTerms D tokens w' ∧ Kept w w' := by
  have frame := World.exec_frame run
  cases c
  case payoutInsert r =>
    have sent : w'.submissions = w.submissions := frame.submissions (by simp [Call.writes])
    obtain same | added := listing_insertPayout run
    · exact inTerms.of_same same sent
    · have kept : Kept w w' := ⟨added ▸ List.prefix_append _ _, sent ▸ List.prefix_rfl⟩
      refine ⟨⟨fun t mem => ?_, fun s mem => ?_⟩, kept⟩
      · rw [added, List.mem_append, List.mem_singleton] at mem
        obtain mem | rfl := mem
        · exact inTerms.tokens t mem
        · exact may
      · rw [sent] at mem
        exact kept.founded (inTerms.founded s mem)
  case payoutUpdate id patch guard =>
    cases run
    exact inTerms.of_same listing_updatePayout rfl
  case submit account tx ids =>
    cases run
    have kept : Kept w { w with
        submissions := w.submissions ++ [⟨w.chain.nextHash, account, tx, ids⟩] } :=
      ⟨List.prefix_rfl, List.prefix_append _ _⟩
    refine ⟨⟨inTerms.tokens, fun s mem => ?_⟩, kept⟩
    obtain mem | mem := List.mem_append.1 mem
    · exact kept.founded (inTerms.founded s mem)
    · rw [List.mem_singleton.1 mem]
      exact kept.founded may
  all_goals
    have same : listing w' = listing w :=
      congrArg (fun t => t.rows.map termsOf) (frame.payouts (by simp [Call.writes]))
    exact inTerms.of_same same (frame.submissions (by simp [Call.writes]))

end

/-! ## Calls in terms -/

/-- The discipline of the terms. -/
def inTerms (D : Deployment → Prop) (tokens : SettlementAsset → Option Hex)
    (chain : Chain → Chain → Prop) : Discipline (machine chain (Entry D) fun _ _ _ => True) where
  inv := InTerms D tokens
  le := Kept
  may := MayDo D tokens
  le_refl _ := .refl
  le_trans first second :=
    ⟨first.listing.trans second.listing, first.submissions.trans second.submissions⟩
  may_later := by
    intro c w w' kept may
    cases c
    case submit => exact kept.founded may
    all_goals exact may
  env inv move := inv.of_same (congrArg (fun t => t.rows.map termsOf) move.payouts) move.submissions
  does := inTerms_exec

/-- The operation neither inserts a payout nor sends anything. -/
def Harmless : Call → Prop
  | .payoutInsert _ => False
  | .submit _ _ _ => False
  | _ => True

/-- A harmless operation may always be done. -/
lemma mayDo_of_harmless {D : Deployment → Prop} {tokens : SettlementAsset → Option Hex} {c : Call}
    {w : World} (harmless : Harmless c) : MayDo D tokens c w := by
  cases c
  case payoutInsert => cases harmless
  case submit => cases harmless
  all_goals trivial

/-- A neutral operation is harmless. -/
lemma harmless_of_neutral (c : Call) (neutral : Neutral c) : Harmless c := by
  cases c
  case payoutInsert => cases neutral
  case submit => cases neutral
  all_goals trivial

/-- The row is listed, with the token of its asset. -/
structure Knows (tokens : SettlementAsset → Option Hex) (r : PayoutRecord) (w : World) : Prop where
  listed : termsOf r ∈ listing w
  token : r.tokenAddress = tokens r.asset

section
variable {D : Deployment → Prop} {tokens : SettlementAsset → Option Hex} {chain : Chain → Chain → Prop}
  {d : Deployment} {K : World → Prop} {α β : Type} {id : Uuid} {r : PayoutRecord} {w : World}

/-- What a call knows of a row stays true. -/
lemma Knows.later {w' : World} (known : Knows tokens r w) (kept : Kept w w') : Knows tokens r w' :=
  ⟨kept.listing.subset known.listed, known.token⟩

/-- It outlasts whatever happens beside the call. -/
lemma stable_knows : (inTerms D tokens chain).Stable (Knows tokens r) :=
  fun _ _ kept known => known.later kept

/-- A row that is found is known. -/
lemma knows_of_find (inv : InTerms D tokens w) (found : w.payouts.find? id = some r) :
    Knows tokens r w := by
  have listed : termsOf r ∈ listing w := List.mem_map_of_mem (Table.mem_of_find? found)
  exact ⟨listed, inv.tokens _ listed⟩

/-- A harmless program keeps to the terms. -/
lemma triple_harmless {p : Method α} (stable : (inTerms D tokens chain).Stable K)
    (uses : p.Uses Harmless fun _ => True) : (inTerms D tokens chain).Triple K p fun _ _ => True :=
  Discipline.triple_uses stable uses fun _ _ harmless _ => mayDo_of_harmless harmless

/-- A neutral program keeps to the terms. -/
lemma triple_neutral {p : Method α} (stable : (inTerms D tokens chain).Stable K)
    (uses : p.Uses Neutral fun _ => True) : (inTerms D tokens chain).Triple K p fun _ _ => True :=
  triple_harmless stable (Prog.uses_mono harmless_of_neutral uses)

/-- What comes first needs no attention. -/
lemma triple_then {p : Method α} {f : α → Method β} {Q : β → World → Prop}
    (stable : (inTerms D tokens chain).Stable K) (uses : p.Uses Harmless fun _ => True)
    (rest : ∀ a, (inTerms D tokens chain).Triple K (f a) Q) :
    (inTerms D tokens chain).Triple K (p >>= f) Q :=
  Discipline.triple_bind stable (triple_harmless stable uses) fun a =>
    Discipline.triple_mono (fun _ known => known.1) (fun _ _ holds => holds) (rest a)

/-- The transaction is sent for listed terms. -/
lemma triple_submit {account : Hex} {tx : Tx} {ids : List Uuid}
    (stable : (inTerms D tokens chain).Stable K) (founded : ∀ w, K w → Founded D w tx ids) :
    (inTerms D tokens chain).Triple K (request (.submit account tx ids) >>= toTransferExecution d)
      fun _ _ => True := by
  have sent : (inTerms D tokens chain).Triple K (request (.submit account tx ids)) fun _ _ => True :=
    Discipline.triple_await founded fun _ _ _ _ _ => trivial
  refine Discipline.triple_bind stable sent fun hash => ?_
  refine Discipline.triple_mono (fun _ known => known.1) (fun _ _ holds => holds) ?_
  exact triple_harmless stable (uses_toTransferExecution fun _ => trivial)

/-- An asset that is configured has its token. -/
lemma address_of_requireAsset {asset : SettlementAsset} {config : ConfiguredAsset}
    (found : requireAsset d asset = .ok config) :
    (d.getAssetConfig asset).address = some config.address := by
  unfold requireAsset at found
  split at found
  case h_1 a eq =>
    cases found
    exact eq
  case h_2 => cases found

/-- The vault that is required is the configured one. -/
lemma address_of_requireVaultAddress {vault : Hex} (found : requireVaultAddress d = .ok vault) :
    d.settlementVaultAddress = some vault := by
  unfold requireVaultAddress at found
  split at found
  case h_1 a eq =>
    cases found
    exact eq
  case h_2 => cases found

variable (agree : ∀ d, D d → ∀ a, (d.getAssetConfig a).address = tokens a) (here : D d)

include agree here in

/-- Each rail sends a transaction that is founded on the row. -/
lemma triple_transferPayout :
    (inTerms D tokens chain).Triple (Knows tokens r) (transferPayout d r) fun _ _ => True := by
  have stable : (inTerms D tokens chain).Stable (Knows tokens r) := stable_knows
  unfold transferPayout
  split
  case isTrue =>
    refine Discipline.triple_require_bind fun _ => Discipline.triple_ofExcept_bind fun vault address => ?_
    refine Discipline.triple_ofExcept_bind fun config configured => ?_
    refine triple_then stable (Prog.uses_mono harmless_of_neutral uses_ensureVaultAllowance) fun _ => ?_
    refine Discipline.triple_ofExcept_bind fun account _ => triple_submit stable fun w known => ?_
    have token := (known.token.trans (agree d here r.asset).symm).trans (address_of_requireAsset configured)
    exact ⟨d, [termsOf r], here, .vaultPayout (t := termsOf r) (address_of_requireVaultAddress address) token,
      rfl, List.forall_mem_singleton.2 known.listed⟩
  case isFalse =>
    refine Discipline.triple_require_bind fun _ => Discipline.triple_ofExcept_bind fun account _ => ?_
    refine Discipline.triple_ofExcept_bind fun config configured => triple_submit stable fun w known => ?_
    have token := (known.token.trans (agree d here r.asset).symm).trans (address_of_requireAsset configured)
    exact ⟨d, [termsOf r], here, .transfer (t := termsOf r) token, rfl,
      List.forall_mem_singleton.2 known.listed⟩

include agree here in

/-- The body of the `try` keeps to the terms. -/
lemma triple_executePayout {now : Timestamp} {dto : AuthorizePayoutDto} {context : RequestContext} :
    (inTerms D tokens chain).Triple (Knows tokens r) (executePayout d id now dto context r)
      fun _ _ => True := by
  have stable : (inTerms D tokens chain).Stable (Knows tokens r) := stable_knows
  refine triple_then stable (Prog.uses_mono harmless_of_neutral uses_getAssetBalance) fun _ => ?_
  refine Discipline.triple_require_bind fun _ => ?_
  refine Discipline.triple_bind stable (triple_transferPayout agree here) fun transfer => ?_
  refine Discipline.triple_mono (fun _ known => known.1) (fun _ _ holds => holds) ?_
  refine triple_harmless stable (Prog.uses_bind (Prog.uses_await trivial) fun _ => ?_)
  refine Prog.uses_mono harmless_of_neutral (Prog.uses_bind uses_recordAudit fun _ => ?_)
  exact Prog.uses_bind (uses_announceConfirmed fun _ => trivial) fun _ => trivial

/-- A claim that returns a row knows it. -/
lemma triple_claim {now : Timestamp} :
    (inTerms D tokens chain).Triple K (request (.payoutUpdate id (claimPatch now) (some [.prepared])))
      fun o w => ∀ r, o = some r → r.id = id ∧ Knows tokens r w := by
  refine Discipline.triple_await (fun _ _ => trivial) fun w o w' inv run r some => ?_
  have before : InTerms D tokens w := inv
  obtain ⟨eq, rfl⟩ := Prod.mk.inj (Option.some.inj run)
  obtain ⟨r₀, written, -, -⟩ := written_of_update (eq.trans some)
  have same : listing (w.updatePayout id (claimPatch now) (Option.some [.prepared])).2 = listing w :=
    listing_updatePayout
  have after := (before.of_same same rfl).1
  have found : (w.updatePayout id (claimPatch now) (Option.some [.prepared])).2.payouts.find? id =
      Option.some r := by rw [written.find, if_pos rfl]
  exact ⟨written.id_eq, knows_of_find after found⟩

include agree here in

/-- An authorization keeps to the terms. -/
lemma triple_authorizePayout {dto : AuthorizePayoutDto} {context : RequestContext} :
    (inTerms D tokens chain).Triple (fun _ => True) (authorizePayout d id dto context) fun _ _ => True := by
  have free : (inTerms D tokens chain).Stable fun _ => True := .true
  refine triple_then free (Prog.uses_mono harmless_of_neutral uses_requirePayout) fun payout => ?_
  split
  case isTrue => exact triple_neutral free uses_toResponse
  case isFalse =>
    refine triple_then free (Prog.uses_await trivial) fun now => ?_
    refine Discipline.triple_bind free triple_claim fun claimed => ?_
    cases claimed with
    | none =>
      refine Discipline.triple_mono (fun _ _ => trivial) (fun _ _ holds => holds)
        (triple_neutral free (Prog.uses_bind uses_requirePayout fun current => ?_))
      dsimp only
      split
      case isTrue => exact uses_toResponse
      case isFalse => exact Prog.uses_throw trivial
    | some r =>
      refine Discipline.triple_mono (fun w known => (known.2 r rfl).2) (fun _ _ holds => holds) ?_
      have stable : (inTerms D tokens chain).Stable (Knows tokens r) := stable_knows
      refine triple_then stable (Prog.uses_mono harmless_of_neutral uses_recordAudit) fun _ => ?_
      have body : (inTerms D tokens chain).Triple (Knows tokens r)
          ((executePayout d id now dto context r).tryCatch (handlePayoutError id dto context))
            fun _ _ => True :=
        Discipline.triple_tryCatch stable (triple_executePayout agree here) fun e =>
          triple_harmless stable (uses_handlePayoutError harmless_of_neutral fun _ => trivial)
      refine Discipline.triple_bind stable body fun updated => ?_
      refine Discipline.triple_mono (fun _ known => known.1) (fun _ _ holds => holds) ?_
      exact triple_neutral stable (Prog.uses_bind (Prog.uses_orThrow trivial) fun _ => uses_toResponse)

/-! ### The batch -/

/-- All rows are listed, with the token of the asset. -/
def KnowsAll (tokens : SettlementAsset → Option Hex) (asset : SettlementAsset) (rs : List PayoutRecord)
    (w : World) : Prop :=
  ∀ r ∈ rs, Knows tokens r w ∧ r.asset = asset

variable {asset : SettlementAsset} {rs : List PayoutRecord}

/-- What is known of all legs outlasts whatever happens. -/
lemma stable_knowsAll : (inTerms D tokens chain).Stable (KnowsAll tokens asset rs) :=
  fun _ _ kept known r mem => ⟨(known r mem).1.later kept, (known r mem).2⟩

/-- Rows with one id have one asset. -/
lemma Knows.asset_eq {r' : PayoutRecord} (known : Knows tokens r w) (known' : Knows tokens r' w)
    (same : r.id = r'.id) : r.asset = r'.asset :=
  congrArg Terms.asset (unique_of_listing known.listed known'.listed same)

/-- The loop returns legs that it knows. -/
lemma triple_claimBatch {now : Timestamp} {claimed : List PayoutRecord} :
    (inTerms D tokens chain).Triple
      (fun w => KnowsAll tokens asset rs w ∧ KnowsAll tokens asset claimed w)
      (claimBatch now rs claimed) (KnowsAll tokens asset) := by
  have stable {rs claimed : List PayoutRecord} : (inTerms D tokens chain).Stable
      fun w => KnowsAll tokens asset rs w ∧ KnowsAll tokens asset claimed w :=
    fun _ _ kept known => ⟨fun r mem => ⟨(known.1 r mem).1.later kept, (known.1 r mem).2⟩,
      fun r mem => ⟨(known.2 r mem).1.later kept, (known.2 r mem).2⟩⟩
  induction rs generalizing claimed with
  | nil => exact Discipline.triple_pure fun w known => known.2
  | cons payout rs ih =>
    refine Discipline.triple_bind stable triple_claim fun claim => ?_
    cases claim with
    | none =>
      refine Discipline.triple_bind (Q := fun _ _ => True) (fun w w' kept known =>
        ⟨stable w w' kept known.1, fun r eq => by cases eq⟩) ?_ fun _ => Discipline.triple_throw
      refine Discipline.triple_mono (fun _ known => known.1) (fun _ _ holds => holds)
        (triple_harmless stable (Prog.uses_promiseAll fun s mem => ?_))
      obtain ⟨c, -, rfl⟩ := List.mem_map.1 mem
      exact ⟨trivial, fun _ _ _ _ => trivial⟩
    | some r =>
      refine Discipline.triple_mono (fun w known => ?_) (fun _ _ holds => holds) ih
      obtain ⟨⟨before, legs⟩, claim⟩ := known
      obtain ⟨same, known⟩ := claim r rfl
      obtain ⟨first, rest⟩ := List.forall_mem_cons.1 before
      refine ⟨rest, fun c mem => ?_⟩
      obtain mem | mem := List.mem_append.1 mem
      · exact legs c mem
      · rw [List.mem_singleton.1 mem]
        exact ⟨known, (known.asset_eq first.1 same).trans first.2⟩

include agree here in

/-- The body of the batch sends a transaction that is founded on its legs. -/
lemma triple_executeBatch {now : Timestamp} {dto : AuthorizePayoutDto} {context : RequestContext} :
    (inTerms D tokens chain).Triple (KnowsAll tokens asset rs) (executeBatch d asset now dto context rs)
      fun _ _ => True := by
  have stable : (inTerms D tokens chain).Stable (KnowsAll tokens asset rs) := stable_knowsAll
  have sent : (inTerms D tokens chain).Triple (KnowsAll tokens asset rs)
      (vaultPayoutBatch d asset (batchRefFromExternalIds d (rs.map PayoutRecord.externalId))
        (rs.map PayoutRecord.beneficiaryAddress) (rs.map PayoutRecord.amountAtomic)
        (rs.map PayoutRecord.id)) fun _ _ => True := by
    refine Discipline.triple_ofExcept_bind fun vault address => ?_
    refine Discipline.triple_ofExcept_bind fun config configured => ?_
    refine Discipline.triple_ofExcept_bind fun _ _ => ?_
    refine triple_then stable (Prog.uses_mono harmless_of_neutral uses_ensureVaultAllowance) fun _ => ?_
    refine Discipline.triple_ofExcept_bind fun account _ => triple_submit stable fun w known => ?_
    have token : ∀ t ∈ rs.map termsOf, t.tokenAddress = some config.address := by
      intro t mem
      obtain ⟨r, leg, rfl⟩ := List.mem_map.1 mem
      obtain ⟨row, rfl⟩ := known r leg
      exact (row.token.trans (agree d here r.asset).symm).trans (address_of_requireAsset configured)
    have carries := Carries.vaultPayoutBatch (address_of_requireVaultAddress address) token
    rw [List.map_map, List.map_map, List.map_map] at carries
    refine ⟨d, rs.map termsOf, here, carries, List.map_map, fun t mem => ?_⟩
    obtain ⟨r, leg, rfl⟩ := List.mem_map.1 mem
    exact (known r leg).1.listed
  refine Discipline.triple_bind stable sent fun exec => ?_
  refine Discipline.triple_mono (fun _ known => known.1) (fun _ _ holds => holds) ?_
  refine triple_harmless stable (Prog.uses_bind (Prog.uses_promiseAll fun s mem => ?_) fun updated => ?_)
  · obtain ⟨c, -, rfl⟩ := List.mem_map.1 mem
    exact ⟨trivial, fun _ _ _ _ => trivial⟩
  · refine Prog.uses_bind (Prog.uses_forEach fun u _ => ?_) fun _ => trivial
    refine Prog.uses_mono harmless_of_neutral (Prog.uses_bind (Prog.uses_orThrow trivial) fun _ => ?_)
    exact Prog.uses_bind uses_recordAudit fun _ => uses_announceConfirmed fun _ => trivial

/-- The handler of a batch is harmless. -/
lemma uses_handleBatchError {dto : AuthorizePayoutDto} {context : RequestContext} {e : Exception} :
    (handleBatchError dto context rs e).Uses Harmless fun _ => True := by
  have writes (patch : PayoutPatch) :
      (Prog.promiseAll (rs.map (batchFailSlot patch))).Uses Harmless fun _ => True := by
    refine Prog.uses_promiseAll fun s mem => ?_
    obtain ⟨c, -, rfl⟩ := List.mem_map.1 mem
    exact ⟨trivial, fun _ _ _ _ => trivial⟩
  unfold handleBatchError
  dsimp only
  split
  case isTrue => exact Prog.uses_bind (writes _) fun _ => Prog.uses_throw trivial
  case isFalse =>
    refine Prog.uses_bind (writes _) fun _ => ?_
    refine Prog.uses_bind (Prog.uses_promiseAll fun s mem => ?_) fun _ => Prog.uses_throw trivial
    obtain ⟨c, -, rfl⟩ := List.mem_map.1 mem
    exact ⟨trivial, fun _ _ _ _ => trivial⟩

include agree here in

/-- What a batch does with its claimed legs keeps to the terms. -/
lemma triple_settleBatch {now : Timestamp} {dto : AuthorizePayoutDto} {context : RequestContext} :
    (inTerms D tokens chain).Triple (KnowsAll tokens asset rs) (settleBatch d asset now dto context rs)
      fun _ _ => True := by
  have stable : (inTerms D tokens chain).Stable (KnowsAll tokens asset rs) := stable_knowsAll
  refine triple_then stable (Prog.uses_promiseAll fun s mem => ?_) fun _ => ?_
  · obtain ⟨c, -, rfl⟩ := List.mem_map.1 mem
    exact ⟨trivial, fun _ _ _ _ => trivial⟩
  · have body : (inTerms D tokens chain).Triple (KnowsAll tokens asset rs)
        ((executeBatch d asset now dto context rs).tryCatch (handleBatchError dto context rs))
          fun _ _ => True :=
      Discipline.triple_tryCatch stable (triple_executeBatch agree here) fun e =>
        triple_harmless stable uses_handleBatchError
    refine Discipline.triple_bind stable body fun updated => ?_
    exact Discipline.triple_mono (fun _ known => known.1) (fun _ _ holds => holds)
      (triple_neutral stable uses_toResponses)

/-- The payouts that a batch looks up are known. -/
lemma triple_lookUp {context : RequestContext} {ids : List Uuid} :
    (inTerms D tokens chain).Triple (fun _ => True) (.promiseAll (ids.map (requirePayoutSlot context)))
      fun rs w => ∀ r ∈ rs, Knows tokens r w := by
  refine Discipline.triple_promiseAll (fun _ => stable_knows) fun s mem w _ => ?_
  obtain ⟨id, -, rfl⟩ := List.mem_map.1 mem
  refine ⟨trivial, fun w₁ o w₂ inv reply r found => ?_⟩
  cases o with
  | refused e => cases found
  | lost b e => cases found
  | done b =>
    obtain ⟨looked, rfl⟩ := Prod.mk.inj (Option.some.inj reply)
    cases b with
    | none => cases found
    | some row =>
      cases found
      exact knows_of_find inv (Option.filter_eq_some_iff.1 looked).1

include agree here in

/-- A batch keeps to the terms. -/
lemma triple_authorizePayoutBatch {payoutIds : List Uuid} {dto : AuthorizePayoutDto}
    {context : RequestContext} :
    (inTerms D tokens chain).Triple (fun _ => True) (authorizePayoutBatch d payoutIds dto context)
      fun _ _ => True := by
  have free : (inTerms D tokens chain).Stable fun _ => True := .true
  refine Discipline.triple_require_bind fun _ => ?_
  split
  case h_1 => exact Discipline.triple_throw
  case h_2 ids _ =>
    refine Discipline.triple_bind free triple_lookUp fun payouts => ?_
    refine Discipline.triple_orThrow_bind fun first _ => Discipline.triple_require_bind fun same => ?_
    refine Discipline.triple_mono (K := KnowsAll tokens first.asset payouts)
      (fun w known r mem => ⟨known.2 r mem, same r mem⟩) (fun _ _ holds => holds) ?_
    have stable : (inTerms D tokens chain).Stable (KnowsAll tokens first.asset payouts) := stable_knowsAll
    refine Discipline.triple_require_bind fun _ => ?_
    refine triple_then stable (Prog.uses_mono harmless_of_neutral uses_getAssetBalance) fun _ => ?_
    refine Discipline.triple_require_bind fun _ => triple_then stable (Prog.uses_await trivial) fun now => ?_
    have none (w : World) : KnowsAll tokens first.asset [] w := by simp [KnowsAll]
    refine Discipline.triple_bind stable (Discipline.triple_mono (fun w known => ⟨known, none w⟩)
      (fun _ _ holds => holds) triple_claimBatch) fun claimed => ?_
    exact Discipline.triple_mono (fun _ known => known.2) (fun _ _ holds => holds)
      (triple_settleBatch agree here)

/-! ### The other calls -/

include agree here in

/-- A creation keeps to the terms. -/
lemma triple_createPayout {dto : CreatePayoutDto} {context : RequestContext} :
    (inTerms D tokens chain).Triple (fun _ => True) (createPayout d dto context) fun _ _ => True := by
  have free : (inTerms D tokens chain).Stable fun _ => True := .true
  refine Discipline.triple_ofExcept_bind fun amount _ => Discipline.triple_ofExcept_bind fun _ _ => ?_
  refine triple_then free (Prog.uses_await trivial) fun now => ?_
  refine triple_then free (Prog.uses_await trivial) fun id => ?_
  have inserted : (inTerms D tokens chain).Triple (fun _ => True)
      (createOrGetExisting (newPayout d dto context id now amount)) fun _ _ => True := by
    refine Discipline.triple_uses (P := fun c => Harmless c ∨
      c = .payoutInsert (newPayout d dto context id now amount)) free ?_ fun c w may _ => ?_
    · refine Prog.uses_bind (Prog.uses_await (Or.inr rfl)) fun row => ?_
      cases row with
      | some r => trivial
      | none =>
        exact Prog.uses_bind (Prog.uses_await (Or.inl trivial)) fun _ =>
          Prog.uses_bind (Prog.uses_orThrow trivial) fun _ => trivial
    · obtain harmless | rfl := may
      · exact mayDo_of_harmless harmless
      · exact agree d here dto.asset
  refine Discipline.triple_bind free inserted fun created => ?_
  obtain ⟨r, existed⟩ := created
  refine Discipline.triple_mono (fun _ _ => trivial) (fun _ _ holds => holds) ?_
  dsimp only
  split
  case isTrue => exact triple_neutral free (Prog.uses_bind uses_recordAudit fun _ => uses_toResponse)
  case isFalse =>
    refine triple_then free (Prog.uses_mono harmless_of_neutral uses_recordAudit) fun _ => ?_
    split
    case isTrue => exact triple_authorizePayout agree here
    case isFalse => exact triple_neutral free uses_toResponse

/-- A reconciliation keeps to the terms. -/
lemma triple_reconcilePayout {context : RequestContext} :
    (inTerms D tokens chain).Triple (fun _ => True) (reconcilePayout d id context) fun _ _ => True := by
  have free : (inTerms D tokens chain).Stable fun _ => True := .true
  refine triple_then free (Prog.uses_mono harmless_of_neutral uses_requirePayout) fun payout => ?_
  refine Discipline.triple_orThrow_bind fun hash _ => triple_harmless free ?_
  refine Prog.uses_bind (Prog.uses_bind (Prog.uses_awaitOr trivial) fun receipt => ?_) fun _ => ?_
  · cases receipt with
    | none => trivial
    | some rc => exact Prog.uses_bind (Prog.uses_await trivial) fun _ => trivial
  · refine Prog.uses_bind (Prog.uses_await trivial) fun now => ?_
    refine Prog.uses_bind (Prog.uses_await trivial) fun updated => ?_
    refine Prog.uses_mono harmless_of_neutral (Prog.uses_bind uses_recordAudit fun _ => ?_)
    exact Prog.uses_bind (Prog.uses_orThrow trivial) fun _ => uses_toResponse

include agree in
/-- Every call keeps to the terms. -/
lemma inTerms_kept : (inTerms D tokens chain).Kept := by
  have discard {α : Type} {p : Method α} (triple : (inTerms D tokens chain).Triple (fun _ => True) p
      fun _ _ => True) : (inTerms D tokens chain).Triple (fun _ => True) p.discard fun _ _ => True :=
    Discipline.triple_bind .true triple fun _ => Discipline.triple_pure fun _ _ => trivial
  intro p entry
  cases entry with
  | createPayout here => exact discard (triple_createPayout agree here)
  | authorizePayout here => exact discard (triple_authorizePayout agree here)
  | authorizePayoutBatch here => exact discard (triple_authorizePayoutBatch agree here)
  | reconcilePayout here => exact discard triple_reconcilePayout

end

/-! ## What leaves the treasury -/

/-- What a transaction pays of a token. -/
def paysOf (token : Hex) : Tx → Nat
  | .transfer t _ amount => if t = token then amount else 0
  | .vaultPayout _ _ t _ amount _ => if t = token then amount else 0
  | .vaultPayoutBatch _ _ t _ amounts _ => if t = token then amounts.sum else 0
  | _ => 0

/-- What all transactions together pay of a token. -/
def outflow (token : Hex) (w : World) : Nat := (w.submissions.map fun s => paysOf token s.tx).sum

/-- What the terms owe of a token. -/
def owes (token : Hex) (t : Terms) : Nat := if t.tokenAddress = some token then t.amountAtomic else 0

/-- What the payouts that have been taken up owe of a token. -/
def owed (token : Hex) (w : World) : Nat :=
  ((w.payouts.rows.filter fun r => decide (r.status ≠ .prepared)).map fun r => owes token (termsOf r)).sum

section
variable {D : Deployment → Prop} {tokens : SettlementAsset → Option Hex} {w : World} {token : Hex}

/-- What the payout with an id owes. -/
def owesOf (token : Hex) (w : World) (id : Uuid) : Nat :=
  ((w.payouts.find? id).map fun r => owes token (termsOf r)).getD 0

/-- What is owed for an id is owed for the row that has it. -/
lemma owesOf_of_mem {t : Terms} (mem : t ∈ listing w) : owesOf token w t.id = owes token t := by
  obtain ⟨r, row, rfl⟩ := List.mem_map.1 mem
  have found : w.payouts.find? (termsOf r).id = some r := Table.find?_of_mem row
  rw [owesOf, found]
  rfl

/-- A transaction pays what its terms owe. -/
lemma pays_of_carries {d : Deployment} {tx : Tx} {ts : List Terms} (carries : Carries d tx ts) :
    paysOf token tx = (ts.map (owes token)).sum := by
  cases carries with
  | transfer configured => simp [paysOf, owes, configured]
  | vaultPayout address configured => simp [paysOf, owes, configured]
  | @vaultPayoutBatch vault t ts address configured =>
    have each : ts.map (owes token) = ts.map fun u => if t = token then u.amountAtomic else 0 := by
      refine List.map_congr_left fun u mem => ?_
      simp [owes, configured u mem]
    rw [each, paysOf]
    split
    case isTrue => rfl
    case isFalse => simp

/-- What all transactions pay is what the payouts owe that they name. -/
lemma outflow_eq (inTerms : InTerms D tokens w) : outflow token w = (w.paid.map (owesOf token w)).sum := by
  have each : ∀ s ∈ w.submissions, paysOf token s.tx = (s.payouts.map (owesOf token w)).sum := by
    intro s mem
    obtain ⟨d, ts, -, carries, same, listed⟩ := inTerms.founded s mem
    rw [pays_of_carries carries, ← same, List.map_map]
    exact congrArg List.sum (List.map_congr_left fun t mem => (owesOf_of_mem (listed t mem)).symm)
  rw [outflow, List.map_congr_left each, World.paid, List.map_flatMap, List.flatMap_def, List.sum_flatten,
    List.map_map]
  rfl

/-- Payouts that are sent once, and none of which is still prepared, are among those taken up. -/
lemma owesOf_paid_le {strict : Prop} {a : Claims} (inv : Inv strict w a) :
    (w.paid.map (owesOf token w)).sum ≤ owed token w := by
  let taken := w.payouts.rows.filter fun r => decide (r.status ≠ .prepared)
  have subset : w.paid ⊆ taken.map PayoutRecord.id := by
    intro id sent
    obtain ⟨r, found⟩ := inv.paid_row id sent
    have key := Table.key_of_find? found
    refine List.mem_map.2 ⟨r, List.mem_filter.2 ⟨Table.mem_of_find? found, ?_⟩, key⟩
    refine decide_eq_true fun prepared => (inv.rows id r found).unpaid prepared ?_
    rwa [key]
  have owing : taken.map (fun r => owes token (termsOf r)) =
      (taken.map PayoutRecord.id).map (owesOf token w) := by
    rw [List.map_map]
    refine List.map_congr_left fun r mem => ?_
    have listed : termsOf r ∈ listing w := List.mem_map_of_mem (List.mem_filter.1 mem).1
    exact (owesOf_of_mem listed).symm
  obtain ⟨ids, perm, sublist⟩ := inv.paid_nodup.subperm subset
  change _ ≤ (taken.map fun r => owes token (termsOf r)).sum
  rw [owing, ← (perm.map _).sum_eq]
  exact (sublist.map _).sum_le_sum fun _ _ => Nat.zero_le _

end

/-! ## Runs -/

/-- The payout services of the deployments, with every operation free to fail. -/
abbrev servicesOf (D : Deployment → Prop) (chain : Chain → Chain → Prop) : Machine Api World :=
  machine chain (Entry D) fun _ _ _ => True

section
variable {D : Deployment → Prop} {tokens : SettlementAsset → Option Hex} {chain : Chain → Chain → Prop}
  {c : Chain} {now : Timestamp} {nextUuid : Uuid} {nextBytes32 : Hex} {s s' : Sys Api World}

/-- On instances that agree on the tokens, the terms of a payout never change, every transaction pays just
    the beneficiaries and amounts that the ledger has, then and ever after, for the payouts it names, and
    what has been sent of a token is at most what the payouts owe that have been taken up. -/
theorem paid_as_prepared (agree : ∀ d, D d → ∀ a, (d.getAssetConfig a).address = tokens a)
    (reach : (servicesOf D chain).Reachable (.fresh c now nextUuid nextBytes32) s)
    (later : (servicesOf D chain).Steps s s') :
    listing s.world <+: listing s'.world ∧
      (∀ sent ∈ s.world.submissions, Founded D s'.world sent.tx sent.payouts) ∧
        ∀ token, outflow token s.world ≤ owed token s.world := by
  have init : InTerms D tokens (.fresh c now nextUuid nextBytes32) :=
    ⟨fun t mem => (by cases mem), fun sent mem => (by cases mem)⟩
  have calls : (inTerms D tokens chain).Kept := inTerms_kept agree
  have inv := Discipline.inv_of_reachable calls init reach
  have kept := Discipline.le_of_steps calls init reach later
  refine ⟨kept.listing, fun sent mem => kept.founded (inv.founded sent mem), fun token => ?_⟩
  let setting : Setting :=
    { strict := False
      chain := chain
      entry := Entry D
      cond := fun _ _ _ => True
      keeps := False.elim }
  have sound : setting.spec.Sound := sound (D := D) (fun _ entry => entry) False.elim
  obtain ⟨a, once⟩ := Spec.inv_of_reachable sound inv_fresh reach
  rw [outflow_eq inv]
  exact owesOf_paid_le once

end

/-- A payout that has been sent, and then looked at. -/
theorem paid_as_prepared_of_sent : ∃ s s', (servicesOf (· = .sample) Eq).Steps s s' ∧
    s.world.paid = [World.sampleId] ∧ listing s.world <+: listing s'.world ∧
      (∀ sent ∈ s.world.submissions, Founded (· = .sample) s'.world sent.tx sent.payouts) ∧
        ∀ token, outflow token s.world ≤ owed token s.world := by
  obtain ⟨s, s', reach, later, res⟩ := Machine.reachable_of_runs (M := servicesOf (· = .sample) Eq)
    (w := .sample) Machine.always (.enter sampleCall :: Choice.steps 0 10)
    (.enter (reconcilePayout .sample World.sampleId .sample).discard :: Choice.steps 1 1)
    (fun s _ => decide (s.world.paid = [World.sampleId])) (fun _ _ _ _ => trivial)
    (List.forall_mem_cons.2 ⟨entry_sampleCall rfl, Choice.legal_steps⟩)
    (List.forall_mem_cons.2 ⟨.reconcilePayout rfl, Choice.legal_steps⟩) (by decide)
  have agree : ∀ d : Deployment, d = .sample → ∀ a,
      (d.getAssetConfig a).address = (Deployment.sample.getAssetConfig a).address := by
    rintro d rfl a
    rfl
  exact ⟨s, s', later, of_decide_eq_true res, paid_as_prepared agree reach later⟩

end AvaSettle.Payouts
