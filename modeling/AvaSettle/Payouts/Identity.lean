import Mathlib.Data.List.Pairwise
import AvaSettle.Contracts.Arguments
import AvaSettle.Contracts.SettlementVault
import AvaSettle.Payouts.Runs

/-!
# The identity of a payout on the vault

The vault tells payouts apart by the hash of a reference, the token, the recipient and the amount. The
service takes the hash of the external id as the reference, and the ledger keeps external ids distinct
within a client only. So two payouts have one identity just when they agree in all four and belong to
different clients, or to none, and the vault rejects the second of them as a replay of the first.
-/

namespace AvaSettle.Payouts
open Async
open Blockchain
open Evm (Word)
open Contracts (OpenZeppelin)
open Contracts.SettlementVault (computePayoutId execute)
open Data (Table)

/-! ## Keys -/

/-- The columns of `uq_avasettle_payouts_client_external`: rows without a client have no key. -/
def clientKey (r : PayoutRecord) : Option (String × String) :=
  r.clientId.map (·, r.externalId)

/-- Rows of one client have different external ids. -/
def KeysDistinct (w : World) : Prop :=
  (w.payouts.rows.map clientKey).Pairwise fun k k' => k.isSome → k ≠ k'

section
variable {w w' : World}

/-- An insert keeps the external ids of a client distinct. -/
lemma keysDistinct_insertPayout {r : PayoutRecord} {o : Option PayoutRecord}
    (run : w.insertPayout r = some (o, w')) (keys : KeysDistinct w) : KeysDistinct w' := by
  unfold World.insertPayout at run
  split at run
  case isTrue =>
    cases run
    exact keys
  case isFalse new =>
    split at run
    case isTrue => cases run
    case isFalse =>
      obtain ⟨t, inserted, eq⟩ := Option.map_eq_some_iff.1 run
      cases eq
      have rows := Table.rows_insert inserted
      change (t.rows.map clientKey).Pairwise _
      rw [rows, List.map_append, List.pairwise_append]
      refine ⟨keys, List.pairwise_singleton _ _, fun k mem k' mem' isSome eq => new ?_⟩
      obtain ⟨r', row, rfl⟩ := List.mem_map.1 mem
      obtain rfl := List.mem_singleton.1 mem'
      refine List.any_eq_true.2 ⟨r', row, ?_⟩
      cases h' : r'.clientId with
      | none => simp [clientKey, h'] at isSome
      | some c =>
        cases h : r.clientId with
        | none => simp [clientKey, h, h'] at eq
        | some c' =>
          obtain ⟨rfl, external⟩ : c = c' ∧ r'.externalId = r.externalId := by
            simpa [clientKey, h, h'] using eq
          simp [sameKey, external]

/-- No update touches the columns of the key. -/
lemma clientKey_applyTo {patch : PayoutPatch} {now : Timestamp} {r : PayoutRecord} :
    clientKey (patch.applyTo now r) = clientKey r := rfl

/-- An update keeps them, since it leaves them alone. -/
lemma keysDistinct_updatePayout {id : Uuid} {patch : PayoutPatch}
    {expectedStatus : Option (List PayoutStatus)} (keys : KeysDistinct w) :
    KeysDistinct (w.updatePayout id patch expectedStatus).2 := by
  have same : (w.updatePayout id patch expectedStatus).2.payouts.rows.map clientKey =
      w.payouts.rows.map clientKey := by
    change (List.map _ w.payouts.rows).map clientKey = _
    rw [List.map_map]
    refine List.map_congr_left fun r _ => ?_
    simp only [Function.comp_apply, Data.Patch.applyIf]
    split
    case isTrue => exact clientKey_applyTo
    case isFalse => rfl
  unfold KeysDistinct
  rwa [same]

/-- Every operation keeps the keys distinct. -/
lemma keysDistinct_exec (c : Call) (b : c.Res) (run : World.exec c w = some (b, w'))
    (keys : KeysDistinct w) : KeysDistinct w' := by
  have other (payouts : w'.payouts = w.payouts) : KeysDistinct w' := by
    unfold KeysDistinct
    rwa [payouts]
  cases c
  case payoutInsert r => exact keysDistinct_insertPayout run keys
  case payoutUpdate id patch guard =>
    cases run
    exact keysDistinct_updatePayout keys
  case waitForTransactionReceipt hash =>
    obtain ⟨rc, -, eq⟩ := Option.map_eq_some_iff.1 run
    cases eq
    exact keys
  case submit account tx ids =>
    cases run
    exact keys
  all_goals exact other (exec_neutral rfl run).1

end

section
variable {chain : Chain → Chain → Prop} {c : Chain} {now : Timestamp} {nextUuid : Uuid}
  {nextBytes32 : Hex} {s : Sys Api World} {r r' : PayoutRecord}

/-- The keys are distinct in every reachable ledger. -/
theorem keysDistinct_of_reachable
    (reach : (anyLedger chain).Reachable (.fresh c now nextUuid nextBytes32) s) :
    KeysDistinct s.world :=
  Machine.world_of_steps (P := KeysDistinct) (fun c _ b _ => keysDistinct_exec c b)
    (fun _ _ move keys => by
      unfold KeysDistinct
      rwa [move.payouts]) reach .nil

/-- Two payouts of one client have different external ids. -/
lemma externalId_ne_of_client {w : World} (keys : KeysDistinct w) (mem : r ∈ w.payouts.rows)
    (mem' : r' ∈ w.payouts.rows) (ne : r ≠ r') (client : r.clientId ≠ none)
    (same : r'.clientId = r.clientId) : r.externalId ≠ r'.externalId := by
  intro external
  have : Std.Symm fun r r' => (clientKey r).isSome → clientKey r ≠ clientKey r' :=
    ⟨fun r r' h isSome eq => h (eq ▸ isSome) eq.symm⟩
  refine (List.pairwise_map.1 keys).forall mem mem' ne ?_ ?_
  · simpa [clientKey, Option.isSome_iff_ne_none] using client
  · simp [clientKey, same, external]

end

/-! ## Orders -/

/-- What a payout is on the vault: the reference, and what is paid to whom. -/
structure Order where
  externalId : String
  token : Evm.Address
  beneficiary : Evm.Address
  amount : Word
  deriving DecidableEq

section
variable (d : Deployment) (keccak256 : List Word → Word)

/-- The order of a payout that is sent through the vault: the token is configured, and the amount can
    be encoded. -/
def orderOf (r : PayoutRecord) : Option Order :=
  if r.amountAtomic < 2 ^ 256 then
    (d.getAssetConfig r.asset).address.map fun token =>
      ⟨r.externalId, addressOf token, addressOf r.beneficiaryAddress, .ofNat 256 r.amountAtomic⟩
  else none

/-- The reference of an order. -/
def Order.payoutRef (o : Order) : Word :=
  wordOf (vaultPayoutRefFromExternalId d o.externalId)

/-- The words that the vault hashes. -/
def Order.preimage (o : Order) : List Word :=
  [o.payoutRef d, o.token.word, o.beneficiary.word, o.amount]

/-- The id of an order on the vault. -/
def Order.payoutId (o : Order) : Word :=
  computePayoutId keccak256 (o.payoutRef d) o.token o.beneficiary o.amount

/-- The hashes do not collide on these orders: neither those of the external ids nor those of the
    vault. -/
structure CollisionFree (orders : List Order) : Prop where
  refs : ∀ o ∈ orders, ∀ o' ∈ orders, o.payoutRef d = o'.payoutRef d → o.externalId = o'.externalId
  ids : ∀ o ∈ orders, ∀ o' ∈ orders, keccak256 (o.preimage d) = keccak256 (o'.preimage d) →
    o.preimage d = o'.preimage d

end

section
variable {d : Deployment} {keccak256 : List Word → Word} {orders : List Order} {o o' : Order}

/-- Where the hashes do not collide, two orders with one id are one order. -/
lemma payoutId_inj (free : CollisionFree d keccak256 orders) (mem : o ∈ orders) (mem' : o' ∈ orders)
    (eq : o.payoutId d keccak256 = o'.payoutId d keccak256) : o = o' := by
  have words := free.ids o mem o' mem' eq
  simp only [Order.preimage, List.cons.injEq, and_true] at words
  obtain ⟨ref, token, beneficiary, amount⟩ := words
  obtain ⟨externalId, t, b, a⟩ := o
  obtain ⟨externalId', t', b', a'⟩ := o'
  obtain rfl : externalId = externalId' := free.refs _ mem _ mem' ref
  obtain rfl := Evm.Address.word_injective token
  obtain rfl := Evm.Address.word_injective beneficiary
  obtain rfl : a = a' := amount
  rfl

end

/-! ## The replay guard -/

section
variable (d : Deployment) (keccak256 : List Word → Word) {oz : OpenZeppelin}
  (v : Contracts.SettlementVault.Storage oz)

/-- The orders have been executed on the vault, and nothing else has. -/
structure ExecutedOrders (orders : List Order) : Prop where
  flags : ∀ id, v.payoutExecuted id = true ↔ ∃ o ∈ orders, o.payoutId d keccak256 = id
  valid : ∀ o ∈ orders, o.payoutRef d ≠ 0 ∧ o.beneficiary ≠ 0 ∧ o.amount ≠ 0

/-- The vault executes an order, in a call and among other contracts. -/
def Order.exec {θ : Type} (o : Order) (others : Evm.Others (Contracts.SettlementVault.abi oz) θ)
    (f : Evm.Frame (Contracts.SettlementVault.abi oz)) (batchId : Word) (metadata : Evm.Bytes)
    (s : Evm.Account (Contracts.SettlementVault.abi oz) × θ) :
    Except (Contracts.SettlementVault.Error oz) Word :=
  ((execute keccak256 batchId (o.payoutRef d) o.token o.beneficiary o.amount metadata).exec
    others f s).1

/-- The vault rejects the order as a replay. -/
def RejectsReplay (o : Order) : Prop :=
  ∃ (θ : Type) (others : Evm.Others (Contracts.SettlementVault.abi oz) θ)
    (f : Evm.Frame (Contracts.SettlementVault.abi oz)) (batchId : Word) (metadata : Evm.Bytes)
    (s : Evm.Account (Contracts.SettlementVault.abi oz) × θ), s.1.storage = v ∧
      o.exec d keccak256 others f batchId metadata s =
        .error (.payoutAlreadyExecuted (o.payoutId d keccak256))

end

section
variable {d : Deployment} {keccak256 : List Word → Word} {oz : OpenZeppelin}
  {v : Contracts.SettlementVault.Storage oz} {orders : List Order} {o : Order}

/-- Only the guard rejects an order as a replay. -/
lemma wp_guard {f : Evm.Frame (Contracts.SettlementVault.abi oz)} {batchId payoutRef : Word}
    {token recipient : Evm.Address} {amount id : Word} {metadata : Evm.Bytes}
    {s : Evm.Account (Contracts.SettlementVault.abi oz)} :
    (execute keccak256 batchId payoutRef token recipient amount metadata).wp (fun _ _ => True) f
      (fun r _ => r = .error (.payoutAlreadyExecuted id) → s.storage.payoutExecuted id = true) s := by
  refine Evm.Code.wp_require_bind.2 ⟨fun _ => ?_, fun _ => nofun⟩
  refine Evm.Code.wp_require_bind.2 ⟨fun _ => ?_, fun _ => nofun⟩
  refine Evm.Code.wp_require_bind.2 ⟨fun _ => ?_, fun _ => nofun⟩
  refine Evm.Code.wp_read_bind.2 (Evm.Code.wp_require_bind.2 ⟨fun _ => ?_, fun set eq => ?_⟩)
  · refine Evm.Code.wp_modify_bind.2 (Evm.Code.wp_read_bind.2 (Evm.Code.wp_bind ?_))
    -- what the token does to the payout is an error of the library
    refine Evm.Code.wp_request_bind.2 fun answer s' _ => ?_
    exact Evm.Code.wp_inherit.2 ⟨fun _ _ => nofun, fun _ _ => nofun⟩
  · cases eq
    simpa using set

/-- What is rejected as a replay has a flag. -/
lemma flag_of_rejectsReplay (rejects : RejectsReplay d keccak256 v o) :
    v.payoutExecuted (o.payoutId d keccak256) = true := by
  obtain ⟨θ, others, f, batchId, metadata, s, rfl, error⟩ := rejects
  exact Evm.Code.wp_sound (fun _ _ => trivial) wp_guard error

/-- An order with a flag is rejected as a replay, if nothing else is wrong with it. -/
lemma rejectsReplay_of_flag (ref : o.payoutRef d ≠ 0) (beneficiary : o.beneficiary ≠ 0)
    (amount : o.amount ≠ 0) (flag : v.payoutExecuted (o.payoutId d keccak256) = true) :
    RejectsReplay d keccak256 v o := by
  refine ⟨Unit, fun _ s => (none, s), ⟨⟨0, 0, .pause⟩, 0, v⟩, 0, [], ⟨⟨v, []⟩, ()⟩, rfl, ?_⟩
  refine Evm.Code.wp_sound (A := Contracts.SettlementVault.abi oz) (R := fun _ _ => True)
    (Q := fun r _ => r = .error (.payoutAlreadyExecuted (o.payoutId d keccak256)))
    (fun _ _ => trivial) ?_
  refine Evm.Code.wp_require_bind.2 ⟨fun _ => ?_, fun zero => absurd ref zero⟩
  refine Evm.Code.wp_require_bind.2 ⟨fun _ => ?_, fun zero => absurd beneficiary zero⟩
  refine Evm.Code.wp_require_bind.2 ⟨fun _ => ?_, fun zero => absurd amount zero⟩
  refine Evm.Code.wp_read_bind.2 (Evm.Code.wp_require_bind.2 ⟨fun unset => ?_, fun _ => rfl⟩)
  exact absurd (flag.symm.trans unset) nofun

/-- The guard rejects the orders that have been executed. -/
lemma rejectsReplay_iff (free : CollisionFree d keccak256 (o :: orders))
    (executed : ExecutedOrders d keccak256 v orders) : RejectsReplay d keccak256 v o ↔ o ∈ orders := by
  constructor
  · intro rejects
    obtain ⟨o', mem, same⟩ := (executed.flags _).1 (flag_of_rejectsReplay rejects)
    exact payoutId_inj free (List.mem_cons_of_mem _ mem) List.mem_cons_self same ▸ mem
  · intro mem
    obtain ⟨ref, beneficiary, amount⟩ := executed.valid o mem
    exact rejectsReplay_of_flag ref beneficiary amount ((executed.flags _).2 ⟨o, mem, rfl⟩)

end

/-! ## Distinct payouts -/

/-- Payouts of different clients, or of none, that are the same order on the vault. -/
def Twins (d : Deployment) (r r' : PayoutRecord) : Prop :=
  (r.clientId = none ∨ r'.clientId ≠ r.clientId) ∧ orderOf d r = orderOf d r'

section
variable {d : Deployment} {chain : Chain → Chain → Prop} {c : Chain} {now : Timestamp}
  {nextUuid : Uuid} {nextBytes32 : Hex} {s : Sys Api World} {r r' : PayoutRecord} {o o' : Order}

/-- The external id of an order is that of its payout. -/
lemma externalId_of_orderOf (order : orderOf d r = some o) : o.externalId = r.externalId := by
  unfold orderOf at order
  split at order
  case isTrue =>
    obtain ⟨token, -, rfl⟩ := Option.map_eq_some_iff.1 order
    rfl
  case isFalse => cases order

/-- Two payouts of a ledger are one order just when they are twins. -/
lemma twins_iff (keys : KeysDistinct s.world) (mem : r ∈ s.world.payouts.rows)
    (mem' : r' ∈ s.world.payouts.rows) (ne : r' ≠ r) (order : orderOf d r = some o)
    (order' : orderOf d r' = some o') : Twins d r r' ↔ o = o' := by
  rw [Twins, order, order', Option.some.injEq]
  refine ⟨And.right, fun same => ⟨?_, same⟩⟩
  by_contra related
  obtain ⟨client, related⟩ := not_or.1 related
  refine externalId_ne_of_client keys mem mem' ne.symm client (not_not.1 related) ?_
  rw [← externalId_of_orderOf order, ← externalId_of_orderOf order', same]

/-- The payout has an id of its own on the vault, and is not rejected as a replay by a vault that has
    executed some others of the ledger, just when none of these is its twin. -/
theorem unrejected_iff {keccak256 : List Word → Word} {oz : OpenZeppelin}
    {v : Contracts.SettlementVault.Storage oz} {done : List PayoutRecord} {orders : List Order}
    (reach : (anyLedger chain).Reachable (.fresh c now nextUuid nextBytes32) s)
    (mem : r ∈ s.world.payouts.rows) (order : orderOf d r = some o)
    (others : ∀ r' ∈ done, r' ∈ s.world.payouts.rows ∧ r' ≠ r)
    (placed : done.map (orderOf d) = orders.map some)
    (executed : ExecutedOrders d keccak256 v orders)
    (free : CollisionFree d keccak256 (o :: orders)) :
    ((∀ o' ∈ orders, o'.payoutId d keccak256 ≠ o.payoutId d keccak256) ∧
      ¬RejectsReplay d keccak256 v o) ↔ ∀ r' ∈ done, ¬Twins d r r' := by
  have keys := keysDistinct_of_reachable reach
  have twin : (∃ r' ∈ done, Twins d r r') ↔ o ∈ orders := by
    constructor
    · rintro ⟨r', hr', twins⟩
      have hr := List.mem_map_of_mem (f := orderOf d) hr'
      rw [placed, ← twins.2, order] at hr
      simpa using hr
    · intro ho
      have ho' := List.mem_map_of_mem (f := some) ho
      rw [← placed] at ho'
      obtain ⟨r', hr', order'⟩ := List.mem_map.1 ho'
      obtain ⟨row, ne⟩ := others r' hr'
      exact ⟨r', hr', (twins_iff keys mem row ne order order').2 rfl⟩
  have rejects := rejectsReplay_iff free executed
  have ids : (∀ o' ∈ orders, o'.payoutId d keccak256 ≠ o.payoutId d keccak256) ↔ o ∉ orders := by
    constructor
    · exact fun differ ho => differ o ho rfl
    · intro ho o' ho' same
      exact ho (payoutId_inj free (List.mem_cons_of_mem _ ho') List.mem_cons_self same ▸ ho')
  rw [ids, rejects, and_self_iff, ← twin]
  exact ⟨fun none r' hr' twins => none ⟨r', hr', twins⟩, fun none ⟨r', hr', twins⟩ => none r' hr' twins⟩

end

/-! ## Concrete payouts -/

/-- A deployment that pays through a vault. -/
def vaultDeployment : Deployment :=
  { Deployment.sample with settlementVaultAddress := some sampleAddress }

/-- A deployment that pays through the vault and does not wait. -/
def promptDeployment : Deployment :=
  { vaultDeployment with waitForReceipt := false }

/-- A payout of one USDC with the external id of all concrete payouts. -/
def orderDto (beneficiaryAddress : Hex) : CreatePayoutDto :=
  ⟨"inv-1", "1", .usdc, beneficiaryAddress, none, none, none, none, false⟩

/-- A second beneficiary. -/
def secondAddress : Hex := "0xf39Fd6e51aad88F6F4ce6aB8827279cffFb92266"

/-- The id of the second row. -/
def secondId : Uuid := "00000000-0000-4000-8000-000000000001"

/-- The order of a concrete payout. -/
def sampleOrder (beneficiary : Hex) : Order :=
  ⟨"inv-1", addressOf sampleToken, addressOf beneficiary, 1000000⟩

/-- The hashes of the two concrete orders. -/
def sampleKeccak (words : List Word) : Word :=
  if words = (sampleOrder sampleAddress).preimage vaultDeployment then
    wordOf "0xd0f7378a1c37e334bb11438c2fce94ff434325edafcef9dfbf309d44a1397909"
  else wordOf "0xf4648410ea75d183e9d6561893f037e28db782f6a479dbf2e70c4f2b9312bb99"

/-- The vault, once a payout has been executed. -/
def vaultAfter (id : Word) : Contracts.SettlementVault.Storage .standard where
  base := ⟨1, 0, false, false⟩
  funder := 1
  operators _ := true
  supportedTokens _ := true
  payoutExecuted := fun id' => decide (id' = id)
  batchExecuted _ := false

/-- The vault has executed the concrete order of a beneficiary. -/
lemma executedOrders_sample (keccak256 : List Word → Word) (beneficiary : Hex)
    (valid : addressOf beneficiary ≠ 0) : ExecutedOrders vaultDeployment keccak256
      (vaultAfter ((sampleOrder beneficiary).payoutId vaultDeployment keccak256))
      [sampleOrder beneficiary] where
  flags id := by simp [vaultAfter, eq_comm]
  valid o mem := by
    obtain rfl := List.mem_singleton.1 mem
    have ref : wordOf (vaultPayoutRefFromExternalId vaultDeployment "inv-1") ≠ 0 := by decide +kernel
    exact ⟨ref, valid, (by decide : (1000000 : Word) ≠ 0)⟩

/-- Two clients create a payout each. -/
def bothCreated (beneficiary beneficiary' : Hex) : List (Choice Api World) :=
  .enter (createPayout vaultDeployment (orderDto beneficiary) .sample).discard ::
    (Choice.steps 0 5 ++ .env (fun w => { w with nextUuid := secondId }) ::
      .enter (createPayout vaultDeployment (orderDto beneficiary')
        { RequestContext.sample with clientId := some "other" }).discard :: Choice.steps 1 5)

/-- The schedule of the concrete run is a legal one. -/
lemma legal_bothCreated {beneficiary beneficiary' : Hex} :
    ∀ c ∈ bothCreated beneficiary beneficiary', c.Legal (anyLedger Eq) := by
  simp only [bothCreated, List.forall_mem_cons, List.forall_mem_append]
  exact ⟨.createPayout trivial, Choice.legal_steps,
    fun _ => ⟨rfl, rfl, rfl, rfl, rfl, rfl, rfl, rfl, rfl⟩, .createPayout trivial, Choice.legal_steps⟩

/-- The ledger holds the payouts of both clients. -/
def holdsBoth (beneficiary beneficiary' : Hex) (s : Sys Api World) : Bool :=
  ((s.world.payouts.find? World.sampleId).any fun r =>
      decide (orderOf vaultDeployment r = some (sampleOrder beneficiary))) &&
    (s.world.payouts.find? secondId).any fun r =>
      decide (orderOf vaultDeployment r = some (sampleOrder beneficiary'))

/-- Two clients have payouts in the ledger. -/
lemma exists_both (beneficiary beneficiary' : Hex) (res : ((anyLedger Eq).run Machine.always
    (bothCreated beneficiary beneficiary') ⟨.sample, []⟩).any (holdsBoth beneficiary beneficiary')) :
    ∃ s, (anyLedger Eq).Reachable .sample s ∧ ∃ r ∈ s.world.payouts.rows,
      ∃ r' ∈ s.world.payouts.rows, r' ≠ r ∧
        orderOf vaultDeployment r = some (sampleOrder beneficiary) ∧
          orderOf vaultDeployment r' = some (sampleOrder beneficiary') := by
  obtain ⟨s, reach, holds⟩ := Machine.reachable_of_run (M := anyLedger Eq) (w := .sample)
    Machine.always (bothCreated beneficiary beneficiary') (holdsBoth beneficiary beneficiary')
    (fun _ _ _ _ => trivial) legal_bothCreated res
  obtain ⟨first, second⟩ := Bool.and_eq_true_iff.1 holds
  obtain ⟨r, found, order⟩ := (Option.any_eq_true _ _).1 first
  obtain ⟨r', found', order'⟩ := (Option.any_eq_true _ _).1 second
  refine ⟨s, reach, r, Table.mem_of_find? found, r', Table.mem_of_find? found', ?_,
    of_decide_eq_true order, of_decide_eq_true order'⟩
  rintro rfl
  exact absurd ((Table.key_of_find? found).symm.trans (Table.key_of_find? found')) (by decide)

/-- Two payouts of one amount for two beneficiaries, one of which has been executed. -/
theorem unrejected_of_beneficiaries : ∃ s, (anyLedger Eq).Reachable .sample s ∧
    ∃ r ∈ s.world.payouts.rows, ∃ r' ∈ s.world.payouts.rows, r' ≠ r ∧
      ((∀ o' ∈ [sampleOrder secondAddress], o'.payoutId vaultDeployment sampleKeccak ≠
          (sampleOrder sampleAddress).payoutId vaultDeployment sampleKeccak) ∧
        ¬RejectsReplay vaultDeployment sampleKeccak
          (vaultAfter ((sampleOrder secondAddress).payoutId vaultDeployment sampleKeccak))
          (sampleOrder sampleAddress) ↔ ∀ r'' ∈ [r'], ¬Twins vaultDeployment r r'') := by
  obtain ⟨s, reach, r, mem, r', mem', ne, order, order'⟩ :=
    exists_both sampleAddress secondAddress (by decide +kernel)
  refine ⟨s, reach, r, mem, r', mem', ne, ?_⟩
  refine unrejected_iff reach mem order (by simpa using ⟨mem', ne⟩) (by simp [order'])
    (executedOrders_sample _ _ (by decide +kernel)) ⟨by simp [sampleOrder], ?_⟩
  decide +kernel

/-- Two clients pay the same beneficiary the same amount under the same external id: the payouts have
    one id, and the vault rejects the second as a replay of the first. -/
theorem rejected_of_twins : ∃ s, (anyLedger Eq).Reachable .sample s ∧
    ∃ r ∈ s.world.payouts.rows, ∃ r' ∈ s.world.payouts.rows, r' ≠ r ∧
      ∃ o o', orderOf vaultDeployment r = some o ∧ orderOf vaultDeployment r' = some o' ∧
        CollisionFree vaultDeployment sampleKeccak [o, o'] ∧
          o.payoutId vaultDeployment sampleKeccak = o'.payoutId vaultDeployment sampleKeccak ∧
            ∃ v : Contracts.SettlementVault.Storage .standard,
              ExecutedOrders vaultDeployment sampleKeccak v [o'] ∧
                RejectsReplay vaultDeployment sampleKeccak v o := by
  obtain ⟨s, reach, r, mem, r', mem', ne, order, order'⟩ :=
    exists_both sampleAddress sampleAddress (by decide +kernel)
  have free : CollisionFree vaultDeployment sampleKeccak
      [sampleOrder sampleAddress, sampleOrder sampleAddress] := ⟨by simp, by simp⟩
  have executed := executedOrders_sample sampleKeccak sampleAddress (by decide +kernel)
  exact ⟨s, reach, r, mem, r', mem', ne, _, _, order, order', free, rfl, _, executed,
    (rejectsReplay_iff free executed).2 (List.mem_singleton_self _)⟩

end AvaSettle.Payouts
