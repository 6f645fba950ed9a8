import AvaSettle.Payins.Custody
import AvaSettle.Payins.Derivation

/-!
# Collected funds are not forgotten

Sessions of requests to the pay-in services, one after another, while tokens arrive and sweeps are mined.
Where the requests are careful and no sweep is reverted that has counted tokens to take, every pay-in stays in
custody, and a confirmed one whose address still holds counted tokens is in the sweep queue. Concrete sessions
show that each condition is needed.
-/

namespace AvaSettle.Payins.Custody
open Async
open Data (Table)
open Blockchain
open Sweeps (Derived Swept)

/-! ## Careful sessions -/

/-- The requests to the pay-in services. The sweep that a reconciliation starts in the background is a request
    of its own, after it. -/
inductive PayInRequest : Type where
  | createPayIn (dto : CreatePayInDto) (context : RequestContext)
  | listPayIns (query : ListPayInsQueryDto) (context : RequestContext)
  | getPayIn (id : Uuid) (context : RequestContext)
  | reconcilePayIn (id : Uuid) (context : RequestContext)
  | acceptPayIn (id : Uuid) (dto : AcceptPayInDto) (context : RequestContext)
  | sweepPayIn (id : Uuid) (dto : SweepPayInDto) (context : RequestContext)
  | topUpPayIn (id : Uuid) (dto : TopUpPayInDto) (context : RequestContext)
  | topUpAndSweep (id : Uuid) (dto : TopUpAndSweepDto) (context : RequestContext)
  | retryPendingSweeps (limit : Nat) (context : RequestContext)

/-- The call that serves a request. -/
def serve (d : Deployment) : PayInRequest → Method Unit
  | .createPayIn dto context => (createPayIn d dto context).discard
  | .listPayIns query context => (listPayIns query context).discard
  | .getPayIn id context => (getPayIn id context).discard
  | .reconcilePayIn id context => (reconcilePayIn d id context).discard
  | .acceptPayIn id dto context => (acceptPayIn id dto context).discard
  | .sweepPayIn id dto context => (sweepPayIn d id dto context).discard
  | .topUpPayIn id dto context => (topUpPayIn d id dto context).discard
  | .topUpAndSweep id dto context => (topUpAndSweep d id dto context).discard
  | .retryPendingSweeps limit context => (retryPendingSweeps d limit context).discard

/-- An amount that is asked for is at least what the address holds of the counted tokens; and where a pay-in
    that is swept before it is confirmed is reconciled, all that has arrived by the end is outgoing. -/
def Careful (d : Deployment) (w : World) (q : PayInRequest) (w' : World) : Prop :=
  match q with
  | .sweepPayIn id dto _ => ∀ r amount, w.payins.find? id = some r → Derived r →
      sweepAmount d dto r = .ok (some amount) → held d w r ≤ amount
  | .reconcilePayIn id _ => ∀ r token, w.payins.find? id = some r → Derived r → r.status ≠ .confirmed →
      Swept r → tokenOf d r = some token →
        arrived w'.chain token r.depositAddress ≤ outgoing w' token r.depositAddress
  | _ => True

section
variable {d : Deployment} {reverts : World → Submission → Prop} {c : Chain} {now : Timestamp} {nextUuid : Uuid}
  {nextBytes32 : Hex} {w w' : World} {id : Uuid} {ps : Table PayInRecord.id} {T : Terms}

/-- What a row in order has counted has arrived. -/
lemma counted_of_inv (inv : Inv T d w) (grows : T.grows) : AllCounted d w := by
  intro r mem own token asset
  have row := inv.rows r.id r (Table.find?_of_mem mem)
  have logs : matching d w.chain (account r) =
      (w.chain.transferLogs.filter (isTransfer token r.depositAddress)).map (depositTransfer d r.asset) := by
    rw [Derived] at own
    rw [tokenOf] at asset
    simp only [matching, account, own, asset]
  have le := sum_le_of_subset (f := PayInTransferRecord.amountAtomic) row.once.of_map (row.books grows).real
  rw [logs, List.map_map] at le
  rw [row.total]
  exact le

/-- The services are those whose books are kept. -/
lemma within_payInLedger : (collecting d reverts).Within (payInLedger d Advances fun _ _ _ => True) :=
  ⟨rfl, rfl, And.left, fun _ => trivial⟩

/-- Each request calls the services. -/
lemma entry_serve (q : PayInRequest) : Entry d (serve d q) := by
  cases q with
  | createPayIn => exact .createPayIn
  | listPayIns => exact .listPayIns
  | getPayIn => exact .getPayIn
  | reconcilePayIn => exact .reconcilePayIn
  | acceptPayIn => exact .acceptPayIn
  | sweepPayIn => exact .sweepPayIn
  | topUpPayIn => exact .topUpPayIn
  | topUpAndSweep => exact .topUpAndSweep
  | retryPendingSweeps => exact .retryPendingSweeps

/-- What the rows have counted has arrived after each request of a session. -/
lemma counted_of_visits {meets : World → PayInRequest → World → Prop} (ok : ChainOk c)
    (session : (collecting d reverts).Visits (serve d) meets (.fresh c now nextUuid nextBytes32) w) :
    AllCounted d w := by
  obtain ⟨pool, steps⟩ := within_payInLedger.steps_of_visits entry_serve session
  have sound : (growingSetting d).spec.Sound := sound fun _ h => h
  have init : (growingSetting d).spec.inv (.fresh c now nextUuid nextBytes32) 0 := inv_fresh fun _ => ok
  obtain ⟨_, inv⟩ := Spec.inv_of_reachable sound init steps
  exact counted_of_inv inv trivial

/-- A row that has been counted again is in custody where all that has arrived is outgoing. -/
lemma Recounted.inCustody (recounted : Recounted d ps id w) (counted : AllCounted d w)
    (out : ∀ r token, ps.find? id = some r → Derived r → r.status ≠ .confirmed → Swept r →
      tokenOf d r = some token →
        arrived w.chain token r.depositAddress ≤ outgoing w token r.depositAddress) :
    InCustody d none w := by
  refine { recounted.custody with covered := fun r mem own _ swept => ?_ }
  by_cases key : r.id = id
  · obtain ⟨payin, row, unconfirmed, same⟩ := recounted.row
    obtain ⟨accounts, sweep⟩ := same r (key ▸ Table.find?_of_mem mem)
    have asset : r.asset = payin.asset := congrArg Account.asset accounts
    have mode : r.collectionMode = payin.collectionMode := congrArg Account.collectionMode accounts
    have address : r.depositAddress = payin.depositAddress := congrArg Account.depositAddress accounts
    intro token found
    refine (counted r mem own token found).trans ?_
    rw [address]
    rw [Swept, sweep] at swept
    rw [tokenOf, asset] at found
    exact out payin token row (mode.symm.trans own) unconfirmed swept found
  · exact recounted.custody.covered r mem own (by simpa using key) swept

/-- A request that is careful keeps the rows in custody. -/
lemma InCustody.served {q : PayInRequest} {r} {h : Hist Api}
    (run : (sparing d).Runs (sparing d).Alone (serve d q) w [] r w' h) (careful : Careful d w q w')
    (counted : AllCounted d w) (counted' : AllCounted d w') (custody : InCustody d none w) :
    InCustody d none w' := by
  have kept : Kept d w := ⟨custody, counted⟩
  cases q with
  | createPayIn dto context => exact (takes_discard takes_createPayIn).of_runs run custody
  | listPayIns query context =>
    refine (takes_discard (takes_apart lasts_custody ?_)).of_runs run custody
    refine Prog.uses_bind (apart_request rfl) fun _ => Prog.uses_promiseAll fun s mem => ?_
    obtain ⟨r, -, rfl⟩ := List.mem_map.1 mem
    exact ⟨rfl, fun _ _ _ _ => trivial⟩
  | getPayIn id context =>
    exact (takes_discard (takes_apart lasts_custody
      (Prog.uses_bind apart_requirePayIn fun _ => apart_toResponse))).of_runs run custody
  | reconcilePayIn id context =>
    have ready : Ready d w.payins w := ⟨kept, rfl⟩
    rcases (takes_discard takes_reconcilePayIn).of_runs run ready with kept | recounted
    · exact kept.custody
    · exact recounted.inCustody counted' careful
  | acceptPayIn id dto context => exact ((takes_discard takes_acceptPayIn).of_runs run kept).custody
  | sweepPayIn id dto context =>
    have asked : Asked d dto id w.payins w := by
      intro r row own amount asked token asset
      have enough := careful r amount row own asked
      rw [custody.held (Table.mem_of_find? row) own asset] at enough
      omega
    exact ((takes_discard takes_sweepPayIn).of_runs run ⟨⟨kept, rfl⟩, asked⟩).custody
  | topUpPayIn id dto context =>
    refine (takes_discard (takes_apart lasts_custody ?_)).of_runs run custody
    exact Prog.uses_bind apart_requirePayIn fun _ => Prog.uses_bind (Prog.uses_require fun _ => trivial)
      fun _ => Prog.uses_bind apart_topUp fun _ => apart_toResponse
  | topUpAndSweep id dto context => exact ((takes_discard takes_topUpAndSweep).of_runs run kept).custody
  | retryPendingSweeps limit context =>
    exact ((takes_discard takes_retryPendingSweeps).of_runs run kept).custody

/-- All rows are in custody after a session. -/
lemma inCustody_of_visits (ok : ChainOk c)
    (untouched : ∀ token a, IsToken d token → IsDeposit d a → c.balanceOf token a = arrived c token a)
    (session : (sparing d).Visits (serve d) (Careful d) (.fresh c now nextUuid nextBytes32) w) :
    InCustody d none w := by
  induction session with
  | refl =>
    refine ⟨⟨untouched, List.nodup_nil⟩, fun r mem => ?_, fun r mem => ?_, fun r mem => ?_⟩
    all_goals cases mem
  | tail session visit ih =>
    have counted := counted_of_visits ok session
    have counted' := counted_of_visits ok (session.tail visit)
    cases visit with
    | env move => exact ih.beside (beside_env move)
    | call run careful => exact ih.served run careful counted counted'

/-- Where all transactions are mined, what is outgoing has left. -/
lemma outgoing_eq_departed {token a : Hex} (mined : AllMined w a) :
    outgoing w token a = departed w token a := by
  unfold outgoing departed taken
  refine congrArg List.sum (List.map_congr_left fun s sent => ?_)
  by_cases here : sameHex s.account a = true
  · obtain ⟨receipt, rc⟩ := Option.ne_none_iff_exists'.1 (mined s sent here)
    rw [rc]
    rfl
  · have nothing : takes token a s = 0 := by
      unfold takes
      split
      case h_1 => simp [here]
      case h_2 => rfl
    rw [nothing, ite_self, ite_self]

/-- What is in custody is not forgotten. -/
lemma InCustody.notForgotten (custody : InCustody d none w) : NotForgotten d w := by
  intro r mem own confirmed mined holds
  cases asset : tokenOf d r with
  | none => simp [Custody.held, asset] at holds
  | some token =>
    have unswept : ¬Swept r := fun swept => by
      have covered := custody.covered r mem own (by simp) swept token asset
      rw [custody.held mem own asset] at holds
      rw [outgoing_eq_departed mined] at covered
      omega
    refine inSweepQueue_of_mem mem confirmed ?_
    cases status : r.sweepStatus with
    | notRequired => exact absurd status (custody.required r mem own)
    | pending => exact .inl rfl
    | broadcasted => exact absurd (.inl status) unswept
    | confirmed => exact absurd (.inr status) unswept
    | failed => exact .inr rfl

/-- In sessions in which no amount that is asked for is less than what the address holds, no sweep is
    reverted that has counted tokens to take, and what arrives after an early sweep is swept before it is
    counted, collected funds are not forgotten. -/
theorem not_forgotten (ok : ChainOk c)
    (untouched : ∀ token a, IsToken d token → IsDeposit d a → c.balanceOf token a = arrived c token a)
    (session : (sparing d).Visits (serve d) (Careful d) (.fresh c now nextUuid nextBytes32) w) :
    NotForgotten d w :=
  (inCustody_of_visits ok untouched session).notForgotten

end

/-! ## Concrete sessions -/

/-- The address of the second pay-in of the concrete sessions. -/
def secondDeposit : Hex := "0x70997970C51812dc3A010C7d01b50e0d17dc79C8"

/-- The treasury of the concrete runs. -/
def sampleTreasury : Hex := "0x7E5F4552091A69125d5DfCb7b8C2659029395Bdf"

/-- A deployment with two deposit addresses that does not wait for receipts. -/
def collectingDeployment : Deployment :=
  { Derivation.derivingDeployment with
    waitForReceipt := false
    parseUnits := fun amount decimals =>
      if amount = "0.4" then .ok (4 * 10 ^ (decimals - 1)) else Viem.sample.parseUnits amount decimals }

/-- A chain on which every address has gas and no tokens. -/
def fuelledChain : Chain :=
  { World.sampleChain with
    balance := fun _ => 2000000000000000
    balanceOf := fun _ _ => 0 }

/-- A transfer of sample tokens in the next block, with two more blocks above it, where its place is free. -/
def withTransfer (hash sender recipient : Hex) (amount : Nat) (c : Chain) : Option Chain :=
  if (hash, 0) ∈ places c then none
  else some { c with
    head := c.head + 3
    reportedHead := c.head + 3
    transferLogs := c.transferLogs ++ [⟨sampleToken, hash, 0, c.head + 1, sender, recipient, amount⟩] }

/-- The sample tokens of an address become so many. -/
def holding (a : Hex) (n : Nat) (c : Chain) : Chain :=
  { c with balanceOf := fun token b => if token = sampleToken ∧ b = a then n else c.balanceOf token b }

/-- A transaction is mined. -/
def mine (hash : Hex) (status : ReceiptStatus) (c : Chain) : Chain :=
  { c with receipts := Function.update c.receipts hash (some ⟨status, c.head⟩) }

/-- A sweep of so much has been sent, and waits to be mined. -/
def Waits (a hash : Hex) (amount : Nat) (w : World) : Prop :=
  (∃ s ∈ w.submissions, s.hash = hash ∧ s.account = a ∧ s.tx = .transfer sampleToken sampleTreasury amount) ∧
    w.chain.receipts hash = none

instance {a hash : Hex} {amount : Nat} {w : World} : Decidable (Waits a hash amount w) :=
  inferInstanceAs (Decidable (_ ∧ _))

/-- Sample tokens arrive at an address, from somebody who pays. -/
def receive (a hash : Hex) (amount : Nat) (w : World) : World :=
  match withTransfer hash sampleAddress a amount w.chain with
  | some c => { w with chain := holding a (w.chain.balanceOf sampleToken a + amount) c }
  | none => w

/-- A sweep succeeds, where the address has the tokens. -/
def succeed (a hash : Hex) (amount : Nat) (w : World) : World :=
  if Waits a hash amount w ∧ amount ≤ w.chain.balanceOf sampleToken a then
    match withTransfer hash a sampleTreasury amount w.chain with
    | some c =>
      { w with chain := mine hash .success (holding a (w.chain.balanceOf sampleToken a - amount) c) }
    | none => w
  else w

/-- A sweep is reverted. -/
def revert (a hash : Hex) (amount : Nat) (w : World) : World :=
  if Waits a hash amount w then { w with chain := mine hash .reverted w.chain } else w

/-- The next row gets another id, and the next transaction another hash. -/
def renew (id : Uuid) (hash : Hex) (w : World) : World :=
  { w with nextUuid := id, chain := { w.chain with nextHash := hash } }

section
variable {reverts : World → Submission → Prop} {a hash sender recipient token : Hex} {amount n : Nat}
  {c c' : Chain} {w : World}

/-- The deployment has one token. -/
lemma eq_of_isToken (ours : IsToken collectingDeployment token) : token = sampleToken := by
  obtain ⟨asset, eq⟩ := ours
  exact (Option.some_inj.1 eq).symm

/-- It has two deposit addresses. -/
lemma eq_of_isDeposit (own : IsDeposit collectingDeployment a) : a ∈ [sampleDeposit, secondDeposit] := by
  obtain ⟨index, eq⟩ := own
  match index with
  | 0 =>
    cases eq
    exact List.mem_cons_self
  | 1 =>
    cases eq
    exact List.mem_cons_of_mem _ List.mem_cons_self
  | _ + 2 => cases eq

/-- Those who pay and the treasury have no deposit address. -/
lemma stranger (own : a ∈ [sampleDeposit, secondDeposit]) :
    sameHex sampleAddress a = false ∧ sameHex sampleTreasury a = false := by
  revert a
  decide +kernel

/-- The two addresses differ. -/
lemma sameHex_deposit {a' : Hex} (own : a ∈ [sampleDeposit, secondDeposit])
    (own' : a' ∈ [sampleDeposit, secondDeposit]) : sameHex a a' = decide (a' = a) := by
  have all : ∀ a ∈ [sampleDeposit, secondDeposit], ∀ a' ∈ [sampleDeposit, secondDeposit],
      sameHex a a' = decide (a' = a) := by decide +kernel
  exact all a own a' own'

/-- A chain advances where its logs and its heads stay. -/
lemma advances_of_same (head : c'.head = c.head) (reported : c'.reportedHead = c.reportedHead)
    (transfers : c'.transferLogs = c.transferLogs) (invoices : c'.invoiceLogs = c.invoiceLogs) :
    Advances c c' where
  ok ok := ⟨by rw [places, transfers, invoices]; exact ok.places, by rw [reported, head]; exact ok.reported⟩
  head := head.ge
  transfers := ⟨[], by rw [transfers, List.append_nil], by simp⟩
  invoices := ⟨[], by rw [invoices, List.append_nil], by simp⟩

/-- A transfer extends the chain. -/
lemma withTransfer_cases (eq : withTransfer hash sender recipient amount c = some c') :
    Advances c c' ∧
      c'.transferLogs = c.transferLogs ++ [⟨sampleToken, hash, 0, c.head + 1, sender, recipient, amount⟩] ∧
        c'.balanceOf = c.balanceOf ∧ c'.receipts = c.receipts := by
  unfold withTransfer at eq
  split at eq
  case isTrue => cases eq
  case isFalse free =>
    cases eq
    refine ⟨⟨fun ok => ⟨?_, le_rfl⟩, Nat.le_add_right _ _, ⟨_, rfl, fun l mem => ?_⟩,
      ⟨[], by simp, by simp⟩⟩, rfl, rfl, rfl⟩
    · have nodup := ok.places
      simp only [places, List.map_append, List.map_cons, List.map_nil, List.append_assoc] at nodup free ⊢
      exact List.nodup_middle.2 (List.nodup_cons.2 ⟨free, nodup⟩)
    · rw [List.mem_singleton.1 mem]
      exact Nat.lt_succ_self _

/-- Tokens that arrive are a move of the world. -/
lemma env_receive (own : a ∈ [sampleDeposit, secondDeposit]) (w : World) :
    (collecting collectingDeployment reverts).env w (receive a hash amount w) := by
  unfold receive
  split
  case h_2 => exact ⟨⟨rfl, rfl, rfl, rfl, rfl, rfl, rfl, rfl, .refl⟩, .passes ⟨rfl, rfl⟩ rfl⟩
  case h_1 c eq =>
    obtain ⟨advances, logs, balances, receipts⟩ := withTransfer_cases eq
    refine ⟨⟨rfl, rfl, rfl, rfl, rfl, rfl, rfl, rfl, advances.trans (advances_of_same rfl rfl rfl rfl)⟩,
      .arrives (fun b theirs => (stranger (eq_of_isDeposit theirs)).1)
        ⟨logs, fun token b ours theirs => ?_⟩ receipts⟩
    have theirs := eq_of_isDeposit theirs
    obtain rfl := eq_of_isToken ours
    simp only [holding, isTransfer, sameHex_deposit own theirs, (stranger theirs).1, balances]
    by_cases here : b = a
    · simp [here, sameHex]
    · simp [here]

/-- A sweep that succeeds is one. -/
lemma env_succeed (own : a ∈ [sampleDeposit, secondDeposit]) (w : World) :
    (collecting collectingDeployment reverts).env w (succeed a hash amount w) := by
  have stays : (collecting collectingDeployment reverts).env w w :=
    ⟨⟨rfl, rfl, rfl, rfl, rfl, rfl, rfl, rfl, .refl⟩, .passes ⟨rfl, rfl⟩ rfl⟩
  unfold succeed
  split
  case isFalse => exact stays
  case isTrue may =>
    obtain ⟨⟨⟨s, sent, rfl, rfl, tx⟩, waiting⟩, enough⟩ := may
    split
    case h_2 => exact stays
    case h_1 c eq =>
      obtain ⟨advances, logs, balances, receipts⟩ := withTransfer_cases eq
      have success : (⟨.success, c.head⟩ : Receipt).status = .success := rfl
      refine ⟨⟨rfl, rfl, rfl, rfl, rfl, rfl, rfl, rfl, advances.trans (advances_of_same rfl rfl rfl rfl)⟩,
        .swept sent waiting success tx rfl rfl
          ⟨logs, fun token b ours theirs => ?_⟩ ?_⟩
      · have theirs := eq_of_isDeposit theirs
        obtain rfl := eq_of_isToken ours
        simp only [mine, holding, isTransfer, sameHex_deposit own theirs, (stranger theirs).2, balances]
        by_cases here : b = s.account
        · simp [here, sameHex, Nat.sub_add_cancel enough]
        · simp [here]
      · simp only [mine, holding, receipts]

/-- So is a sweep that is reverted, where that may happen. -/
lemma env_revert (may : ∀ w s, reverts w s) (w : World) :
    (collecting collectingDeployment reverts).env w (revert a hash amount w) := by
  unfold revert
  split
  case isFalse => exact ⟨⟨rfl, rfl, rfl, rfl, rfl, rfl, rfl, rfl, .refl⟩, .passes ⟨rfl, rfl⟩ rfl⟩
  case isTrue waits =>
    obtain ⟨⟨s, sent, rfl, -, -⟩, waiting⟩ := waits
    have failure : (⟨.reverted, w.chain.head⟩ : Receipt).status = .reverted := rfl
    exact ⟨⟨rfl, rfl, rfl, rfl, rfl, rfl, rfl, rfl, advances_of_same rfl rfl rfl rfl⟩,
      .reverted sent waiting failure (may w s) ⟨rfl, rfl⟩ rfl⟩

/-- So is a new id. -/
lemma env_renew {id : Uuid} (w : World) :
    (collecting collectingDeployment reverts).env w (renew id hash w) :=
  ⟨⟨rfl, rfl, rfl, rfl, rfl, rfl, rfl, rfl, advances_of_same rfl rfl rfl rfl⟩, .passes ⟨rfl, rfl⟩ rfl⟩

end

/-- No operation throws, and a transaction gets a hash that no other has. -/
def smooth (_ : Hist Api) (w : World) (e : Event Api) : Bool :=
  !e.outcome.threw && match e.op with
    | .submit _ _ _ => decide (w.chain.receipts w.chain.nextHash = none ∧
        ∀ s ∈ w.submissions, s.hash ≠ w.chain.nextHash)
    | _ => true

/-- The check of the concrete sessions decides that operations are smooth. -/
lemma smooth_of_smooth {h : Hist Api} {w : World} {e : Event Api} (ok : smooth h w e = true) : Smooth w e := by
  obtain ⟨quiet, fresh⟩ := Bool.and_eq_true_iff.1 ok
  refine ⟨Event.faultless_of_not_threw quiet, fun account tx payouts eq => ?_⟩
  rw [eq] at fresh
  exact of_decide_eq_true fresh

instance {r : PayInRecord} : Decidable (Swept r) := inferInstanceAs (Decidable (_ ∨ _))

/-- An amount that is asked for is none at all, and a pay-in that is reconciled has not been swept. -/
def unhurried (w : World) (q : PayInRequest) (_ : World) : Bool :=
  match q with
  | .sweepPayIn _ dto _ => dto.amount.isNone
  | .reconcilePayIn id _ => (w.payins.find? id).all fun r => decide ¬Swept r
  | _ => true

/-- That is careful. -/
lemma careful_of_unhurried {d : Deployment} {w w' : World} {q : PayInRequest} (met : unhurried w q w' = true) :
    Careful d w q w' := by
  cases q with
  | sweepPayIn id dto context =>
    intro r amount _ _ asked
    have none : dto.amount = none := Option.isNone_iff_eq_none.1 met
    simp [sweepAmount, truthy, none] at asked
  | reconcilePayIn id context =>
    intro r token row _ _ swept
    rw [unhurried, row] at met
    exact absurd swept (of_decide_eq_true met)
  | createPayIn => trivial
  | listPayIns => trivial
  | getPayIn => trivial
  | acceptPayIn => trivial
  | topUpPayIn => trivial
  | topUpAndSweep => trivial
  | retryPendingSweeps => trivial

/-- A request all of whose operations are done. -/
def visit (q : PayInRequest) : Errand Api World PayInRequest := .call q (.replicate 20 .done)

/-- A pay-in of one USDC is created, paid and confirmed, and the next row gets another id. -/
def collect (id : Uuid) (externalId : String) (a arrival next : Hex) : List (Errand Api World PayInRequest) :=
  [visit (.createPayIn { sampleDto .derivedAddress with externalId := externalId } .sample),
    .env (receive a arrival 1000000), visit (.reconcilePayIn id .sample), .env (renew otherId next)]

/-- A pay-in is swept, with an amount or without. -/
def sweep (id : Uuid) (amount : Option String) : Errand Api World PayInRequest :=
  visit (.sweepPayIn id ⟨none, amount⟩ .sample)

/-- The world at the end of a concrete session, with scans that can be evaluated. -/
def endOf (reverts : World → Submission → Prop) (met : World → PayInRequest → World → Bool)
    (errands : List (Errand Api World PayInRequest)) : Option World :=
  { collecting collectingDeployment reverts with exec := World.evaluate }.visits smooth
    (serve collectingDeployment) met errands (.fresh fuelledChain 0 World.sampleId sampleNonce)

/-- What is evaluated is a session. -/
lemma visits_of_endOf (reverts : World → Submission → Prop) {meets : World → PayInRequest → World → Prop}
    (met : World → PayInRequest → World → Bool) (errands : List (Errand Api World PayInRequest))
    (P : World → Bool) (fair : ∀ w q w', met w q w' = true → meets w q w')
    (moves : ∀ f, .env f ∈ errands → ∀ w, (collecting collectingDeployment reverts).env w (f w))
    (res : (endOf reverts met errands).any P = true) :
    ∃ w, (collecting collectingDeployment reverts).Visits (serve collectingDeployment) meets
      (.fresh fuelledChain 0 World.sampleId sampleNonce) w ∧ P w = true := by
  obtain ⟨w, eq, holds⟩ := (Option.any_eq_true _ _).1 res
  rw [endOf, World.evaluate_eq] at eq
  exact ⟨w, Machine.visits_of_eval (fun _ _ _ => smooth_of_smooth) fair moves eq, holds⟩

/-- How many counted tokens are at the address of a pay-in, for the concrete sessions. -/
def quickHeld (w : World) (r : PayInRecord) : Nat :=
  r.receivedAmountAtomic - (((w.chain.transferLogs.filter fun l =>
    quickHex l.address sampleToken && quickHex l.to r.depositAddress).map TransferLog.value).sum -
      w.chain.balanceOf sampleToken r.depositAddress)

/-- What is counted quickly is what is held. -/
lemma quickHeld_eq {w : World} {r : PayInRecord} : quickHeld w r = held collectingDeployment w r := by
  rw [quickHeld, quickHex_eq]
  rfl

/-- A confirmed pay-in with counted tokens at its address, where all transactions are mined. -/
def awaits (swept : Bool) (w : World) (r : PayInRecord) : Bool :=
  decide (r.collectionMode = .derivedAddress ∧ r.status = .confirmed ∧
    (∀ s ∈ w.submissions, w.chain.receipts s.hash ≠ none) ∧ 0 < quickHeld w r ∧ (swept = true ↔ Swept r))

/-- A pay-in that awaits a sweep where it is recorded as swept is forgotten. -/
lemma forgotten_of_awaits {w : World} (res : (w.payins.rows.any (awaits true w)) = true) :
    ¬NotForgotten collectingDeployment w := by
  intro kept
  obtain ⟨r, mem, holds⟩ := List.any_eq_true.1 res
  obtain ⟨own, confirmed, mined, some, swept⟩ := of_decide_eq_true holds
  rw [quickHeld_eq] at some
  exact (kept r mem own confirmed (fun s sent _ => mined s sent) some).unswept (swept.1 rfl)

/-- What is evaluated to await a sweep is forgotten by a session. -/
lemma exists_forgotten {reverts : World → Submission → Prop} {meets : World → PayInRequest → World → Prop}
    (met : World → PayInRequest → World → Bool) (errands : List (Errand Api World PayInRequest))
    (fair : ∀ w q w', met w q w' = true → meets w q w')
    (moves : ∀ f, .env f ∈ errands → ∀ w, (collecting collectingDeployment reverts).env w (f w))
    (res : (endOf reverts met errands).any (fun w => w.payins.rows.any (awaits true w)) = true) :
    ∃ w, (collecting collectingDeployment reverts).Visits (serve collectingDeployment) meets
      (.fresh fuelledChain 0 World.sampleId sampleNonce) w ∧ ¬NotForgotten collectingDeployment w := by
  obtain ⟨w, session, awaits⟩ := visits_of_endOf reverts met errands _ fair moves res
  exact ⟨w, session, forgotten_of_awaits awaits⟩

/-- The moves of the world while a pay-in is collected. -/
lemma moves_collect {reverts : World → Submission → Prop} {id : Uuid} {externalId : String}
    {a arrival next : Hex} {f : World → World} (own : a ∈ [sampleDeposit, secondDeposit])
    (mem : .env f ∈ collect id externalId a arrival next) (w : World) :
    (collecting collectingDeployment reverts).env w (f w) := by
  simp only [collect, visit, List.mem_cons, List.not_mem_nil, Errand.env.injEq, reduceCtorEq, false_or,
    or_false] at mem
  rcases mem with rfl | rfl
  · exact env_receive own w
  · exact env_renew w

/-- The move of the world after a sweep. -/
lemma eq_of_mem_sweep {id : Uuid} {amount : Option String} {f g : World → World}
    (mem : .env f ∈ [sweep id amount, .env g]) : f = g := by
  simpa [sweep, visit] using mem

/-- The request is a sweep, which may ask for an amount. -/
def isSweep : PayInRequest → Bool
  | .sweepPayIn _ _ _ => true
  | _ => false

/-- The request is a reconciliation. -/
def isReconciliation : PayInRequest → Bool
  | .reconcilePayIn _ _ => true
  | _ => false

/-- The first pay-in is collected, and a part of it is swept. -/
def partlySwept : List (Errand Api World PayInRequest) :=
  collect World.sampleId "inv-1" sampleDeposit "0x02" "0x01" ++
    [sweep World.sampleId (some "0.4"), .env (succeed sampleDeposit "0x01" 400000)]

/-- The first pay-in is collected, and its sweep is reverted. -/
def sweptInVain : List (Errand Api World PayInRequest) :=
  collect World.sampleId "inv-1" sampleDeposit "0x02" "0x01" ++
    [sweep World.sampleId none, .env (revert sampleDeposit "0x01" 1000000)]

/-- The first pay-in is swept when a part of it has arrived, and confirmed when the rest has. -/
def sweptEarly : List (Errand Api World PayInRequest) :=
  [visit (.createPayIn (sampleDto .derivedAddress) .sample), .env (receive sampleDeposit "0x02" 400000),
    sweep World.sampleId none, .env (succeed sampleDeposit "0x01" 400000),
    .env (receive sampleDeposit "0x03" 600000), visit (.reconcilePayIn World.sampleId .sample)]

/-- None of the conditions can be dropped: a sweep of a part, a sweep that is reverted, and a sweep before the
    rest arrives each leave counted tokens that are forgotten. -/
theorem forgotten :
    (∃ w, (sparing collectingDeployment).Visits (serve collectingDeployment)
      (fun w q w' => isSweep q = true ∨ Careful collectingDeployment w q w')
      (.fresh fuelledChain 0 World.sampleId sampleNonce) w ∧ ¬NotForgotten collectingDeployment w) ∧
    (∃ w, (collecting collectingDeployment fun _ _ => True).Visits (serve collectingDeployment)
      (Careful collectingDeployment) (.fresh fuelledChain 0 World.sampleId sampleNonce) w ∧
        ¬NotForgotten collectingDeployment w) ∧
    ∃ w, (sparing collectingDeployment).Visits (serve collectingDeployment)
      (fun w q w' => isReconciliation q = true ∨ Careful collectingDeployment w q w')
      (.fresh fuelledChain 0 World.sampleId sampleNonce) w ∧ ¬NotForgotten collectingDeployment w := by
  have first : sampleDeposit ∈ [sampleDeposit, secondDeposit] := List.mem_cons_self
  refine ⟨?_, ?_, ?_⟩
  · refine exists_forgotten (fun w q w' => isSweep q || unhurried w q w') partlySwept
      (fun w q w' met => (Bool.or_eq_true_iff.1 met).imp_right careful_of_unhurried) (fun f mem w => ?_)
      (by decide +kernel)
    rcases List.mem_append.1 mem with mem | mem
    · exact moves_collect first mem w
    · exact eq_of_mem_sweep mem ▸ env_succeed first w
  · refine exists_forgotten unhurried sweptInVain (fun w q w' => careful_of_unhurried)
      (fun f mem w => ?_) (by decide +kernel)
    rcases List.mem_append.1 mem with mem | mem
    · exact moves_collect first mem w
    · exact eq_of_mem_sweep mem ▸ env_revert (fun _ _ => trivial) w
  · refine exists_forgotten (fun w q w' => isReconciliation q || unhurried w q w') sweptEarly
      (fun w q w' met => (Bool.or_eq_true_iff.1 met).imp_right careful_of_unhurried) (fun f mem w => ?_)
      (by decide +kernel)
    simp only [sweptEarly, sweep, visit, List.mem_cons, List.not_mem_nil, Errand.env.injEq, reduceCtorEq,
      false_or, or_false] at mem
    rcases mem with rfl | rfl | rfl
    · exact env_receive first w
    · exact env_succeed first w
    · exact env_receive first w

/-- Two pay-ins are collected, and the first one is swept before the second is created. -/
def sweptInTurn : List (Errand Api World PayInRequest) :=
  collect World.sampleId "inv-1" sampleDeposit "0x02" "0x01" ++
    ([sweep World.sampleId none, .env (succeed sampleDeposit "0x01" 1000000)] ++
      collect otherId "inv-2" secondDeposit "0x03" "0x04")

/-- A pay-in that has been swept, and one that is still to be swept and is not forgotten. -/
theorem not_forgotten_of_sweptInTurn : ∃ w, (sparing collectingDeployment).Visits (serve collectingDeployment)
    (Careful collectingDeployment) (.fresh fuelledChain 0 World.sampleId sampleNonce) w ∧
      (∃ r ∈ w.payins.rows, Derived r ∧ r.status = .confirmed ∧ Swept r ∧ held collectingDeployment w r = 0) ∧
        ∃ r ∈ w.payins.rows, Derived r ∧ 0 < held collectingDeployment w r ∧ InSweepQueue w r := by
  obtain ⟨w, session, res⟩ := visits_of_endOf (Spares collectingDeployment) unhurried sweptInTurn
    (fun w => (w.payins.rows.any fun r => decide (r.collectionMode = .derivedAddress ∧
      r.status = .confirmed ∧ Swept r ∧ quickHeld w r = 0)) && w.payins.rows.any (awaits false w))
    (fun w q w' => careful_of_unhurried) (fun f mem w => by
      rcases List.mem_append.1 mem with mem | mem
      · exact moves_collect List.mem_cons_self mem w
      · rcases List.mem_append.1 mem with mem | mem
        · exact eq_of_mem_sweep mem ▸ env_succeed List.mem_cons_self w
        · exact moves_collect (List.mem_cons_of_mem _ List.mem_cons_self) mem w)
    (by decide +kernel)
  obtain ⟨swept, awaits⟩ := Bool.and_eq_true_iff.1 res
  obtain ⟨r, mem, holds⟩ := List.any_eq_true.1 swept
  obtain ⟨own, confirmed, swept, none⟩ := of_decide_eq_true holds
  obtain ⟨r', mem', holds⟩ := List.any_eq_true.1 awaits
  obtain ⟨own', confirmed', mined, some, -⟩ := of_decide_eq_true holds
  rw [quickHeld_eq] at none some
  have kept := not_forgotten ⟨by decide, le_rfl⟩ (fun _ _ _ _ => rfl) session
  exact ⟨w, session, ⟨r, mem, own, confirmed, swept, none⟩, r', mem', own', some,
    kept r' mem' own' confirmed' (fun s sent _ => mined s sent) some⟩

end AvaSettle.Payins.Custody
