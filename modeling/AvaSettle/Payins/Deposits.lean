import Mathlib.Algebra.Order.BigOperators.Group.List
import Mathlib.Data.List.Perm.Subperm
import AvaSettle.Async.Session
import AvaSettle.Model.Frame
import AvaSettle.Payins.Runs
import AvaSettle.Payins.Sweeps

/-!
# Tokens at the deposit addresses

The chain as far as it holds what the pay-ins collect. Tokens arrive at a deposit address by transfers of
others, which show as logs, and they leave it by the sweeps that the services have sent, since nobody else has
its key. A sweep that has been sent is mined at some time, and then it succeeds or it is reverted. What has
arrived, what has left and what is on its way are read off the logs, the transactions and their receipts.
-/

namespace AvaSettle.Payins.Custody
open Async
open Data (Table)
open Blockchain
open Sweeps (Derived Swept)

/-! ## Sums -/

section
variable {α κ : Type} {key : α → κ} {f g : α → Nat} {l l' : List α} {a : α}

/-- Sums that differ in one element. -/
lemma sum_add_of_same (nodup : (l.map key).Nodup) (mem : a ∈ l)
    (same : ∀ b ∈ l, key b ≠ key a → f b = g b) : (l.map f).sum + g a = (l.map g).sum + f a := by
  obtain ⟨before, after, rfl⟩ := List.append_of_mem mem
  simp only [List.map_append, List.map_cons, List.nodup_append, List.nodup_cons, List.mem_map,
    List.mem_cons] at nodup
  have front : before.map f = before.map g := List.map_congr_left fun b here =>
    same b (by simp [here]) (nodup.2.2 _ ⟨b, here, rfl⟩ _ (.inl rfl))
  have back : after.map f = after.map g := List.map_congr_left fun b here =>
    same b (by simp [here]) fun eq => nodup.2.1.1 ⟨b, here, eq⟩
  simp only [List.map_append, List.map_cons, List.sum_append, List.sum_cons, front, back]
  omega

/-- A sum of different elements of a list. -/
lemma sum_le_of_subset (nodup : l.Nodup) (inside : l ⊆ l') : (l.map f).sum ≤ (l'.map f).sum := by
  obtain ⟨middle, perm, sublist⟩ := nodup.subperm inside
  rw [← (perm.map f).sum_eq]
  exact (sublist.map f).sum_le_sum fun _ _ => Nat.zero_le _

/-- A sum of what is less. -/
lemma sum_map_le (le : ∀ b ∈ l, f b ≤ g b) : (l.map f).sum ≤ (l.map g).sum :=
  List.sum_le_sum le

end

/-! ## What arrives and what leaves -/

/-- The address is one that a pay-in can have. -/
def IsDeposit (d : Deployment) (a : Hex) : Prop := ∃ index, derivePayInAddress d index = .ok a

/-- The token is that of an asset. -/
def IsToken (d : Deployment) (token : Hex) : Prop := ∃ asset, (d.getAssetConfig asset).address = some token

/-- The tokens that have arrived at an address. -/
def arrived (c : Chain) (token a : Hex) : Nat :=
  ((c.transferLogs.filter (isTransfer token a)).map TransferLog.value).sum

/-- The tokens that a transaction takes from an address when it succeeds. -/
def takes (token a : Hex) (s : Submission) : Nat :=
  match s.tx with
  | .transfer t _ amount => if sameHex t token && sameHex s.account a then amount else 0
  | _ => 0

/-- The tokens that the transactions take from an address whose receipts are of a kind. -/
def taken (kind : Option Receipt → Bool) (w : World) (token a : Hex) : Nat :=
  (w.submissions.map fun s => if kind (w.chain.receipts s.hash) then takes token a s else 0).sum

/-- The transaction has succeeded. -/
def succeeded : Option Receipt → Bool
  | some receipt => decide (receipt.status = .success)
  | none => false

/-- The transaction has succeeded, or it is on its way. -/
def unreverted : Option Receipt → Bool
  | some receipt => decide (receipt.status = .success)
  | none => true

/-- The tokens that have left an address. -/
abbrev departed : World → Hex → Hex → Nat := taken succeeded

/-- The tokens that have left an address, with those that sweeps on their way will take. -/
abbrev outgoing : World → Hex → Hex → Nat := taken unreverted

section
variable {w w' : World} {token a : Hex} {kind : Option Receipt → Bool} {s : Submission}

/-- What has left is a part of what is outgoing. -/
lemma departed_le_outgoing : departed w token a ≤ outgoing w token a := by
  refine sum_map_le fun s _ => ?_
  cases rc : w.chain.receipts s.hash with
  | none => simp [succeeded]
  | some receipt => exact le_rfl

/-- Sums over the same transactions and receipts are the same. -/
lemma taken_congr (submissions : w'.submissions = w.submissions)
    (receipts : w'.chain.receipts = w.chain.receipts) : taken kind w' token a = taken kind w token a := by
  rw [taken, submissions, receipts, taken]

/-- A transaction that is sent adds what it takes. -/
lemma taken_submit (submissions : w'.submissions = w.submissions ++ [s]) (chain : w'.chain = w.chain) :
    taken kind w' token a =
      taken kind w token a + if kind (w.chain.receipts s.hash) then takes token a s else 0 := by
  simp [taken, submissions, chain]

/-- A transaction that is mined counts as its receipt says. -/
lemma taken_mined {receipt : Receipt} (nodup : (w.submissions.map Submission.hash).Nodup)
    (sent : s ∈ w.submissions) (submissions : w'.submissions = w.submissions)
    (receipts : w'.chain.receipts = Function.update w.chain.receipts s.hash (some receipt)) :
    taken kind w' token a + (if kind (w.chain.receipts s.hash) then takes token a s else 0) =
      taken kind w token a + if kind (some receipt) then takes token a s else 0 := by
  have sums := sum_add_of_same (f := fun s => if kind (w'.chain.receipts s.hash) then takes token a s else 0)
    (g := fun s => if kind (w.chain.receipts s.hash) then takes token a s else 0) nodup sent fun b _ ne => by
      rw [receipts, Function.update_of_ne ne]
  rw [receipts, Function.update_self] at sums
  rw [taken, submissions, receipts, taken]
  exact sums

end

/-! ## The pay-ins -/

/-- The token of the asset of a pay-in. -/
def tokenOf (d : Deployment) (r : PayInRecord) : Option Hex := (d.getAssetConfig r.asset).address

/-- How many of the tokens that a pay-in has counted are still at its address: what has been received, less
    what has left. -/
def held (d : Deployment) (w : World) (r : PayInRecord) : Nat :=
  match tokenOf d r with
  | none => 0
  | some token => r.receivedAmountAtomic -
      (arrived w.chain token r.depositAddress - w.chain.balanceOf token r.depositAddress)

/-- A row of the sweep queue. -/
structure SweepQueueItem where
  id : Uuid
  clientId : Option String
  externalId : String
  depositAddress : Hex
  asset : SettlementAsset
  receivedAmount : String
  receivedAmountAtomic : Nat
  sweepStatus : PayInSweepStatus
  sweepFailureReason : Option String
  confirmedAt : Option Timestamp

/-- The sweep queue of all clients. -/
structure SweepQueueReport where
  generatedAt : Timestamp
  count : Nat
  items : List SweepQueueItem

/-- The item of a pay-in. -/
def sweepQueueItem (r : PayInRecord) : SweepQueueItem :=
  ⟨r.id, r.clientId, r.externalId, r.depositAddress, r.asset, r.receivedAmount, r.receivedAmountAtomic,
    r.sweepStatus, r.sweepFailureReason, r.confirmedAt⟩

/-- `ORDER BY confirmed_at ASC NULLS LAST`. -/
def confirmedLe (r r' : PayInRecord) : Bool :=
  match r.confirmedAt, r'.confirmedAt with
  | some s, some t => decide (s ≤ t)
  | _, none => true
  | none, some _ => false

/-- `getSweepQueue`. -/
def getSweepQueue (w : World) : SweepQueueReport :=
  let rows := w.payins.select fun r =>
    decide (r.status = .confirmed ∧ (r.sweepStatus = .pending ∨ r.sweepStatus = .failed))
  let items := (rows.mergeSort confirmedLe).map sweepQueueItem
  ⟨w.now, items.length, items⟩

/-- The pay-in is still to be swept: `getSweepQueue` lists it, so does `listSweepRetryCandidates` once it has
    been left alone for the cool-down, and `sweepPayIn` does not take it for swept. -/
structure InSweepQueue (w : World) (r : PayInRecord) : Prop where
  listed : sweepQueueItem r ∈ (getSweepQueue w).items
  retried : ∀ minutes, r.updatedAt + minutes * 60000 < w.now →
    r ∈ w.sweepCandidates w.payins.rows.length minutes
  unswept : ¬Swept r

/-- A confirmed pay-in whose sweep is pending or has failed is still to be swept. -/
lemma inSweepQueue_of_mem {w : World} {r : PayInRecord} (mem : r ∈ w.payins.rows)
    (confirmed : r.status = .confirmed) (sweep : r.sweepStatus = .pending ∨ r.sweepStatus = .failed) : InSweepQueue w r where
  listed := by
    refine List.mem_map_of_mem (List.mem_mergeSort.2 (List.mem_filter.2 ⟨mem, ?_⟩))
    exact decide_eq_true ⟨confirmed, sweep⟩
  retried minutes old := by
    have sorted (le : PayInRecord → PayInRecord → Prop) (dec : DecidableRel le) (rows : List PayInRecord) :
        (rows.insertionSort le).Perm rows := List.perm_insertionSort le rows
    unfold World.sweepCandidates
    refine (congrArg (r ∈ ·) (List.take_of_length_le ?_)).mpr
      ((sorted _ _ _).mem_iff.2 (List.mem_filter.2 ⟨mem, ?_⟩))
    · exact (sorted _ _ _).length_eq.trans_le (List.length_filter_le _ _)
    · simp [confirmed, sweep, old]
  unswept swept := by
    rcases swept with eq | eq
    · rw [eq] at sweep
      simp at sweep
    · rw [eq] at sweep
      simp at sweep

/-- Every transaction that an address has sent is mined. -/
def AllMined (w : World) (a : Hex) : Prop :=
  ∀ s ∈ w.submissions, sameHex s.account a = true → w.chain.receipts s.hash ≠ none

/-- Collected funds are not forgotten: a confirmed pay-in whose address, once its sweeps are mined, still
    holds tokens that have been counted is in the sweep queue. -/
def NotForgotten (d : Deployment) (w : World) : Prop :=
  ∀ r ∈ w.payins.rows, Derived r → r.status = .confirmed → AllMined w r.depositAddress → 0 < held d w r →
    InSweepQueue w r

/-! ## How the chain moves -/

/-- A transfer log is added, and the tokens move. -/
structure Moves (d : Deployment) (l : TransferLog) (c c' : Chain) : Prop where
  logs : c'.transferLogs = c.transferLogs ++ [l]
  balances : ∀ token a, IsToken d token → IsDeposit d a →
    c'.balanceOf token a + (if sameHex l.address token && sameHex l.from a then l.value else 0) =
      c.balanceOf token a + if isTransfer token a l then l.value else 0

/-- No tokens move. -/
structure Rests (c c' : Chain) : Prop where
  logs : c'.transferLogs = c.transferLogs
  balances : c'.balanceOf = c.balanceOf

/-- What may happen on the chain, where `reverts` says which sweeps may be reverted. The pay-in services send
    no transactions but sweeps and gas. -/
inductive Occurs (d : Deployment) (reverts : World → Submission → Prop) (w : World) (c : Chain) : Prop where
  /-- Nothing happens to the tokens and to the transactions. -/
  | passes (rests : Rests w.chain c) (receipts : c.receipts = w.chain.receipts)
  /-- Somebody who has not the key of a deposit address sends tokens. -/
  | arrives {l : TransferLog} (other : ∀ a, IsDeposit d a → sameHex l.from a = false)
      (moves : Moves d l w.chain c) (receipts : c.receipts = w.chain.receipts)
  /-- A sweep is mined, and succeeds. -/
  | swept {s : Submission} {l : TransferLog} {receipt : Receipt} {amount : Nat} (sent : s ∈ w.submissions)
      (waiting : w.chain.receipts s.hash = none) (success : receipt.status = .success)
      (tx : s.tx = .transfer l.address l.to amount) (account : l.from = s.account) (value : l.value = amount)
      (moves : Moves d l w.chain c)
      (receipts : c.receipts = Function.update w.chain.receipts s.hash (some receipt))
  /-- A sweep is mined, and reverted. -/
  | reverted {s : Submission} {receipt : Receipt} (sent : s ∈ w.submissions)
      (waiting : w.chain.receipts s.hash = none) (failure : receipt.status = .reverted) (may : reverts w s)
      (rests : Rests w.chain c)
      (receipts : c.receipts = Function.update w.chain.receipts s.hash (some receipt))
  /-- Gas is mined. -/
  | fuelled {s : Submission} {receipt : Receipt} {recipient : Hex} {wei : Nat} (sent : s ∈ w.submissions)
      (waiting : w.chain.receipts s.hash = none) (tx : s.tx = .native recipient wei) (rests : Rests w.chain c)
      (receipts : c.receipts = Function.update w.chain.receipts s.hash (some receipt))

/-- No operation fails, and the hash of a transaction is new. -/
def Smooth (w : World) (e : Event Api) : Prop :=
  e.Faultless World.exec w ∧ ∀ account tx payouts, e.op = .submit account tx payouts →
    w.chain.receipts w.chain.nextHash = none ∧ ∀ s ∈ w.submissions, s.hash ≠ w.chain.nextHash

/-- The pay-in services of a deployment over a chain that moves tokens. -/
def collecting (d : Deployment) (reverts : World → Submission → Prop) : Machine Api World where
  exec := World.exec
  raises := Call.raises
  env w w' := World.Env Advances w w' ∧ Occurs d reverts w w'.chain
  entry := Entry d
  allowed _ := Smooth

/-! ## The balance of an address -/

/-- What is at a deposit address is what has arrived and has not left, and each transaction has its hash. -/
structure Balanced (d : Deployment) (w : World) : Prop where
  balance : ∀ token a, IsToken d token → IsDeposit d a →
    w.chain.balanceOf token a + departed w token a = arrived w.chain token a
  hashes : (w.submissions.map Submission.hash).Nodup

section
variable {d : Deployment} {reverts : World → Submission → Prop} {w w' : World} {c : Chain} {token a : Hex}
  {l : TransferLog} {r : PayInRecord}

/-- A log that is added counts where it arrives. -/
lemma Moves.arrived (moves : Moves d l w.chain c) :
    Custody.arrived c token a =
      Custody.arrived w.chain token a + if isTransfer token a l then l.value else 0 := by
  rw [Custody.arrived, moves.logs, List.filter_append, List.map_append, List.sum_append, Custody.arrived]
  congr 1
  rw [List.filter_singleton]
  split
  case isTrue here => simp [here]
  case isFalse there => simp [there]

/-- Where no tokens move, none arrive. -/
lemma Rests.arrived (rests : Rests w.chain c) :
    Custody.arrived c token a = Custody.arrived w.chain token a := by
  rw [Custody.arrived, rests.logs, Custody.arrived]

/-- What has arrived has arrived. -/
lemma arrived_le (occurs : Occurs d reverts w c) : arrived w.chain token a ≤ arrived c token a := by
  cases occurs with
  | passes rests => exact rests.arrived.ge
  | arrives _ moves => exact moves.arrived ▸ Nat.le_add_right _ _
  | swept _ _ _ _ _ _ moves => exact moves.arrived ▸ Nat.le_add_right _ _
  | reverted _ _ _ _ rests => exact rests.arrived.ge
  | fuelled _ _ _ rests => exact rests.arrived.ge

/-- What has left has left. -/
lemma departed_le (hashes : (w.submissions.map Submission.hash).Nodup)
    (submissions : w'.submissions = w.submissions) (occurs : Occurs d reverts w w'.chain) :
    departed w token a ≤ departed w' token a := by
  have mined {s : Submission} {receipt : Receipt} (sent : s ∈ w.submissions)
      (waiting : w.chain.receipts s.hash = none)
      (receipts : w'.chain.receipts = Function.update w.chain.receipts s.hash (some receipt)) :
      departed w token a ≤ departed w' token a := by
    have sums : departed w' token a + (if succeeded (w.chain.receipts s.hash) then takes token a s else 0) =
        departed w token a + _ := taken_mined hashes sent submissions receipts
    simp only [waiting, succeeded, Bool.false_eq_true, if_false] at sums
    omega
  cases occurs with
  | passes _ receipts => exact (taken_congr submissions receipts).ge
  | arrives _ _ receipts => exact (taken_congr submissions receipts).ge
  | swept sent waiting _ _ _ _ _ receipts => exact mined sent waiting receipts
  | reverted sent waiting _ _ _ receipts => exact mined sent waiting receipts
  | fuelled sent waiting _ _ receipts => exact mined sent waiting receipts

/-- What is outgoing stays so, but for what a sweep was to take that is reverted. -/
lemma outgoing_le (hashes : (w.submissions.map Submission.hash).Nodup)
    (submissions : w'.submissions = w.submissions) (occurs : Occurs d reverts w w'.chain) :
    outgoing w token a ≤ outgoing w' token a ∨ ∃ s, reverts w s ∧ sameHex s.account a = true := by
  have mined {s : Submission} {receipt : Receipt} (sent : s ∈ w.submissions)
      (waiting : w.chain.receipts s.hash = none)
      (receipts : w'.chain.receipts = Function.update w.chain.receipts s.hash (some receipt)) :
      outgoing w' token a + takes token a s =
        outgoing w token a + if unreverted (some receipt) then takes token a s else 0 := by
    have sums : outgoing w' token a + (if unreverted (w.chain.receipts s.hash) then takes token a s else 0) =
        outgoing w token a + _ := taken_mined hashes sent submissions receipts
    rwa [waiting] at sums
  cases occurs with
  | passes _ receipts => exact .inl (taken_congr submissions receipts).ge
  | arrives _ _ receipts => exact .inl (taken_congr submissions receipts).ge
  | swept sent waiting success _ _ _ _ receipts =>
    have sums := mined sent waiting receipts
    simp only [unreverted, success, decide_true, if_true] at sums
    exact .inl (by omega)
  | @reverted s receipt sent waiting failure may _ receipts =>
    by_cases here : sameHex s.account a = true
    · exact .inr ⟨s, may, here⟩
    · have sums := mined sent waiting receipts
      have nothing : takes token a s = 0 := by
        unfold takes
        split
        case h_1 => simp [here]
        case h_2 => rfl
      rw [nothing] at sums
      exact .inl (by omega)
  | @fuelled s receipt recipient wei sent waiting tx _ receipts =>
    have sums := mined sent waiting receipts
    have nothing : takes token a s = 0 := by rw [takes, tx]
    rw [nothing] at sums
    exact .inl (by omega)

/-- The balances stay right. -/
lemma Balanced.occurs (balanced : Balanced d w) (submissions : w'.submissions = w.submissions)
    (occurs : Occurs d reverts w w'.chain) : Balanced d w' := by
  have hashes : (w'.submissions.map Submission.hash).Nodup := submissions ▸ balanced.hashes
  refine ⟨fun token a ours own => ?_, hashes⟩
  have before := balanced.balance token a ours own
  have mined {s : Submission} {receipt : Receipt} (sent : s ∈ w.submissions)
      (waiting : w.chain.receipts s.hash = none)
      (receipts : w'.chain.receipts = Function.update w.chain.receipts s.hash (some receipt)) :
      departed w' token a =
        departed w token a + if succeeded (some receipt) then takes token a s else 0 := by
    have sums : departed w' token a + (if succeeded (w.chain.receipts s.hash) then takes token a s else 0) =
        departed w token a + _ := taken_mined balanced.hashes sent submissions receipts
    rwa [waiting] at sums
  cases occurs with
  | passes rests receipts =>
    have left : departed w' token a = departed w token a := taken_congr submissions receipts
    rw [left, rests.arrived, rests.balances]
    exact before
  | @arrives l other moves receipts =>
    have left : departed w' token a = departed w token a := taken_congr submissions receipts
    have moved := moves.balances token a ours own
    rw [other a own, Bool.and_false, if_neg Bool.false_ne_true, Nat.add_zero] at moved
    rw [left, moves.arrived, moved]
    omega
  | @swept s l receipt amount sent waiting success tx account value moves receipts =>
    have left := mined sent waiting receipts
    have moved := moves.balances token a ours own
    have taken : takes token a s =
        if sameHex l.address token && sameHex l.from a then l.value else 0 := by
      rw [takes, tx, account, value]
    simp only [succeeded, success, decide_true, if_true, taken] at left
    rw [left, moves.arrived]
    omega
  | @reverted s receipt sent waiting failure _ rests receipts =>
    have left := mined sent waiting receipts
    simp only [succeeded, failure, reduceCtorEq, decide_false, Bool.false_eq_true, if_false] at left
    rw [left, rests.arrived, rests.balances]
    exact before
  | @fuelled s receipt recipient wei sent waiting tx rests receipts =>
    have left := mined sent waiting receipts
    have nothing : takes token a s = 0 := by rw [takes, tx]
    rw [nothing, ite_self, Nat.add_zero] at left
    rw [left, rests.arrived, rests.balances]
    exact before

/-- How many counted tokens are held is what has been received, less what has left. -/
lemma Balanced.held (balanced : Balanced d w) (own : IsDeposit d r.depositAddress)
    (asset : tokenOf d r = some token) :
    Custody.held d w r = r.receivedAmountAtomic - departed w token r.depositAddress := by
  have balance := balanced.balance token _ ⟨r.asset, asset⟩ own
  rw [Custody.held, asset]
  dsimp only
  congr 1
  omega

end

end AvaSettle.Payins.Custody
