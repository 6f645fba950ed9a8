import AvaSettle.Async.Settled
import AvaSettle.Contracts.Arguments
import AvaSettle.Contracts.SettlementVaultCover
import AvaSettle.Data.Lists
import AvaSettle.Model.Frame
import AvaSettle.Payouts.Identity
import AvaSettle.Payouts.Walk

/-!
# The checks before a vault call

Before it calls the vault the service reads the balance of the treasury signer and the allowance of the
funder. The vault takes from the funder. So whenever it would carry the call out, the allowance is enough, but
the balance that is read is that of another account: the call is sent just when the treasury signer could
have paid it as well.
-/

namespace AvaSettle.Payouts
open Async
open Blockchain
open Contracts (OpenZeppelin Recover Tokens standardTokens)
open Contracts.SettlementVault (abi contract allowance_of_payout allowance_of_payoutBatch)
open Evm (Account Msg Word invoke passive)

/-! ## Calls of the vault -/

/-- Calls whose operations are answered, where the wait for a receipt may fail. -/
def answering : Machine Api World :=
  machine (fun _ _ => True) (fun _ => True) fun _ _ e =>
    e.outcome.threw = true → ∃ hash, e.op = .waitForTransactionReceipt hash

/-- What the checks read of the chain is the same. -/
structure SameReads (c c' : Chain) : Prop where
  balanceOf : c'.balanceOf = c.balanceOf
  allowance : c'.allowance = c.allowance
  funder : c'.funder = c.funder

/-- The rest of the system leaves the payouts alone, and what the checks read of the chain. -/
structure Undisturbed (w w' : World) : Prop where
  payouts : w'.payouts = w.payouts
  reads : SameReads w.chain w'.chain

/-- The call has sent a transaction from an account. -/
def Dispatches (account : Hex) (tx : Tx) (h : Hist Api) : Prop :=
  ∃ ids hash, (⟨.submit account tx ids, .done hash⟩ : Event Api) ∈ h

/-- What a vault call needs to be made: the addresses, an account to send it from, and arguments that can be
    encoded. -/
structure Callable (d : Deployment) (asset : SettlementAsset) (vault token account : Hex)
    (payouts : List PayoutRecord) : Prop where
  vault : d.settlementVaultAddress = some vault
  token : (d.getAssetConfig asset).address = some token
  account : requireVaultOperatorAccount d = .ok account
  recipients : ∀ p ∈ payouts, d.isAddress p.beneficiaryAddress = true
  amounts : ∀ p ∈ payouts, p.amountAtomic < 2 ^ 256

section
variable {oz : OpenZeppelin}

/-- The node shows what the vault and the token hold. -/
structure Shows (c : Chain) (vault token : Hex) (s : Account (abi oz)) (ts : Tokens) : Prop where
  funder : addressOf (c.funder vault) = s.storage.funder
  balances : ∀ holder, c.balanceOf token holder = ((ts (addressOf token)).balances (addressOf holder)).toNat
  allowances : ∀ owner spender, c.allowance token owner spender =
    ((ts (addressOf token)).allowances (addressOf owner) (addressOf spender)).toNat

/-- The vault carries the call out, for standard tokens. -/
def CarriesOut (keccak256 : List Word → Word) (recover : Recover) (vault : Hex) (s : Account (abi oz))
    (ts : Tokens) (m : Msg (abi oz)) : Prop :=
  (invoke (contract keccak256) (passive (standardTokens recover (addressOf vault) m.time)) m (s, ts)).1 = .ok ()

/-- The vault call for a payout, in a block of some time. -/
def payoutCall (d : Deployment) (account token : Hex) (time : Nat) (p : PayoutRecord) : Msg (abi oz) where
  sender := addressOf account
  time := time
  call := .payout (wordOf (vaultPayoutRefFromExternalId d p.externalId)) (addressOf token)
    (addressOf p.beneficiaryAddress) (.ofNat 256 p.amountAtomic) []

/-- The vault call for a batch. -/
def batchCall (d : Deployment) (account token : Hex) (time : Nat) (payouts : List PayoutRecord) :
    Msg (abi oz) where
  sender := addressOf account
  time := time
  call := .payoutBatch (wordOf (batchRefFromExternalIds d (payouts.map PayoutRecord.externalId)))
    (addressOf token) (payouts.map fun p => addressOf p.beneficiaryAddress)
    (payouts.map fun p => .ofNat 256 p.amountAtomic) []

end

/-- The transaction that calls the vault for a payout. -/
def payoutTx (d : Deployment) (vault token : Hex) (p : PayoutRecord) : Tx :=
  .vaultPayout vault (vaultPayoutRefFromExternalId d p.externalId) token p.beneficiaryAddress p.amountAtomic "0x"

/-- The transaction that calls the vault for a batch. -/
def batchTx (d : Deployment) (vault token : Hex) (payouts : List PayoutRecord) : Tx :=
  .vaultPayoutBatch vault (batchRefFromExternalIds d (payouts.map PayoutRecord.externalId)) token
    (payouts.map PayoutRecord.beneficiaryAddress) (payouts.map PayoutRecord.amountAtomic) "0x"

/-- The treasury signer is configured and has the amount. -/
def Affords (d : Deployment) (c : Chain) (token : Hex) (amount : Nat) : Prop :=
  ∃ treasury ∈ treasuryAddress d, amount ≤ c.balanceOf token treasury

/-! ## Answered calls -/

section
variable {c : Call} {w w₁ w₂ w' : World} {h h' : Hist Api} {α β : Type}

/-- A chain reads as itself. -/
lemma SameReads.refl {c : Chain} : SameReads c c := ⟨rfl, rfl, rfl⟩

/-- Reading the same is transitive. -/
lemma SameReads.trans {c₁ c₂ c₃ : Chain} (h₁ : SameReads c₁ c₂) (h₂ : SameReads c₂ c₃) : SameReads c₁ c₃ where
  balanceOf := h₂.balanceOf.trans h₁.balanceOf
  allowance := h₂.allowance.trans h₁.allowance
  funder := h₂.funder.trans h₁.funder

/-- Runs in which nobody disturbs the call. -/
abbrev alone : Hist Api → World → World → Prop := fun _ => Undisturbed

/-- An operation that is answered. -/
lemma leads_answered {K : Outcome Exception c.Res → World → Hist Api → Prop}
    (prompt : ∀ hash, c ≠ .waitForTransactionReceipt hash)
    (done : ∀ w₁ b w₂, Undisturbed w w₁ → World.exec c w₁ = some (b, w₂) → SameReads w.chain w₂.chain →
      K (.done b) w₂ (h ++ [⟨c, .done b⟩])) : answering.Leads alone c K w h := by
  intro w₁ o w₂ move reply ok
  have answered : o.threw = false := by
    rw [← Bool.not_eq_true]
    intro threw
    obtain ⟨hash, eq⟩ := ok threw
    exact prompt hash eq
  cases o with
  | done b =>
    have chain : w₂.chain = w₁.chain := (World.exec_frame reply).chain
    exact done w₁ b w₂ move reply (chain ▸ move.reads)
  | refused e => cases answered
  | lost b e => cases answered

/-- A call that has sent a transaction has sent it. -/
lemma wp_after {p : Method α} {account : Hex} {tx : Tx} (sent : Dispatches account tx h) :
    answering.wp alone p (fun _ _ h' => Dispatches account tx h') w h := by
  refine Machine.wp_mono (fun _ w' h' post => ?_)
    (Machine.wp_of_keeps (fun _ _ _ _ _ => trivial) trivial Machine.keeps_trivial)
  obtain ⟨ids, hash, mem⟩ := sent
  exact ⟨ids, hash, post.2.1.subset mem⟩

/-- The transaction is sent. -/
lemma wp_dispatch {k : Hex → Method α} {account : Hex} {tx : Tx} {ids : List Uuid} :
    answering.wp alone (request (.submit account tx ids) >>= k) (fun _ _ h' => Dispatches account tx h') w h := by
  refine Machine.wp_bind (Machine.wp_await (leads_answered nofun fun w₁ hash w₂ _ _ _ => ?_))
  exact wp_after ⟨ids, hash, List.mem_append_right _ (List.mem_singleton_self _)⟩

/-- Two undisturbed moves are one. -/
lemma Undisturbed.trans (h₁ : Undisturbed w w₁) (h₂ : Undisturbed w₁ w₂) : Undisturbed w w₂ where
  payouts := h₂.payouts.trans h₁.payouts
  reads := h₁.reads.trans h₂.reads

/-- Nothing has been sent. -/
def Silent (h : Hist Api) : Prop := ∀ e ∈ h, ∀ account tx ids, e.op ≠ .submit account tx ids

/-- The operation sends no transaction. -/
def Sendless (c : Call) : Prop := ∀ account tx ids, c ≠ .submit account tx ids

/-- A call stays silent with an operation that sends nothing. -/
lemma silent_append {o : Outcome Exception c.Res} (silent : Silent h) (sendless : Sendless c) :
    Silent (h ++ [⟨c, o⟩]) := by
  intro e mem
  rcases List.mem_append.1 mem with before | last
  · exact silent e before
  · obtain rfl := List.mem_singleton.1 last
    exact sendless

/-- A program without transactions sends none. -/
lemma wp_silent {q : Method α} (uses : q.Uses Sendless fun _ => True) (silent : Silent h) :
    answering.wp alone q (fun _ _ h' => Silent h') w h :=
  Machine.wp_uses (R := fun _ h => Silent h)
    (fun _ _ _ sendless silent _ _ _ _ _ _ => silent_append silent sendless) uses silent

/-! ## The checks -/

variable {d : Deployment} {asset : SettlementAsset} {vault token account : Hex} {amount : Nat}

/-- The balance that is read is that of the treasury signer. -/
lemma wp_getAssetBalance {Q : End Api World TreasuryBalance}
    (configured : (d.getAssetConfig asset).address = some token) (silent : Silent h)
    (read : ∀ treasury balance w' h', treasuryAddress d = some treasury →
      balance.balanceAtomic = w.chain.balanceOf token treasury → Undisturbed w w' → Silent h' →
        Q (.ok balance) w' h')
    (unsigned : treasuryAddress d = none → ∀ e, Q (.error e) w h) :
    answering.wp alone (getAssetBalance d asset) Q w h := by
  unfold getAssetBalance
  refine Machine.wp_bind (Machine.wp_ofExcept.2 ?_)
  unfold requireTreasuryAddress
  cases signer : treasuryAddress d with
  | none => exact unsigned signer _
  | some treasury =>
    refine Machine.wp_bind (Machine.wp_ofExcept.2 ?_)
    rw [requireAsset, configured]
    refine Machine.wp_bind (Machine.wp_await (leads_answered nofun fun w₁ balance w₂ move run _ => ?_))
    cases run
    exact read treasury _ _ _ signer (congrFun (congrFun move.reads.balanceOf token) treasury) move
      (silent_append silent nofun)

/-- The allowance that is read is that of the funder. -/
lemma wp_ensureVaultAllowance {Q : End Api World Unit}
    (covered : amount ≤ w.chain.allowance token (w.chain.funder vault) vault) (ok : ∀ w' h', Q (.ok ()) w' h') :
    answering.wp alone (ensureVaultAllowance vault token amount) Q w h := by
  unfold ensureVaultAllowance
  refine Machine.wp_bind (Machine.wp_await (leads_answered nofun fun w₁ funder w₂ move run _ => ?_))
  cases run
  refine Machine.wp_bind (Machine.wp_await (leads_answered nofun fun w₃ allowance w₄ move' run _ => ?_))
  cases run
  refine Machine.wp_require (fun _ => ok _ _) fun short => absurd ?_ short
  rw [move'.reads.allowance, move.reads.allowance, move.reads.funder]
  exact covered

/-- The call of a vault whose allowance is enough is sent. -/
lemma wp_vaultPayout_sent {p : PayoutRecord} {ids : List Uuid}
    (callable : Callable d asset vault token account [p])
    (covered : p.amountAtomic ≤ w.chain.allowance token (w.chain.funder vault) vault) :
    answering.wp alone (vaultPayout d asset (vaultPayoutRefFromExternalId d p.externalId) p.beneficiaryAddress
      p.amountAtomic ids) (fun _ _ h' => Dispatches account (payoutTx d vault token p) h') w h := by
  unfold vaultPayout
  have recipient := callable.recipients p (List.mem_singleton_self p)
  refine Machine.wp_bind (Machine.wp_require (fun _ => ?_) (absurd recipient))
  refine Machine.wp_bind (Machine.wp_ofExcept.2 ?_)
  rw [requireVaultAddress, callable.vault]
  refine Machine.wp_bind (Machine.wp_ofExcept.2 ?_)
  rw [requireAsset, callable.token]
  refine Machine.wp_bind (wp_ensureVaultAllowance covered fun w' h' => ?_)
  refine Machine.wp_bind (Machine.wp_ofExcept.2 ?_)
  rw [callable.account]
  exact wp_dispatch

/-- Valid addresses pass. -/
lemma requireAddresses_ok {recipients : List Hex} (valid : ∀ a ∈ recipients, d.isAddress a = true) :
    requireAddresses d recipients = .ok () := by
  induction recipients with
  | nil => rfl
  | cons a recipients ih =>
    rw [requireAddresses, if_pos (valid a List.mem_cons_self)]
    exact ih fun b mem => valid b (List.mem_cons_of_mem _ mem)

/-- So is the call for a batch. -/
lemma wp_vaultPayoutBatch_sent {ps : List PayoutRecord} {ids : List Uuid}
    (callable : Callable d asset vault token account ps)
    (covered : (ps.map PayoutRecord.amountAtomic).sum ≤ w.chain.allowance token (w.chain.funder vault) vault) :
    answering.wp alone (vaultPayoutBatch d asset (batchRefFromExternalIds d (ps.map PayoutRecord.externalId))
      (ps.map PayoutRecord.beneficiaryAddress) (ps.map PayoutRecord.amountAtomic) ids)
      (fun _ _ h' => Dispatches account (batchTx d vault token ps) h') w h := by
  unfold vaultPayoutBatch
  refine Machine.wp_bind (Machine.wp_ofExcept.2 ?_)
  rw [requireVaultAddress, callable.vault]
  refine Machine.wp_bind (Machine.wp_ofExcept.2 ?_)
  rw [requireAsset, callable.token]
  refine Machine.wp_bind (Machine.wp_ofExcept.2 ?_)
  rw [requireAddresses_ok (List.forall_mem_map.2 callable.recipients)]
  refine Machine.wp_bind (wp_ensureVaultAllowance covered fun w' h' => ?_)
  refine Machine.wp_bind (Machine.wp_ofExcept.2 ?_)
  rw [callable.account]
  exact wp_dispatch

/-! ## One payout -/

variable {id : Uuid} {p : PayoutRecord} {now : Timestamp} {dto : AuthorizePayoutDto} {context : RequestContext}

/-- A payout that is there is found. -/
lemma wp_requirePayout_found {Q : End Api World PayoutRecord} (found : w.findPayout id context.clientId = some p)
    (silent : Silent h) (ok : ∀ w' h', Undisturbed w w' → Silent h' → Q (.ok p) w' h') :
    answering.wp alone (requirePayout id context) Q w h := by
  refine Machine.wp_bind (Machine.wp_await (leads_answered nofun fun w₁ row w₂ move run _ => ?_))
  cases run
  have same : w₁.findPayout id context.clientId = some p := by
    rw [← found, World.findPayout, move.payouts, World.findPayout]
  refine Machine.wp_ofExcept.2 ?_
  rw [same]
  exact ok _ _ move (silent_append silent nofun)

/-- A payout that is prepared is claimed, and no other row is written. -/
lemma leads_claim {K : Outcome Exception (Option PayoutRecord) → World → Hist Api → Prop}
    (found : w.payouts.find? id = some p) (prepared : p.status = .prepared)
    (claimed : ∀ t w' o, (∀ id', id' ≠ id → w'.payouts.find? id' = w.payouts.find? id') →
      SameReads w.chain w'.chain →
        K (.done (some ((claimPatch now).applyTo t p))) w'
          (h ++ [⟨.payoutUpdate id (claimPatch now) (some [.prepared]), o⟩])) :
    answering.Leads alone (.payoutUpdate id (claimPatch now) (some [.prepared])) K w h := by
  refine leads_answered nofun fun w₁ row w₂ move run reads => ?_
  have same : w₁.updatePayout id (claimPatch now) (some [.prepared]) = (row, w₂) := Option.some.inj run
  have left : (w₁.updatePayout id (claimPatch now) (some [.prepared])).2 = w₂ := by rw [same]
  have written : (w₁.updatePayout id (claimPatch now) (some [.prepared])).1 =
      some ((claimPatch now).applyTo w₁.now p) := by
    change ((w₁.payouts.find? id).filter _).map _ = _
    rw [move.payouts, found, Option.filter_some, if_pos (by simp [prepared])]
    rfl
  rw [same] at written
  cases written
  refine claimed w₁.now _ _ (fun id' other => ?_) reads
  rw [← left]
  change (w₁.payouts.update id _ _).2.find? id' = _
  rw [Data.Table.find?_update, move.payouts]
  cases w.payouts.find? id' with
  | none => rfl
  | some r => simp [other]

/-- An authorization comes to its transfer, with the payout claimed. -/
lemma wp_authorizePayout_prepared {Q : End Api World PayoutResponse}
    (found : w.findPayout id context.clientId = some p) (prepared : p.status = .prepared) (silent : Silent h)
    (execute : ∀ now t w' h', SameReads w.chain w'.chain → Silent h' →
      answering.wp alone ((executePayout d id now dto context ((claimPatch now).applyTo t p)).tryCatch
        (handlePayoutError id dto context) >>= fun updated =>
          Prog.orThrow (.error "Cannot read properties of null (reading 'id')") updated >>= fun updated =>
            toResponse updated) Q w' h') :
    answering.wp alone (authorizePayout d id dto context) Q w h := by
  unfold authorizePayout
  refine Machine.wp_bind (wp_requirePayout_found found silent fun w₁ h₁ move silent => ?_)
  have unpaid : ¬(p.status = .broadcasted ∨ p.status = .confirmed) := by simp [prepared]
  simp only [if_neg unpaid]
  refine Machine.wp_bind (Machine.wp_await (leads_answered nofun fun w₂ now w₃ move' run _ => ?_))
  cases run
  have there : w₂.payouts.find? id = some p := by
    rw [move'.payouts, move.payouts]
    exact (Option.filter_eq_some_iff.1 found).1
  refine Machine.wp_bind (Machine.wp_await (leads_claim there prepared fun t w₄ o _ reads => ?_))
  refine Machine.wp_bind (Machine.wp_await (leads_answered nofun fun w₅ _ w₆ _ run reads' => ?_))
  refine execute _ _ _ _ ((move.trans move').reads.trans (reads.trans reads')) ?_
  exact silent_append (silent_append (silent_append silent nofun) nofun) nofun

/-- A payout as it has been claimed. -/
def ClaimOf (now : Timestamp) (p c : PayoutRecord) : Prop := ∃ t, c = (claimPatch now).applyTo t p

/-- A claim leaves alone what is paid to whom. -/
lemma map_claimed {T : Type} {f : PayoutRecord → T} {ps cs : List PayoutRecord}
    (same : ∀ t p, f ((claimPatch now).applyTo t p) = f p) (claimed : List.Forall₂ (ClaimOf now) ps cs) :
    cs.map f = ps.map f := by
  induction claimed with
  | nil => rfl
  | cons head _ ih =>
    obtain ⟨t, rfl⟩ := head
    rw [List.map_cons, List.map_cons, same, ih]

/-- What can be sent for some payouts can be sent for them once they have been claimed. -/
lemma Callable.claimed {ps cs : List PayoutRecord} (callable : Callable d asset vault token account ps)
    (claimed : List.Forall₂ (ClaimOf now) ps cs) : Callable d asset vault token account cs where
  vault := callable.vault
  token := callable.token
  account := callable.account
  recipients := by
    have valid : ∀ a ∈ ps.map PayoutRecord.beneficiaryAddress, d.isAddress a = true :=
      List.forall_mem_map.2 callable.recipients
    rw [← map_claimed (fun _ _ => rfl) claimed] at valid
    exact List.forall_mem_map.1 valid
  amounts := by
    have valid : ∀ n ∈ ps.map PayoutRecord.amountAtomic, n < 2 ^ 256 :=
      List.forall_mem_map.2 callable.amounts
    rw [← map_claimed (fun _ _ => rfl) claimed] at valid
    exact List.forall_mem_map.1 valid

/-- With a balance of the treasury signer that is enough, the payout is sent. -/
lemma wp_executePayout_sent {t : Timestamp} (callable : Callable d p.asset vault token account [p])
    (covered : p.amountAtomic ≤ w.chain.allowance token (w.chain.funder vault) vault) (silent : Silent h)
    (affords : Affords d w.chain token p.amountAtomic) :
    answering.wp alone (executePayout d id now dto context ((claimPatch now).applyTo t p))
      (fun _ _ h' => Dispatches account (payoutTx d vault token p) h') w h := by
  obtain ⟨treasury, signer, enough⟩ := affords
  unfold executePayout
  refine Machine.wp_bind (wp_getAssetBalance callable.token silent ?_ ?_)
  · intro treasury' balance w' h' signer' read move _
    obtain rfl : treasury = treasury' := Option.some.inj (signer.symm.trans signer')
    refine Machine.wp_bind (Machine.wp_require (fun _ => ?_) fun short => absurd ?_ short)
    · have configured : d.settlementVaultConfigured = true := by
        rw [Configuration.settlementVaultConfigured, callable.vault]
        rfl
      have sent : answering.wp alone (transferPayout d ((claimPatch now).applyTo t p))
          (fun _ _ h' => Dispatches account (payoutTx d vault token p) h') w' h' := by
        rw [transferPayout, if_pos configured]
        refine wp_vaultPayout_sent (callable.claimed (.cons ⟨t, rfl⟩ .nil)) ?_
        rw [move.reads.allowance, move.reads.funder]
        exact covered
      exact Machine.wp_bind_of sent (fun _ _ _ sent => wp_after sent) fun _ _ _ sent => sent
    · rw [read]
      exact enough
  · intro unsigned
    rw [unsigned] at signer
    cases signer

/-- Otherwise it is refused. -/
lemma wp_executePayout_refused {t : Timestamp} (configured : (d.getAssetConfig p.asset).address = some token)
    (silent : Silent h) (short : ¬Affords d w.chain token p.amountAtomic) :
    answering.wp alone (executePayout d id now dto context ((claimPatch now).applyTo t p))
      (fun r _ h' => (∃ e, r = .error e) ∧ Silent h') w h := by
  unfold executePayout
  refine Machine.wp_bind (wp_getAssetBalance configured silent ?_ ?_)
  · intro treasury balance w' h' signer read _ silent
    refine Machine.wp_bind (Machine.wp_require (fun enough => absurd ?_ short) fun _ => ⟨⟨_, rfl⟩, silent⟩)
    exact ⟨treasury, signer, read ▸ enough⟩
  · exact fun _ e => ⟨⟨e, rfl⟩, silent⟩

/-- A neutral operation sends nothing. -/
lemma sendless_of_neutral {c : Call} (neutral : Neutral c) : Sendless c := by
  rintro account tx ids rfl
  cases neutral

/-- The handler sends nothing. -/
lemma uses_handler {e : Exception} : (handlePayoutError id dto context e).Uses Sendless fun _ => True :=
  uses_handlePayoutError (fun _ => sendless_of_neutral) fun _ => nofun

/-- An authorization of a payout that the vault would carry out sends the call just when the treasury signer
    could afford it. -/
lemma wp_authorizePayout_iff (found : w.findPayout id context.clientId = some p) (prepared : p.status = .prepared)
    (callable : Callable d p.asset vault token account [p])
    (covered : p.amountAtomic ≤ w.chain.allowance token (w.chain.funder vault) vault) (silent : Silent h) :
    answering.wp alone (authorizePayout d id dto context) (fun _ _ h' =>
      Dispatches account (payoutTx d vault token p) h' ↔ Affords d w.chain token p.amountAtomic) w h := by
  refine wp_authorizePayout_prepared found prepared silent fun now t w' h' reads silent => ?_
  by_cases affords : Affords d w.chain token p.amountAtomic
  · have covered' : p.amountAtomic ≤ w'.chain.allowance token (w'.chain.funder vault) vault := by
      rw [reads.allowance, reads.funder]
      exact covered
    have affords' : Affords d w'.chain token p.amountAtomic := by
      rw [Affords, reads.balanceOf]
      exact affords
    have sent : answering.wp alone ((executePayout d id now dto context ((claimPatch now).applyTo t p)).tryCatch
        (handlePayoutError id dto context))
        (fun _ _ h' => Dispatches account (payoutTx d vault token p) h') w' h' :=
      Machine.wp_tryCatch_of (wp_executePayout_sent callable covered' silent affords')
        (fun _ _ _ sent => sent) fun _ _ _ sent => wp_after sent
    refine Machine.wp_mono (fun _ _ _ sent => iff_of_true sent affords) ?_
    exact Machine.wp_bind_of sent (fun _ _ _ sent => wp_after sent) fun _ _ _ sent => sent
  · have short : ¬Affords d w'.chain token p.amountAtomic := by
      rw [Affords, reads.balanceOf]
      exact affords
    have refused : answering.wp alone ((executePayout d id now dto context ((claimPatch now).applyTo t p)).tryCatch
        (handlePayoutError id dto context)) (fun _ _ h' => Silent h') w' h' :=
      Machine.wp_tryCatch_of (wp_executePayout_refused callable.token silent short)
        (fun _ _ _ refused => refused.2) fun _ _ _ refused => wp_silent uses_handler refused.2
    have unsent {h : Hist Api} (silent : Silent h) : ¬Dispatches account (payoutTx d vault token p) h :=
      fun ⟨ids, hash, mem⟩ => silent _ mem _ _ _ rfl
    refine Machine.wp_mono (Q := fun _ _ h' => Silent h') (fun _ _ _ silent => ?_) ?_
    · exact iff_of_false (unsent silent) affords
    · refine Machine.wp_bind_of refused (fun updated _ _ silent => wp_silent ?_ silent) fun _ _ _ silent => silent
      refine Prog.uses_bind (Prog.uses_orThrow trivial) fun _ => ?_
      exact Prog.uses_mono (fun _ => sendless_of_neutral) uses_toResponse

/-! ## A batch -/

variable {ids : List Uuid} {ps rest claimed : List PayoutRecord}

/-- The payouts of a batch are found. -/
def Found (w : World) (context : RequestContext) (ids : List Uuid) (ps : List PayoutRecord) : Prop :=
  ids.map (w.findPayout · context.clientId) = ps.map some

/-- The payouts that are found have the ids. -/
lemma ids_of_found (found : Found w context ids ps) : ps.map PayoutRecord.id = ids := by
  induction ids generalizing ps with
  | nil => rw [List.map_eq_nil_iff.1 found.symm, List.map_nil]
  | cons id ids ih =>
    obtain ⟨p, rest, rfl, here, rest'⟩ := List.map_eq_cons_iff.1 found.symm
    obtain ⟨here, -⟩ := Option.filter_eq_some_iff.1 here.symm
    rw [List.map_cons, Data.Table.key_of_find? here, ih rest'.symm]

/-- The payouts that are found are in the table. -/
lemma rows_of_found (found : Found w context ids ps) : ∀ p ∈ ps, w.payouts.find? p.id = some p := by
  intro p mem
  have there : some p ∈ ids.map (w.findPayout · context.clientId) := found ▸ List.mem_map_of_mem mem
  obtain ⟨id, -, there⟩ := List.mem_map.1 there
  obtain ⟨there, -⟩ := Option.filter_eq_some_iff.1 there
  rwa [Data.Table.key_of_find? there]

/-- The payouts of a batch are read. -/
lemma wp_requirePayouts {Q : End Api World (List PayoutRecord)} (distinct : ids.Nodup)
    (found : Found w context ids ps) (silent : Silent h)
    (ok : ∀ w' h', Undisturbed w w' → Silent h' → Q (.ok ps) w' h') :
    answering.wp alone (Prog.promiseAll (ids.map (requirePayoutSlot context))) Q w h := by
  have read : answering.wp alone (Prog.promiseAll (ids.map (requirePayoutSlot context)))
      (fun r w' _ => r = .ok ps ∧ Undisturbed w w') w h := by
    refine Machine.wp_promiseAll_each (P := fun _ _ => True)
      (R := fun id p _ => w.findPayout id context.clientId = some p) (G := Undisturbed w)
      (fun id => ⟨_, _, rfl⟩) distinct ?_ ?_ (fun _ _ => trivial) ⟨rfl, .refl⟩
    · intro id mem op post slot w₁ h₁ _ undisturbed
      cases slot
      refine leads_answered nofun fun w₂ row w₃ move run _ => ?_
      cases run
      have same : w₂.findPayout id context.clientId = w.findPayout id context.clientId := by
        rw [World.findPayout, move.payouts, undisturbed.payouts, World.findPayout]
      have there : w.findPayout id context.clientId ∈ ps.map some := found ▸ List.mem_map_of_mem mem
      obtain ⟨p, -, there⟩ := List.mem_map.1 there
      change (∀ b, payoutOrNotFound (w₂.findPayout id context.clientId) = .ok b → _) ∧
        ∀ e, payoutOrNotFound (w₂.findPayout id context.clientId) = .error e → _
      rw [same, ← there, payoutOrNotFound]
      refine ⟨fun b eq => ?_, fun e eq => by cases eq⟩
      obtain rfl := Except.ok.inj eq
      exact ⟨rfl, undisturbed.trans move, fun _ _ _ => ⟨fun holds => holds, fun _ holds => holds⟩⟩
    · intro bs w' h' each undisturbed
      have rows : ids.map (w.findPayout · context.clientId) = bs.map some := by
        rw [← List.forall₂_eq_eq_eq, List.forall₂_map_left_iff, List.forall₂_map_right_iff]
        exact each
      have same : bs.map some = ps.map some := rows.symm.trans found
      rw [List.map_injective_iff.2 (Option.some_injective _) same]
      exact ⟨rfl, undisturbed⟩
  refine Machine.wp_mono (fun r w' h' post => ?_)
    (Machine.wp_and read (wp_silent (Prog.uses_promiseAll fun s mem => ?_) silent))
  · obtain ⟨⟨rfl, undisturbed⟩, silent⟩ := post
    exact ok w' h' undisturbed silent
  · obtain ⟨id, -, rfl⟩ := List.mem_map.1 mem
    exact ⟨nofun, fun _ _ _ _ => trivial⟩

/-- Payouts that are there and prepared are claimed one by one. -/
lemma wp_claimBatch_prepared {Q : End Api World (List PayoutRecord)}
    (there : ∀ p ∈ rest, w.payouts.find? p.id = some p) (prepared : ∀ p ∈ rest, p.status = .prepared)
    (distinct : (rest.map PayoutRecord.id).Nodup) (before : List.Forall₂ (ClaimOf now) ps claimed)
    (next : ∀ claimed w' h', List.Forall₂ (ClaimOf now) (ps ++ rest) claimed → SameReads w.chain w'.chain →
      Q (.ok claimed) w' h') : answering.wp alone (claimBatch now rest claimed) Q w h := by
  induction rest generalizing ps claimed w h with
  | nil =>
    rw [List.append_nil] at next
    exact next claimed w h before .refl
  | cons p rest ih =>
    obtain ⟨here, there⟩ := List.forall_mem_cons.1 there
    obtain ⟨ready, prepared⟩ := List.forall_mem_cons.1 prepared
    obtain ⟨new, distinct⟩ := List.nodup_cons.1 distinct
    refine Machine.wp_bind (Machine.wp_await (leads_claim here ready fun t w₁ o others reads => ?_))
    have after : List.Forall₂ (ClaimOf now) (ps ++ [p]) (claimed ++ [(claimPatch now).applyTo t p]) :=
      List.rel_append before (.cons ⟨t, rfl⟩ .nil)
    refine ih (fun q mem => ?_) prepared distinct after fun claimed w' h' all reads' => ?_
    · have other : q.id ≠ p.id := fun eq => new (eq ▸ List.mem_map_of_mem mem)
      rw [others q.id other]
      exact there q mem
    · rw [List.append_assoc] at all
      exact next claimed w' h' all (reads.trans reads')

/-- The claims are noted in the audit trail. -/
lemma wp_auditClaims {Q : End Api World (List Unit)} (distinct : claimed.Nodup)
    (ok : ∀ us w' h', SameReads w.chain w'.chain → Q (.ok us) w' h') :
    answering.wp alone (Prog.promiseAll (claimed.map (batchAuthorizedSlot dto context))) Q w h := by
  refine Machine.wp_promiseAll_each (P := fun _ _ => True) (R := fun _ _ _ => True)
    (G := fun w' => SameReads w.chain w'.chain) (fun c => ⟨_, _, rfl⟩) distinct ?_
    (fun us w' h' _ reads => ok us w' h' reads) (fun _ _ => trivial) .refl
  intro c mem op post slot w₁ h₁ _ reads
  cases slot
  refine leads_answered nofun fun w₂ _ w₃ move run reads' => ⟨fun _ _ => ?_, fun e eq => by cases eq⟩
  exact ⟨trivial, reads.trans reads', fun _ _ _ => ⟨fun holds => holds, fun _ holds => holds⟩⟩

/-- A batch that has been claimed is sent. -/
lemma wp_settleBatch_sent (callable : Callable d asset vault token account ps)
    (covered : (ps.map PayoutRecord.amountAtomic).sum ≤ w.chain.allowance token (w.chain.funder vault) vault)
    (all : List.Forall₂ (ClaimOf now) ps claimed) (distinct : claimed.Nodup) :
    answering.wp alone (settleBatch d asset now dto context claimed)
      (fun _ _ h' => Dispatches account (batchTx d vault token ps) h') w h := by
  unfold settleBatch
  refine Machine.wp_bind (wp_auditClaims distinct fun _ w₁ h₁ reads => ?_)
  have same : batchTx d vault token claimed = batchTx d vault token ps := by
    rw [batchTx, map_claimed (fun _ _ => rfl) all, map_claimed (fun _ _ => rfl) all,
      map_claimed (fun _ _ => rfl) all, batchTx]
  have covered' : (claimed.map PayoutRecord.amountAtomic).sum ≤
      w₁.chain.allowance token (w₁.chain.funder vault) vault := by
    rw [map_claimed (fun _ _ => rfl) all, reads.allowance, reads.funder]
    exact covered
  have sent : answering.wp alone (executeBatch d asset now dto context claimed)
      (fun _ _ h' => Dispatches account (batchTx d vault token ps) h') w₁ h₁ := by
    rw [← same]
    exact Machine.wp_bind_of (wp_vaultPayoutBatch_sent (callable.claimed all) covered')
      (fun _ _ _ sent => wp_after sent) fun _ _ _ sent => sent
  have handled := Machine.wp_tryCatch_of (f := handleBatchError dto context claimed) sent
    (fun _ _ _ sent => sent) fun _ _ _ sent => wp_after sent
  exact Machine.wp_bind_of handled (fun _ _ _ sent => wp_after sent) fun _ _ _ sent => sent

/-- A batch that the vault would carry out is sent just when the treasury signer could afford it. -/
lemma wp_authorizePayoutBatch_iff (found : Found w context ids.eraseDups ps) (some' : ps ≠ [])
    (prepared : ∀ p ∈ ps, p.status = .prepared ∧ p.asset = asset)
    (callable : Callable d asset vault token account ps)
    (covered : (ps.map PayoutRecord.amountAtomic).sum ≤ w.chain.allowance token (w.chain.funder vault) vault)
    (silent : Silent h) :
    answering.wp alone (authorizePayoutBatch d ids dto context) (fun _ _ h' =>
      Dispatches account (batchTx d vault token ps) h' ↔
        Affords d w.chain token (ps.map PayoutRecord.amountAtomic).sum) w h := by
  have unsent {h : Hist Api} (silent : Silent h) : ¬Dispatches account (batchTx d vault token ps) h :=
    fun ⟨ids, hash, mem⟩ => silent _ mem _ _ _ rfl
  have configured : d.settlementVaultConfigured = true := by
    rw [Configuration.settlementVaultConfigured, callable.vault]
    rfl
  have distinct := Data.nodup_eraseDups ids
  have keys := ids_of_found found
  obtain ⟨p, rest, rfl⟩ := List.exists_cons_of_ne_nil some'
  obtain ⟨-, rfl⟩ := prepared p List.mem_cons_self
  unfold authorizePayoutBatch
  refine Machine.wp_bind (Machine.wp_require (fun _ => ?_) (absurd configured))
  rw [← keys, List.map_cons]
  dsimp only
  rw [← List.map_cons, keys]
  refine Machine.wp_bind (wp_requirePayouts distinct found silent fun w₁ h₁ move silent => ?_)
  refine Machine.wp_bind (Machine.wp_orThrow (fun first here => ?_) nofun)
  obtain rfl : p = first := Option.some.inj here
  refine Machine.wp_bind (Machine.wp_require (fun _ => ?_) (absurd fun q mem => (prepared q mem).2))
  have ready : ((p :: rest).filter fun q => decide (q.status ≠ .prepared)) = [] := by
    rw [List.filter_eq_nil_iff]
    exact fun q mem => by simp [(prepared q mem).1]
  refine Machine.wp_bind (Machine.wp_require (fun _ => ?_) (absurd ready))
  refine Machine.wp_bind (wp_getAssetBalance callable.token silent ?_ ?_)
  · intro treasury balance w₂ h₂ signer read move' silent
    rw [move.reads.balanceOf] at read
    refine Machine.wp_bind (Machine.wp_require (fun enough => ?_) fun short => ?_)
    · have affords : Affords d w.chain token ((p :: rest).map PayoutRecord.amountAtomic).sum :=
        ⟨treasury, signer, read ▸ enough⟩
      refine Machine.wp_mono (fun _ _ _ sent => iff_of_true sent affords) ?_
      refine Machine.wp_bind (Machine.wp_await (leads_answered nofun fun w₃ now w₄ move'' run _ => ?_))
      cases run
      have undisturbed := (move.trans move').trans move''
      have none' : List.Forall₂ (ClaimOf w₃.now) [] [] := .nil
      refine Machine.wp_bind (wp_claimBatch_prepared (fun q mem => ?_) (fun q mem => (prepared q mem).1)
        (by rwa [keys]) none' fun claimed w₅ h₅ all reads => ?_)
      · rw [undisturbed.payouts]
        exact rows_of_found found q mem
      · have apart : (claimed.map PayoutRecord.id).Nodup := by
          rwa [map_claimed (fun _ _ => rfl) all, List.nil_append, keys]
        refine wp_settleBatch_sent callable ?_ all (List.Nodup.of_map _ apart)
        rw [reads.allowance, reads.funder, undisturbed.reads.allowance, undisturbed.reads.funder]
        exact covered
    · refine iff_of_false (unsent silent) ?_
      rintro ⟨treasury', signer', enough⟩
      obtain rfl : treasury = treasury' := Option.some.inj (signer.symm.trans signer')
      exact short (read ▸ enough)
  · intro unsigned e
    refine iff_of_false (unsent silent) ?_
    rintro ⟨treasury, signer, -⟩
    rw [unsigned] at signer
    cases signer

end

/-! ## Whatever the chain holds -/

section
variable {oz : OpenZeppelin} {keccak256 : List Word → Word} {recover : Recover} {d : Deployment} {w : World}
  {vault token account : Hex} {s : Account (abi oz)} {ts : Tokens}

/-- An allowance of the funder that the node shows. -/
lemma covered_of_shows (shows : Shows w.chain vault token s ts) {n : Nat}
    (covered : n ≤ ((ts (addressOf token)).allowances s.storage.funder (addressOf vault)).toNat) :
    n ≤ w.chain.allowance token (w.chain.funder vault) vault := by
  rw [shows.allowances, shows.funder]
  exact covered

/-- A payout that the contract carries out is covered by the funder's allowance. -/
lemma covered_of_payout {p : PayoutRecord} {time : Nat} (shows : Shows w.chain vault token s ts)
    (encoded : p.amountAtomic < 2 ^ 256)
    (carries : CarriesOut keccak256 recover vault s ts (payoutCall d account token time p)) :
    p.amountAtomic ≤ w.chain.allowance token (w.chain.funder vault) vault := by
  apply covered_of_shows shows
  have covered := allowance_of_payout rfl carries
  rwa [BitVec.toNat_ofNat, Nat.mod_eq_of_lt encoded] at covered

/-- So is a batch. -/
lemma covered_of_batch {ps : List PayoutRecord} {time : Nat} (shows : Shows w.chain vault token s ts)
    (encoded : ∀ p ∈ ps, p.amountAtomic < 2 ^ 256)
    (carries : CarriesOut keccak256 recover vault s ts (batchCall d account token time ps)) :
    (ps.map PayoutRecord.amountAtomic).sum ≤ w.chain.allowance token (w.chain.funder vault) vault := by
  apply covered_of_shows shows
  have covered := allowance_of_payoutBatch rfl carries
  have amounts : (ps.map fun p => BitVec.ofNat 256 p.amountAtomic).map BitVec.toNat =
      ps.map PayoutRecord.amountAtomic := by
    rw [List.map_map]
    refine List.map_congr_left fun p mem => ?_
    rw [Function.comp_apply, BitVec.toNat_ofNat, Nat.mod_eq_of_lt (encoded p mem)]
  rwa [amounts] at covered

variable (oz keccak256 recover d w vault token account s ts)

/-- Whatever vault, funder, balances and allowances the chain holds: where the vault would carry out the call
    for a prepared payout or batch, the service sends it just when the treasury signer is configured and has
    the amount itself. -/
theorem dispatched_iff (dto : AuthorizePayoutDto) (context : RequestContext)
    (shows : Shows w.chain vault token s ts) :
    (∀ id p time, w.findPayout id context.clientId = some p → p.status = .prepared →
      Callable d p.asset vault token account [p] →
      CarriesOut keccak256 recover vault s ts (payoutCall d account token time p) →
      ∀ r w' h', answering.Runs alone (authorizePayout d id dto context) w [] r w' h' →
        (Dispatches account (payoutTx d vault token p) h' ↔ Affords d w.chain token p.amountAtomic)) ∧
    ∀ ids ps asset time, Found w context ids.eraseDups ps → ps ≠ [] →
      (∀ p ∈ ps, p.status = .prepared ∧ p.asset = asset) → Callable d asset vault token account ps →
      CarriesOut keccak256 recover vault s ts (batchCall d account token time ps) →
      ∀ r w' h', answering.Runs alone (authorizePayoutBatch d ids dto context) w [] r w' h' →
        (Dispatches account (batchTx d vault token ps) h' ↔
          Affords d w.chain token (ps.map PayoutRecord.amountAtomic).sum) := by
  have silent : Silent [] := fun _ mem => absurd mem List.not_mem_nil
  constructor
  · intro id p time found prepared callable carries r w' h' run
    have encoded := callable.amounts p (List.mem_singleton_self p)
    exact Machine.wp_sound run
      (wp_authorizePayout_iff found prepared callable (covered_of_payout shows encoded carries) silent)
  · intro ids ps asset time found some' prepared callable carries r w' h' run
    exact Machine.wp_sound run (wp_authorizePayoutBatch_iff found some' prepared callable
      (covered_of_batch shows callable.amounts carries) silent)

end

/-! ## Concrete vaults -/

/-- The payout that is to be authorized. -/
def preparedPayout : PayoutRecord :=
  newPayout vaultDeployment (orderDto secondAddress) .sample World.sampleId 0 1000000

/-- A vault with a funder. -/
def fundedVault (funder : Hex) : Account (abi .standard) :=
  ⟨⟨⟨1, 0, false, false⟩, addressOf funder, fun _ => true, fun _ => true, fun _ => false, fun _ => false⟩, []⟩

/-- The funder has one USDC, and has approved the vault for it. -/
def fundedBy (funder : Hex) : Tokens := fun _ =>
  ⟨fun a => if a = addressOf funder then 1000000 else 0,
    fun a _ => if a = addressOf funder then 1000000 else 0, fun _ => 0⟩

/-- The ledger with the payout, over a chain with that vault. -/
def fundedWorld (funder : Hex) : World :=
  { World.sample with
    payouts := ⟨[preparedPayout], by decide⟩
    chain := { World.sampleChain with
      funder := fun _ => funder
      balanceOf := fun token a => ((fundedBy funder (addressOf token)).balances (addressOf a)).toNat
      allowance := fun token a b =>
        ((fundedBy funder (addressOf token)).allowances (addressOf a) (addressOf b)).toNat } }

/-- The treasury signer of the deployment. -/
def signerAddress : Hex := "0x7E5F4552091A69125d5DfCb7b8C2659029395Bdf"

/-- The sample chain shows the sample contracts. -/
lemma shows_fundedWorld (funder : Hex) : Shows (fundedWorld funder).chain sampleAddress sampleToken
    (fundedVault funder) (fundedBy funder) := ⟨rfl, fun _ => rfl, fun _ _ => rfl⟩

/-- The sample payout can be sent. -/
lemma callable_preparedPayout :
    Callable promptDeployment .usdc sampleAddress sampleToken signerAddress [preparedPayout] where
  vault := rfl
  token := rfl
  account := rfl
  recipients := by simp [promptDeployment, vaultDeployment, Deployment.sample, Viem.sample]
  amounts := by
    intro p mem
    obtain rfl := List.mem_singleton.1 mem
    change 1000000 < 2 ^ 256
    decide

/-- Every operation is answered. -/
def answered : Hist Api → World → Event Api → Bool := fun _ _ e => !e.outcome.threw

/-- A call that is answered at every step comes to an end. -/
lemma exists_run {α : Type} {p : Method α} {w : World} {n : Nat}
    (res : (answering.play answered p (.replicate n .done) w []).isSome = true) :
    ∃ r w' h', answering.Runs alone p w [] r w' h' := by
  obtain ⟨⟨r, w', h'⟩, played⟩ := Option.isSome_iff_exists.1 res
  refine ⟨r, w', h', Machine.runs_of_play (fun _ _ e done threw => ?_) (fun _ _ => ⟨rfl, .refl⟩) played⟩
  simp [answered, threw] at done

/-- The concrete vault carries out a call that is evaluated to the end. -/
lemma carriesOut_of_eval {funder : Hex} {m : Msg (abi .standard)}
    (res : (invoke (contract fun _ => 7) (passive (standardTokens (fun _ _ => none) (addressOf sampleAddress)
      m.time)) m (fundedVault funder, fundedBy funder)).1.toBool = true) :
    CarriesOut (fun _ => 7) (fun _ _ => none) sampleAddress (fundedVault funder) (fundedBy funder) m := by
  unfold CarriesOut
  cases returned : (invoke (contract fun _ => 7) (passive (standardTokens (fun _ _ => none)
    (addressOf sampleAddress) m.time)) m (fundedVault funder, fundedBy funder)).1 with
  | ok u => rfl
  | error e =>
    rw [returned] at res
    cases res

/-- The payout is sent where the funder is the treasury signer. -/
theorem dispatched_of_treasury :
    (∃ r w' h', answering.Runs alone (authorizePayout promptDeployment World.sampleId {} .sample)
      (fundedWorld signerAddress) [] r w' h' ∧
        (Dispatches signerAddress (payoutTx promptDeployment sampleAddress sampleToken preparedPayout) h' ↔
          Affords promptDeployment (fundedWorld signerAddress).chain sampleToken 1000000)) ∧
    ∃ r w' h', answering.Runs alone (authorizePayoutBatch promptDeployment [World.sampleId] {} .sample)
      (fundedWorld signerAddress) [] r w' h' ∧
        (Dispatches signerAddress (batchTx promptDeployment sampleAddress sampleToken [preparedPayout]) h' ↔
          Affords promptDeployment (fundedWorld signerAddress).chain sampleToken 1000000) := by
  obtain ⟨single, batch⟩ := dispatched_iff .standard (fun _ => 7) (fun _ _ => none) promptDeployment
    (fundedWorld signerAddress) sampleAddress sampleToken signerAddress _ _ {} .sample
    (shows_fundedWorld signerAddress)
  constructor
  · obtain ⟨r, w', h', run⟩ := exists_run (n := 20) (w := fundedWorld signerAddress)
      (p := authorizePayout promptDeployment World.sampleId {} .sample) (by decide +kernel)
    exact ⟨r, w', h', run, single World.sampleId preparedPayout 0 rfl rfl callable_preparedPayout
      (carriesOut_of_eval (by decide +kernel)) r w' h' run⟩
  · obtain ⟨r, w', h', run⟩ := exists_run (n := 20) (w := fundedWorld signerAddress)
      (p := authorizePayoutBatch promptDeployment [World.sampleId] {} .sample) (by decide +kernel)
    refine ⟨r, w', h', run, batch [World.sampleId] [preparedPayout] .usdc 0 rfl nofun ?_
      callable_preparedPayout (carriesOut_of_eval (by decide +kernel)) r w' h' run⟩
    intro p mem
    obtain rfl := List.mem_singleton.1 mem
    exact ⟨rfl, rfl⟩

/-- The call has been refused with a conflict. -/
def refusedWith {α : Type} (message : String) : Except Exception α → Bool
  | .error (.conflict message') => decide (message' = message)
  | _ => false

/-- A call that the check finds refused has thrown this conflict. -/
lemma eq_of_refusedWith {α : Type} {message : String} {r : Except Exception α}
    (refused : refusedWith message r = true) : r = .error (.conflict message) := by
  unfold refusedWith at refused
  split at refused
  case h_1 => rw [of_decide_eq_true refused]
  case h_2 => cases refused

/-- A call that is refused at a step. -/
lemma exists_refusal {α : Type} {p : Method α} {w : World} {message : String} {n : Nat}
    (res : (answering.play answered p (.replicate n .done) w []).any (fun q => refusedWith message q.1) = true) :
    ∃ w' h', answering.Runs alone p w [] (.error (.conflict message)) w' h' := by
  obtain ⟨⟨r, w', h'⟩, played, refused⟩ := (Option.any_eq_true _ _).1 res
  obtain rfl := eq_of_refusedWith refused
  refine ⟨w', h', Machine.runs_of_play (fun _ _ e done threw => ?_) (fun _ _ => ⟨rfl, .refl⟩) played⟩
  simp [answered, threw] at done

/-- A treasury apart from the signer. -/
def coldAddress : Hex := "0x70997970C51812dc3A010C7d01b50e0d17dc79C8"

/-- The vault would pay from a treasury of its own, which has approved it for the amount: the payout and the
    batch are refused all the same, since the signer has no token. -/
theorem refused_of_cold_treasury :
    CarriesOut (fun _ => 7) (fun _ _ => none) sampleAddress (fundedVault coldAddress) (fundedBy coldAddress)
        (payoutCall promptDeployment signerAddress sampleToken 0 preparedPayout) ∧
      (∃ w' h', answering.Runs alone (authorizePayout promptDeployment World.sampleId {} .sample)
        (fundedWorld coldAddress) [] (.error (.conflict "Insufficient treasury USDC balance.")) w' h') ∧
      CarriesOut (fun _ => 7) (fun _ _ => none) sampleAddress (fundedVault coldAddress) (fundedBy coldAddress)
        (batchCall promptDeployment signerAddress sampleToken 0 [preparedPayout]) ∧
      ∃ w' h', answering.Runs alone (authorizePayoutBatch promptDeployment [World.sampleId] {} .sample)
        (fundedWorld coldAddress) []
          (.error (.conflict "Insufficient treasury USDC balance for the batch.")) w' h' := by
  refine ⟨carriesOut_of_eval (by decide +kernel), ?_, carriesOut_of_eval (by decide +kernel), ?_⟩
  · exact exists_refusal (n := 20) (by decide +kernel)
  · exact exists_refusal (n := 20) (by decide +kernel)

end AvaSettle.Payouts
