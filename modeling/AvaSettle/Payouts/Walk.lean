import AvaSettle.Payouts.Rules

/-!
# Payout calls: the methods

The weakest preconditions of the four methods, from the rules of their operations. Most of each method
is neutral; what is left is the claim, the rail with its submission, the write that records the
transfer, and the handlers that give claims up or mark payouts failed.
-/

namespace AvaSettle.Payouts
open Async
open Blockchain

/-! ## What the helpers use -/

section
variable {E : Exception → Prop} {d : Deployment}

/-- The operation is neutral. -/
abbrev Neutral (c : Call) : Prop := isNeutral c = true

/-- The error is not a conflict. -/
def NotConflict (e : Exception) : Prop := e.isConflict = false

/-- An error of an operation is not a conflict of the service. -/
lemma notConflict_of_foreign (e : Exception) (h : e.isForeign = true) : NotConflict e := by
  cases e <;> first | rfl | cases h

/-- A neutral request. -/
lemma uses_request {c : Call} (hc : isNeutral c = true) : (request c).Uses Neutral E :=
  Prog.uses_await hc

/-- A neutral request whose error is caught. -/
lemma uses_requestOr {β : Type} {c : Call} {f : c.Res → β} {b : β} (hc : isNeutral c = true) :
    (requestOr c f b).Uses Neutral E :=
  Prog.uses_awaitOr hc

/-- The audit is neutral. -/
lemma uses_recordAudit {type : AuditEventType} {id : Uuid} {actor : AuditActor}
    {payload : List (String × Json)} : (recordAudit type id actor payload).Uses Neutral E :=
  uses_request rfl

/-- A webhook is neutral. -/
lemma uses_enqueue {clientId : Option String} {event : String} {payload : List (String × Json)} :
    (enqueue clientId event payload).Uses Neutral E := by
  unfold enqueue
  split
  · trivial
  · exact uses_requestOr rfl

/-- A response is neutral. -/
lemma uses_toResponse {r : PayoutRecord} {b : Bool} : (toResponse r b).Uses Neutral E :=
  Prog.uses_bind (uses_request rfl) fun _ => trivial

/-- Reading the row is neutral. -/
lemma uses_requirePayout {id : Uuid} {context : RequestContext} :
    (requirePayout id context).Uses Neutral fun _ => True :=
  Prog.uses_bind (uses_request rfl) fun _ => Prog.uses_ofExcept fun _ _ => trivial

/-- The operation asks for a balance or an allowance. -/
def Asks : Call → Prop
  | .balanceOf _ _ => True
  | .vaultFunder _ => True
  | .allowance _ _ _ => True
  | _ => False

/-- A question to the chain is neutral. -/
lemma neutral_of_asks {c : Call} (asks : Asks c) : Neutral c := by
  cases c <;> first | rfl | cases asks

/-- The balance is a question to the chain. -/
lemma asks_getAssetBalance {asset : SettlementAsset} :
    (getAssetBalance d asset).Uses Asks fun _ => True :=
  Prog.uses_bind (Prog.uses_ofExcept fun _ _ => trivial) fun _ =>
    Prog.uses_bind (Prog.uses_ofExcept fun _ _ => trivial) fun _ =>
      Prog.uses_bind (Prog.uses_await trivial) fun _ => trivial

/-- So is the allowance. -/
lemma asks_ensureVaultAllowance {vault token : Hex} {amount : Nat} :
    (ensureVaultAllowance vault token amount).Uses Asks fun _ => True :=
  Prog.uses_bind (Prog.uses_await trivial) fun _ => Prog.uses_bind (Prog.uses_await trivial) fun _ =>
    Prog.uses_require fun _ => trivial

/-- Reading the balance is neutral. -/
lemma uses_getAssetBalance {asset : SettlementAsset} :
    (getAssetBalance d asset).Uses Neutral fun _ => True :=
  Prog.uses_mono (fun _ => neutral_of_asks) asks_getAssetBalance

/-- Checking the allowance is neutral. -/
lemma uses_ensureVaultAllowance {vault token : Hex} {amount : Nat} :
    (ensureVaultAllowance vault token amount).Uses Neutral fun _ => True :=
  Prog.uses_mono (fun _ => neutral_of_asks) asks_ensureVaultAllowance

/-- The webhook of a confirmed payout is neutral. -/
lemma uses_announceConfirmed {status : TransferStatus} {updated : Option PayoutRecord}
    (fails : ∀ message, E (.error message)) : (announceConfirmed status updated).Uses Neutral E := by
  unfold announceConfirmed
  split
  · exact Prog.uses_bind (Prog.uses_orThrow (fails _)) fun _ => uses_enqueue
  · trivial

/-- What announces a leg is neutral, and throws no conflict. -/
lemma uses_announceLeg {dto : AuthorizePayoutDto} {context : RequestContext}
    {exec : TransferExecution} {updated : Option PayoutRecord} :
    (announceLeg dto context exec updated).Uses Neutral NotConflict :=
  Prog.uses_bind (Prog.uses_orThrow rfl) fun _ =>
    Prog.uses_bind uses_recordAudit fun _ => uses_announceConfirmed fun _ => rfl

end

/-! ## What an authorization uses

Next to neutral operations: the transaction, its receipt, and the guarded updates of the payout. -/

section
variable {P : Call → Prop} {d : Deployment} {ids : List Uuid} {id : Uuid} {dto : AuthorizePayoutDto}
  {context : RequestContext} (neutral : ∀ c, Neutral c → P c)
  (waits : ∀ hash, P (.waitForTransactionReceipt hash))
  (submits : ∀ account tx, P (.submit account tx ids)) (updates : ∀ patch, P (updateAuthorized id patch))

include waits in

/-- Reading a transaction back is one of the operations. -/
lemma uses_toTransferExecution {E : Exception → Prop} {hash : Hex} :
    (toTransferExecution d hash).Uses P E := by
  unfold toTransferExecution
  split
  case isTrue => exact Prog.uses_bind (Prog.uses_await (waits hash)) fun _ => trivial
  case isFalse => trivial

include waits submits in

/-- Each rail asks questions and submits for the payout. -/
lemma uses_transferPayout (asks : ∀ c, Asks c → P c) {authorized : PayoutRecord} (key : [authorized.id] = ids) :
    (transferPayout d authorized).Uses P fun _ => True := by
  subst key
  unfold transferPayout
  split
  case isTrue =>
    refine Prog.uses_bind (Prog.uses_require fun _ => trivial) fun _ => ?_
    refine Prog.uses_bind (Prog.uses_ofExcept fun _ _ => trivial) fun _ => ?_
    refine Prog.uses_bind (Prog.uses_ofExcept fun _ _ => trivial) fun _ => ?_
    refine Prog.uses_bind (Prog.uses_mono asks asks_ensureVaultAllowance) fun _ => ?_
    refine Prog.uses_bind (Prog.uses_ofExcept fun _ _ => trivial) fun _ => ?_
    exact Prog.uses_bind (Prog.uses_await (submits _ _)) fun _ => uses_toTransferExecution waits
  case isFalse =>
    refine Prog.uses_bind (Prog.uses_require fun _ => trivial) fun _ => ?_
    refine Prog.uses_bind (Prog.uses_ofExcept fun _ _ => trivial) fun _ => ?_
    refine Prog.uses_bind (Prog.uses_ofExcept fun _ _ => trivial) fun _ => ?_
    exact Prog.uses_bind (Prog.uses_await (submits _ _)) fun _ => uses_toTransferExecution waits

include waits submits in

/-- So does the batch transfer. -/
lemma uses_vaultPayoutBatch (asks : ∀ c, Asks c → P c) {asset : SettlementAsset} {batchRef : Hex}
    {recipients : List Hex} {amountsAtomic : List Nat} :
    (vaultPayoutBatch d asset batchRef recipients amountsAtomic ids).Uses P fun _ => True := by
  refine Prog.uses_bind (Prog.uses_ofExcept fun _ _ => trivial) fun _ => ?_
  refine Prog.uses_bind (Prog.uses_ofExcept fun _ _ => trivial) fun _ => ?_
  refine Prog.uses_bind (Prog.uses_ofExcept fun _ _ => trivial) fun _ => ?_
  refine Prog.uses_bind (Prog.uses_mono asks asks_ensureVaultAllowance) fun _ => ?_
  refine Prog.uses_bind (Prog.uses_ofExcept fun _ _ => trivial) fun _ => ?_
  exact Prog.uses_bind (Prog.uses_await (submits _ _)) fun _ => uses_toTransferExecution waits

include neutral waits submits updates in

/-- So does the body of the `try`, which records it. -/
lemma uses_executePayout {now : Timestamp} {authorized : PayoutRecord} (key : [authorized.id] = ids) :
    (executePayout d id now dto context authorized).Uses P fun _ => True := by
  refine Prog.uses_bind (Prog.uses_mono neutral uses_getAssetBalance) fun _ => ?_
  refine Prog.uses_bind (Prog.uses_require fun _ => trivial) fun _ => ?_
  refine Prog.uses_bind (uses_transferPayout waits submits
    (fun c asks => neutral c (neutral_of_asks asks)) key) fun _ => ?_
  refine Prog.uses_bind (Prog.uses_await (updates _)) fun _ => ?_
  refine Prog.uses_bind (Prog.uses_mono neutral uses_recordAudit) fun _ => ?_
  exact Prog.uses_bind (Prog.uses_mono neutral (uses_announceConfirmed fun _ => trivial)) fun _ =>
    trivial

include neutral updates in

/-- The handler writes the row and the audit. -/
lemma uses_handlePayoutError {e : Exception} :
    (handlePayoutError id dto context e).Uses P fun _ => True := by
  unfold handlePayoutError
  split
  case h_1 => exact Prog.uses_bind (Prog.uses_await (updates _)) fun _ => Prog.uses_throw trivial
  case h_2 =>
    refine Prog.uses_bind (Prog.uses_await (updates _)) fun _ => ?_
    refine Prog.uses_bind (Prog.uses_mono neutral uses_recordAudit) fun _ => ?_
    refine Prog.uses_bind (Prog.uses_orThrow trivial) fun _ => ?_
    exact Prog.uses_bind (Prog.uses_mono neutral uses_toResponse) fun _ => Prog.uses_throw trivial

end

/-! ## The rails -/

section
variable {S : Setting} {d : Deployment} {own a : Claims} {ids : List Uuid} {id : Uuid} {w : World}
  {h : Hist Api}

/-- A postcondition of a payout method. -/
abbrev After (α : Type) := Post Api World Claims α

/-- A neutral program keeps every stable assertion. -/
lemma wp_keep {α : Type} {p : Method α} (uses : p.Uses Neutral fun _ => True) {R : Assertion}
    (st : Stable S.strict R) (hR : R a w h) : S.spec.wp p (fun _ => R) a w h :=
  Spec.wp_mono (fun _ _ _ _ post => post.1) (wp_neutral (fun _ _ => trivial) uses st hR)

/-- What the rest of a rail leaves once the payouts are sent. -/
def Transferred (strict : Prop) (ids : List Uuid) : After TransferExecution
  | .ok exec => fun a w h => Sent ids a w h ∧ Evidence strict w exec
  | .error e => fun a w h => Late ids a w h ∧ NotConflict e

/-- What a rail leaves: a failure is either before the submission or a late throw. -/
def Railed (strict : Prop) (ids : List Uuid) : After TransferExecution
  | .ok exec => fun a w h => Sent ids a w h ∧ Evidence strict w exec
  | .error e => fun a w h => Idle ids a w h ∨ Late ids a w h ∧ NotConflict e

/-- The wait for the receipt, after the submission. -/
lemma wp_toTransferExecution {hash : Hex} (sent : Sent ids a w h) :
    S.spec.wp (toTransferExecution d hash) (Transferred S.strict ids) a w h := by
  unfold toTransferExecution
  split
  case isFalse => exact ⟨sent, fun _ confirmed => by cases confirmed⟩
  case isTrue =>
    refine Spec.wp_bind (Spec.wp_await (Spec.op_mono ?_ (Spec.op_raises (op_wait sent))))
    rintro (rc | e | ⟨rc, e⟩) a w h ⟨post, raises⟩
    · refine ⟨post.1, fun _ confirmed => ⟨rc, post.2, ?_⟩⟩
      by_contra ne
      simp [executionOf, ne] at confirmed
    · exact ⟨post, notConflict_of_foreign e (raises e rfl)⟩
    · exact ⟨post, notConflict_of_foreign e (raises e rfl)⟩

/-- A submission and the wait for its receipt. -/
lemma wp_submit {account : Hex} {tx : Tx} (idle : Idle ids a w h) :
    S.spec.wp (request (.submit account tx ids) >>= toTransferExecution d)
      (Railed S.strict ids) a w h := by
  refine Spec.wp_bind (Spec.wp_await (Spec.op_mono ?_ (Spec.op_raises (op_submit idle))))
  rintro (hash | e | ⟨hash, e⟩) a w h ⟨post, raises⟩
  · refine Spec.wp_mono (fun r a w h post => ?_) (wp_toTransferExecution post)
    cases r with
    | ok exec => exact post
    | error e => exact .inr post
  · exact .inl post
  · exact .inr ⟨post, notConflict_of_foreign e (raises e rfl)⟩

/-- What comes before the submission of a rail. -/
lemma wp_before {α : Type} {p : Method α} {f : α → Method TransferExecution}
    (uses : p.Uses Neutral fun _ => True) (idle : Idle ids a w h)
    (rest : ∀ b a w h, Idle ids a w h → S.spec.wp (f b) (Railed S.strict ids) a w h) :
    S.spec.wp (p >>= f) (Railed S.strict ids) a w h :=
  Spec.wp_bind_of (wp_keep uses Idle.stable idle) rest fun _ _ _ _ => .inl

/-- The direct transfer sends the payouts or throws before. -/
lemma wp_sendErc20Transfer {asset : SettlementAsset} {recipient : Hex} {amountAtomic : Nat}
    (idle : Idle ids a w h) :
    S.spec.wp (sendErc20Transfer d asset recipient amountAtomic ids) (Railed S.strict ids) a w h := by
  refine wp_before (Prog.uses_require fun _ => trivial) idle fun _ a w h idle => ?_
  refine wp_before (Prog.uses_ofExcept fun _ _ => trivial) idle fun _ a w h idle => ?_
  refine wp_before (Prog.uses_ofExcept fun _ _ => trivial) idle fun _ a w h idle => ?_
  exact wp_submit idle

/-- So does the transfer through the vault. -/
lemma wp_vaultPayout {asset : SettlementAsset} {payoutRef recipient : Hex} {amountAtomic : Nat}
    (idle : Idle ids a w h) :
    S.spec.wp (vaultPayout d asset payoutRef recipient amountAtomic ids) (Railed S.strict ids)
      a w h := by
  refine wp_before (Prog.uses_require fun _ => trivial) idle fun _ a w h idle => ?_
  refine wp_before (Prog.uses_ofExcept fun _ _ => trivial) idle fun _ a w h idle => ?_
  refine wp_before (Prog.uses_ofExcept fun _ _ => trivial) idle fun _ a w h idle => ?_
  refine wp_before uses_ensureVaultAllowance idle fun _ a w h idle => ?_
  refine wp_before (Prog.uses_ofExcept fun _ _ => trivial) idle fun _ a w h idle => ?_
  exact wp_submit idle

/-- So does the batch transfer. -/
lemma wp_vaultPayoutBatch {asset : SettlementAsset} {batchRef : Hex} {recipients : List Hex}
    {amountsAtomic : List Nat} (idle : Idle ids a w h) :
    S.spec.wp (vaultPayoutBatch d asset batchRef recipients amountsAtomic ids)
      (Railed S.strict ids) a w h := by
  refine wp_before (Prog.uses_ofExcept fun _ _ => trivial) idle fun _ a w h idle => ?_
  refine wp_before (Prog.uses_ofExcept fun _ _ => trivial) idle fun _ a w h idle => ?_
  refine wp_before (Prog.uses_ofExcept fun _ _ => trivial) idle fun _ a w h idle => ?_
  refine wp_before uses_ensureVaultAllowance idle fun _ a w h idle => ?_
  refine wp_before (Prog.uses_ofExcept fun _ _ => trivial) idle fun _ a w h idle => ?_
  exact wp_submit idle

/-! ## The single payout -/

/-- What the `try` of an authorization leaves. Where it throws after the submission, the error is not
    a conflict. -/
def Executed {α : Type} (ids : List Uuid) : After α
  | .ok _ => Recorded ids
  | .error e => fun a w h =>
    Idle ids a w h ∨ NotConflict e ∧ (Late ids a w h ∨ Recorded ids a w h)

/-- So does each rail. -/
lemma wp_transferPayout {authorized : PayoutRecord} (key : authorized.id = id)
    (idle : Idle ({id} : Claims) a w h) :
    S.spec.wp (transferPayout d authorized) (Railed S.strict [id]) a w h := by
  subst key
  unfold transferPayout
  split
  case isTrue => exact wp_vaultPayout idle
  case isFalse => exact wp_sendErc20Transfer idle

/-- What comes once the transfer is recorded. -/
lemma wp_recorded {α : Type} {p : Method α} (uses : p.Uses Neutral NotConflict)
    (recorded : Recorded ids a w h) : S.spec.wp p (Executed ids) a w h := by
  refine Spec.wp_mono (fun r a w h post => ?_)
    (wp_neutral notConflict_of_foreign uses Recorded.stable recorded)
  cases r with
  | ok b => exact post.1
  | error e => exact .inr ⟨post.2 e rfl, .inr post.1⟩

/-- The body of the `try` sends the payout once, and records it. -/
lemma wp_executePayout {authorized : PayoutRecord} {now : Timestamp} {dto : AuthorizePayoutDto}
    {context : RequestContext} (key : authorized.id = id) (idle : Idle ({id} : Claims) a w h) :
    S.spec.wp (executePayout d id now dto context authorized) (Executed [id]) a w h := by
  refine Spec.wp_bind_of (wp_keep uses_getAssetBalance Idle.stable idle) (fun _ a w h idle => ?_)
    fun _ _ _ _ => .inl
  refine Spec.wp_bind_of (wp_keep (Prog.uses_require fun _ => trivial) Idle.stable idle)
    (fun _ a w h idle => ?_) fun _ _ _ _ => .inl
  refine Spec.wp_bind_of (wp_transferPayout key idle) (fun exec a w h ⟨sent, evidence⟩ => ?_)
    fun e a w h post => ?_
  · refine Spec.wp_bind (Spec.wp_await (Spec.op_mono ?_ (Spec.op_raises
      (op_record (List.mem_singleton_self id) evidence sent))))
    rintro (b | e | ⟨b, e⟩) a w h ⟨post, raises⟩
    · have recorded : Recorded [id] a w h :=
        ⟨post.1.share, post.1.unmarked, post.1.paid, fun k mem => by
          rw [List.mem_singleton.1 mem]
          exact post.2⟩
      exact wp_recorded (Prog.uses_bind uses_recordAudit fun _ =>
        Prog.uses_bind (uses_announceConfirmed fun _ => rfl) fun _ => trivial) recorded
    · exact .inr ⟨notConflict_of_foreign e (raises e rfl), .inl post⟩
    · exact .inr ⟨notConflict_of_foreign e (raises e rfl), .inl post⟩
  · exact post.imp (fun idle => idle) fun late => ⟨late.2, .inl late.1⟩

/-- What is left of a call once it writes nothing more. -/
lemma wp_final {α : Type} {p : Method α} (uses : p.Uses Neutral fun _ => True) (good : Good h) :
    S.spec.wp p (fun _ => Final) a w h :=
  wp_keep uses Final.stable good

/-- The only claim of a call is given up. -/
lemma op_giveUpLast {patch : PayoutPatch} (status : patch.status = some .prepared ∨
    patch.status = some .failed) (noHash : patch.transactionHash = none)
    (unsent : Unsent ({id} : Claims) a w h) :
    S.spec.op (updateAuthorized id patch) (fun _ => Final) a w h := by
  have unsent' : Unsent ({id} + 0 : Claims) a w h := by rwa [add_zero]
  exact Spec.op_mono (fun _ _ _ _ unsent => unsent.good) (op_giveUp status noHash unsent')

/-- A payout is marked failed. -/
lemma op_fail {failureReason : String} (post : Idle ({id} : Claims) a w h ∨ Late [id] a w h ∨
    Recorded [id] a w h) :
    S.spec.op (updateAuthorized id (failPatch failureReason)) (fun _ => Final) a w h := by
  rcases post with idle | late | recorded
  · exact op_giveUpLast (.inr rfl) rfl idle.unsent_of
  · exact Spec.op_mono (fun _ _ _ _ late => late.good)
      (op_late (List.mem_singleton_self id) (fun _ _ => ⟨.inl rfl⟩) late)
  · exact Spec.op_mono (fun _ _ _ _ recorded => recorded.good)
      (op_recorded (List.mem_singleton_self id) recorded)

/-- The handler marks the payout failed that something late has thrown for. -/
lemma wp_handlePayoutError {dto : AuthorizePayoutDto} {context : RequestContext} {e : Exception}
    (post : (Executed [id] : After (Option PayoutRecord)) (.error e) a w h) :
    S.spec.wp (handlePayoutError id dto context e) (fun _ => Final) a w h := by
  unfold handlePayoutError
  split
  case h_1 message =>
    have idle : Idle ({id} : Claims) a w h :=
      post.elim (fun idle => idle) fun other => absurd other.1 (by simp [NotConflict,
        Exception.isConflict])
    refine Spec.wp_bind_of (P := fun _ => Final) (Spec.wp_await
      (op_giveUpLast (.inl rfl) rfl idle.unsent_of))
      (fun _ a w h good => wp_final (Prog.uses_throw trivial) good) fun _ _ _ _ good => good
  case h_2 e other =>
    refine Spec.wp_bind_of (P := fun _ => Final) (Spec.wp_await
      (op_fail (post.imp (fun idle => idle) fun other => other.2)))
      (fun failed a w h good => wp_final ?_ good) fun _ _ _ _ good => good
    exact Prog.uses_bind uses_recordAudit fun _ =>
      Prog.uses_bind (Prog.uses_orThrow trivial) fun _ =>
        Prog.uses_bind uses_toResponse fun _ => Prog.uses_throw trivial

/-- An authorization leaves a good history. -/
lemma wp_authorizePayout {dto : AuthorizePayoutDto} {context : RequestContext}
    (idle : Idle 0 a w h) :
    S.spec.wp (authorizePayout d id dto context) (fun _ => Final) a w h := by
  refine Spec.wp_bind_of (wp_keep uses_requirePayout Idle.stable idle) (fun payout a w h idle => ?_)
    fun _ _ _ _ idle => idle.good
  split
  case isTrue => exact wp_final uses_toResponse idle.good
  case isFalse =>
    refine Spec.wp_bind_of (wp_keep (uses_request rfl) Idle.stable idle) (fun now a w h idle => ?_)
      fun _ _ _ _ idle => idle.good
    refine Spec.wp_bind (Spec.wp_await (Spec.op_mono ?_ (op_claim idle)))
    rintro ((_ | authorized) | e | ⟨b, e⟩) a w h post
    · refine wp_final (Prog.uses_bind uses_requirePayout fun current => ?_) post.good
      dsimp only
      split
      case isTrue => exact uses_toResponse
      case isFalse => exact Prog.uses_throw trivial
    · obtain ⟨key, idle⟩ := post
      rw [add_zero] at idle
      refine Spec.wp_bind_of (wp_keep uses_recordAudit Idle.stable idle) (fun _ a w h idle => ?_)
        fun _ _ _ _ idle => idle.good
      have body : S.spec.wp ((executePayout d id now dto context authorized).tryCatch
          (handlePayoutError id dto context)) (fun _ => Final) a w h :=
        Spec.wp_tryCatch_of (wp_executePayout key idle) (fun _ _ _ _ recorded => recorded.good)
          fun e a w h => wp_handlePayoutError
      refine Spec.wp_bind_of body (fun updated a w h good => wp_final ?_ good)
        fun _ _ _ _ good => good
      exact Prog.uses_bind (Prog.uses_orThrow trivial) fun _ => uses_toResponse
    · exact post.good
    · exact post.good

end

end AvaSettle.Payouts
