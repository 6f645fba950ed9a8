import AvaSettle.Payouts.Walk

/-!
# Payout calls: the vault batch

A batch claims its legs one by one and sends one transaction for all of them. Its writes run side by
side: a rejected `Promise.all` leaves calls in flight, each of which still owns the claim on its leg
or, after the submission, owns nothing.
-/

namespace AvaSettle.Payouts
open Async
open Blockchain

section
variable {S : Setting} {d : Deployment} {own a : Claims} {ids : List Uuid} {id : Uuid} {w : World}
  {h : Hist Api}

/-! ## Writes side by side -/

/-- Each of the calls left behind gives up the claim on its leg. -/
lemma detach_giveUp {patch : PayoutPatch} (status : patch.status = some .prepared ∨
    patch.status = some .failed) (noHash : patch.transactionHash = none)
    (unsent : Unsent ids a w h) :
    S.spec.detach (ids.map fun id => updateAuthorized id patch) a w h := by
  obtain ⟨rfl, noLate, unsent⟩ := unsent
  induction ids with
  | nil => rfl
  | cons id ids ih =>
    refine ⟨{id}, ids, rfl, ?_, ih⟩
    exact Spec.op_mono (fun _ _ _ _ _ => trivial) (op_giveUpLast status noHash ⟨rfl, noLate, unsent⟩)

/-- The claims of a batch are given up side by side. -/
lemma wp_giveUpAll {β : Type} {patch : PayoutPatch} (status : patch.status = some .prepared ∨
    patch.status = some .failed) (noHash : patch.transactionHash = none)
    {slots : List (Slot Api β)}
    (pending : Slot.pending slots = ids.map fun id => updateAuthorized id patch)
    (unsent : Unsent ids a w h) :
    S.spec.wp (.promiseAll slots) (fun _ => Final) a w h := by
  refine Spec.wp_promiseAll (J := fun slots a w h => ∃ ids : List Uuid,
    Slot.pending slots = ids.map (fun id => updateAuthorized id patch) ∧ Unsent ids a w h) ⟨?_, ?_⟩
    ⟨ids, pending, unsent⟩
  · rintro xs op post ys a w h ⟨ids, pending, unsent⟩
    rw [Slot.pending_append, Slot.pending_todo] at pending
    obtain ⟨l, r, rfl, left, right⟩ := List.append_eq_map_iff.1 pending
    obtain ⟨id, r, rfl, rfl, right'⟩ := List.map_eq_cons_iff.1 right
    have rest : Slot.pending xs ++ Slot.pending ys =
        (l ++ r).map fun id => updateAuthorized id patch := by
      rw [List.map_append, left, right']
    have unsent' : Unsent ({id} + ((l ++ r : List Uuid) : Claims)) a w h :=
      ⟨unsent.share.trans (Multiset.coe_eq_coe.2 List.perm_middle), unsent.noLate, unsent.unsent⟩
    refine Spec.op_mono (fun o a w h unsent => ⟨fun b _ => ⟨l ++ r, ?_, unsent⟩, fun e _ => ?_⟩)
      (op_giveUp status noHash unsent')
    · simpa using rest
    · refine ⟨0, a, (zero_add a).symm, unsent.good, ?_⟩
      rw [Slot.pending_append, rest]
      exact detach_giveUp status noHash unsent
  · rintro slots bs a w h ⟨ids, -, unsent⟩ -
    exact unsent.good

/-- The legs of a batch that owns nothing are written side by side. -/
lemma wp_updates {β : Type} {patch : PayoutPatch} {R : Assertion}
    (share : ∀ {a w h}, R a w h → a = 0)
    (keep : ∀ id ∈ ids, ∀ a w h, R a w h → S.spec.op (updateAuthorized id patch) (fun _ => R) a w h)
    {slots : List (Slot Api β)} (uses : ∀ s ∈ slots, Prog.SlotUses
      (fun c => ∃ id ∈ ids, c = updateAuthorized id patch) (fun _ => True) s) (hR : R a w h) :
    S.spec.wp (.promiseAll slots) (fun _ => R) a w h := by
  refine Spec.wp_mono (fun _ _ _ _ post => post.1) (Spec.wp_uses (fun _ _ _ _ => trivial) ?_ ?_
    (Prog.uses_promiseAll uses) hR)
  · rintro c a w h ⟨id, mem, rfl⟩ hR
    exact keep id mem a w h hR
  · rintro c a w h ⟨id, mem, rfl⟩ hR
    obtain rfl := share hR
    exact Spec.op_mono (fun _ _ _ _ _ => trivial) (keep id mem 0 w h hR)

/-! ## The claims -/

/-- The writes that release the claims of a batch. -/
lemma pending_rollback (claimed : List PayoutRecord) :
    Slot.pending (claimed.map rollbackSlot) =
      (claimed.map PayoutRecord.id).map fun id => updateAuthorized id rollbackPatch := by
  rw [List.map_map]
  exact Slot.pending_map fun _ => rfl

/-- What the claim loop leaves: the call owns every leg it returns. -/
def ClaimedAll : After (List PayoutRecord)
  | .ok claimed => Idle (claimed.map PayoutRecord.id)
  | .error _ => Final

/-- The claims of a batch are owned by it, or given up again. -/
lemma wp_claimBatch {now : Timestamp} {payouts claimed : List PayoutRecord}
    (idle : Idle (claimed.map PayoutRecord.id) a w h) :
    S.spec.wp (claimBatch now payouts claimed) ClaimedAll a w h := by
  induction payouts generalizing claimed a w h with
  | nil => exact idle
  | cons payout payouts ih =>
    refine Spec.wp_bind (Spec.wp_await (Spec.op_mono ?_ (op_claim idle)))
    rintro ((_ | authorized) | e | ⟨b, e⟩) a w h post
    · refine Spec.wp_bind_of (wp_giveUpAll (.inl rfl) rfl (pending_rollback claimed) post.unsent_of)
        (fun _ a w h good => good) fun _ _ _ _ good => good
    · obtain ⟨key, idle⟩ := post
      refine ih ⟨?_, idle.noLate, idle.unsent, idle.unmarked⟩
      rw [idle.share, List.map_append, ← Multiset.coe_add, add_comm]
      simp [key]
    · exact post.good
    · exact post.good

/-! ## The settlement -/

/-- The state of the ledger writes of a settled batch. -/
structure Recording (strict : Prop) (exec : TransferExecution) (now : Timestamp)
    (claimed : List PayoutRecord) (slots : List (Slot Api (Option PayoutRecord)))
    (a : Claims) (w : World) (h : Hist Api) : Prop where
  sent : Sent (claimed.map PayoutRecord.id) a w h
  evidence : Evidence strict w exec
  each : ∀ s ∈ slots, (∃ b, s = .done b) ∨ ∃ c ∈ claimed, s = batchRecordSlot exec now c
  settled : ∀ c ∈ claimed, Settled w c.id ∨ batchRecordSlot exec now c ∈ slots

/-- The write of a leg is told by its row. -/
lemma id_of_batchRecordSlot {exec : TransferExecution} {now : Timestamp} {c c' : PayoutRecord}
    (eq : batchRecordSlot exec now c = batchRecordSlot exec now c') : c.id = c'.id := by
  injection eq with eq
  injection eq

/-- What the ledger writes of a settled batch leave. -/
def RecordedAll {α : Type} (ids : List Uuid) : After α
  | .ok _ => Recorded ids
  | .error e => fun a w h => Late ids a w h ∧ NotConflict e

/-- The ledger writes still in flight after a throw. -/
lemma detach_record {exec : TransferExecution} {now : Timestamp}
    {claimed : List PayoutRecord} {slots : List (Slot Api (Option PayoutRecord))}
    (all : ∀ s ∈ slots, (∃ b, s = .done b) ∨ ∃ c ∈ claimed, s = batchRecordSlot exec now c)
    (evidence : Evidence S.strict w exec) (late : Late (claimed.map PayoutRecord.id) 0 w h) :
    S.spec.detach (Slot.pending slots) 0 w h := by
  refine Spec.detach_of (P := fun c => ∃ id ∈ claimed.map PayoutRecord.id,
    c = updateAuthorized id (recordPatch exec now)) (E := fun _ => True) ?_ fun s mem => ?_
  · rintro c ⟨id, mem, rfl⟩
    exact Spec.op_mono (fun _ _ _ _ _ => trivial)
      (op_late mem (fun w' later => ⟨.inr ⟨exec, now, rfl, evidence.later later⟩⟩) late)
  · rcases all s mem with ⟨b, rfl⟩ | ⟨c, claims, rfl⟩
    · trivial
    · exact ⟨⟨c.id, List.mem_map_of_mem claims, rfl⟩, fun _ _ _ _ => trivial⟩

/-- One of the ledger writes is performed. -/
lemma op_recordLeg {exec : TransferExecution} {now : Timestamp} {claimed : List PayoutRecord}
    {c : PayoutRecord} {xs ys : List (Slot Api (Option PayoutRecord))} (mem : c ∈ claimed)
    (recording : Recording S.strict exec now claimed (xs ++ batchRecordSlot exec now c :: ys) a w h) :
    S.spec.op (updateAuthorized c.id (recordPatch exec now)) (fun o a w h =>
      (∀ b, o.answer = .ok b → Recording S.strict exec now claimed (xs ++ .done b :: ys) a w h) ∧
      ∀ e, o.answer = .error e → ∃ a₁ a₂, a = a₁ + a₂ ∧
        RecordedAll (claimed.map PayoutRecord.id) (.error e : Except Exception Unit) a₁ w h ∧
          S.spec.detach (Slot.pending (xs ++ ys)) a₂ w h) a w h := by
  obtain ⟨sent, evidence, each, settled⟩ := recording
  have others : ∀ s ∈ xs ++ ys, (∃ b, s = .done b) ∨
      ∃ c ∈ claimed, s = batchRecordSlot exec now c := fun s mem =>
    each s (by rcases List.mem_append.1 mem with mem | mem <;> simp [mem])
  have rest : ∀ c' ∈ claimed, c'.id ≠ c.id →
      Settled w c'.id ∨ batchRecordSlot exec now c' ∈ xs ++ ys := fun c' mem' ne =>
    (settled c' mem').imp_right fun mem => by
      simp only [List.mem_append, List.mem_cons] at mem ⊢
      rcases mem with mem | eq | mem
      · exact .inl mem
      · exact absurd (id_of_batchRecordSlot eq) ne
      · exact .inr mem
  -- what is known of the other legs and of the transaction survives the write
  let R (w : World) : Prop := Evidence S.strict w exec ∧ (∀ id ∈ claimed.map PayoutRecord.id,
    id ∈ w.paid) ∧ ∀ c' ∈ claimed, c'.id ≠ c.id →
      Settled w c'.id ∨ batchRecordSlot exec now c' ∈ xs ++ ys
  have later : ∀ {w w'}, Later S.strict w w' → R w → R w' := fun l ⟨ev, paid, rest⟩ =>
    ⟨ev.later l, fun id mem => l.paid id (paid id mem), fun c' mem ne =>
      (rest c' mem ne).imp_left fun settled =>
        settled.later (paid _ (List.mem_map_of_mem mem)) l⟩
  have thrown : ∀ {a w h} (e : Exception), Late (claimed.map PayoutRecord.id) a w h →
      e.isForeign = true → Evidence S.strict w exec →
      (∀ b, (.error e : Except Exception (Option PayoutRecord)) = .ok b →
        Recording S.strict exec now claimed (xs ++ .done b :: ys) a w h) ∧
      ∀ e', (.error e : Except Exception (Option PayoutRecord)) = .error e' →
        ∃ a₁ a₂, a = a₁ + a₂ ∧
          RecordedAll (claimed.map PayoutRecord.id) (.error e' : Except Exception Unit) a₁ w h ∧
            S.spec.detach (Slot.pending (xs ++ ys)) a₂ w h := by
    intro a w h e late foreign evidence
    obtain rfl := late.share
    refine ⟨fun _ eq => (by cases eq), fun e' eq => ?_⟩
    cases eq
    exact ⟨0, 0, rfl, ⟨late, notConflict_of_foreign e foreign⟩, detach_record others evidence late⟩
  refine Spec.op_mono ?_ (Spec.op_frame (R := R) later ⟨evidence, sent.paid, rest⟩
    (Spec.op_raises (op_record (List.mem_map_of_mem mem) evidence sent)))
  rintro (b | e | ⟨b, e⟩) a w h ⟨⟨post, raises⟩, evidence, -, rest⟩
  · refine ⟨fun b' eq => ?_, fun _ eq => by cases eq⟩
    cases eq
    refine ⟨post.1, evidence, fun s mem => ?_, fun c' mem' => ?_⟩
    · rw [List.mem_append, List.mem_cons] at mem
      rcases mem with mem | rfl | mem
      · exact others s (List.mem_append_left _ mem)
      · exact .inl ⟨b, rfl⟩
      · exact others s (List.mem_append_right _ mem)
    · by_cases key : c'.id = c.id
      · exact .inl (key ▸ post.2)
      · refine (rest c' mem' key).imp_right fun mem => ?_
        rcases List.mem_append.1 mem with mem | mem <;> simp [mem]
  · exact thrown e post (raises e rfl) evidence
  · exact thrown e post (raises e rfl) evidence

/-- The ledger writes of a batch that has been sent. -/
lemma wp_recordAll {exec : TransferExecution} {now : Timestamp} {claimed : List PayoutRecord}
    (sent : Sent (claimed.map PayoutRecord.id) a w h) (evidence : Evidence S.strict w exec) :
    S.spec.wp (.promiseAll (claimed.map (batchRecordSlot exec now)))
      (RecordedAll (claimed.map PayoutRecord.id)) a w h := by
  refine Spec.wp_promiseAll (J := Recording S.strict exec now claimed) ⟨?_, ?_⟩
    ⟨sent, evidence, fun s mem => ?_, fun c mem => .inr (List.mem_map_of_mem mem)⟩
  · rintro xs op post ys a w h recording
    obtain ⟨b, eq⟩ | ⟨c, mem, eq⟩ := recording.each (.todo op post) (by simp)
    · cases eq
    cases eq
    exact op_recordLeg mem recording
  · rintro slots bs a w h ⟨sent, -, -, settled⟩ res
    refine ⟨sent.share, sent.unmarked, sent.paid, fun id mem => ?_⟩
    obtain ⟨c, claims, rfl⟩ := List.mem_map.1 mem
    refine (settled c claims).resolve_right fun pending => ?_
    obtain ⟨b, eq⟩ := Slot.done_of_results res _ pending
    cases eq
  · obtain ⟨c, claims, rfl⟩ := List.mem_map.1 mem
    exact .inr ⟨c, claims, rfl⟩

/-- The body of the `try` sends the claimed legs once, and records them. -/
lemma wp_executeBatch {asset : SettlementAsset} {now : Timestamp} {dto : AuthorizePayoutDto}
    {context : RequestContext} {claimed : List PayoutRecord}
    (idle : Idle (claimed.map PayoutRecord.id) a w h) :
    S.spec.wp (executeBatch d asset now dto context claimed)
      (Executed (claimed.map PayoutRecord.id)) a w h := by
  refine Spec.wp_bind_of (wp_vaultPayoutBatch idle) (fun exec a w h ⟨sent, evidence⟩ => ?_)
    fun e a w h post => post.imp_right fun late => ⟨late.2, .inl late.1⟩
  refine Spec.wp_bind_of (wp_recordAll sent evidence) (fun updated a w h recorded => ?_)
    fun e a w h post => .inr ⟨post.2, .inl post.1⟩
  exact wp_recorded (Prog.uses_bind (Prog.uses_forEach fun _ _ => uses_announceLeg)
    fun _ => trivial) recorded

/-! ## The handler -/

/-- The writes that mark the legs of a batch. -/
lemma pending_batchFail {patch : PayoutPatch} (claimed : List PayoutRecord) :
    Slot.pending (claimed.map (batchFailSlot patch)) =
      (claimed.map PayoutRecord.id).map fun id => updateAuthorized id patch := by
  induction claimed with
  | nil => rfl
  | cons c claimed ih => exact congrArg (_ :: ·) ih

/-- An element of the handler's `Promise.all` is such a write. -/
lemma uses_batchFail {patch : PayoutPatch} {claimed : List PayoutRecord}
    {s : Slot Api Unit} (mem : s ∈ claimed.map (batchFailSlot patch)) :
    Prog.SlotUses (fun c => ∃ id ∈ claimed.map PayoutRecord.id, c = updateAuthorized id patch)
      (fun _ => True) s := by
  obtain ⟨c, claims, rfl⟩ := List.mem_map.1 mem
  exact ⟨⟨c.id, List.mem_map_of_mem claims, rfl⟩, fun _ _ _ _ => trivial⟩

/-- The legs of a batch are marked failed. -/
lemma wp_failAll {failureReason : String} {claimed : List PayoutRecord}
    (post : Idle (claimed.map PayoutRecord.id) a w h ∨ Late (claimed.map PayoutRecord.id) a w h ∨
      Recorded (claimed.map PayoutRecord.id) a w h) :
    S.spec.wp (.promiseAll (claimed.map (batchFailSlot (failPatch failureReason))))
      (fun _ => Final) a w h := by
  rcases post with idle | late | recorded
  · exact wp_giveUpAll (.inr rfl) rfl (pending_batchFail claimed) idle.unsent_of
  · exact Spec.wp_mono (fun _ _ _ _ late => late.good) (wp_updates Late.share
      (fun id mem a w h late => op_late mem (fun _ _ => ⟨.inl rfl⟩) late)
      (fun s => uses_batchFail) late)
  · exact Spec.wp_mono (fun _ _ _ _ recorded => recorded.good) (wp_updates Recorded.share
      (fun id mem a w h recorded => op_recorded mem recorded) (fun s => uses_batchFail) recorded)

/-- The handler marks legs failed that something late has thrown for. -/
lemma wp_handleBatchError {dto : AuthorizePayoutDto} {context : RequestContext}
    {claimed : List PayoutRecord} {e : Exception}
    (post : (Executed (claimed.map PayoutRecord.id) : After (List (Option PayoutRecord)))
      (.error e) a w h) :
    S.spec.wp (handleBatchError dto context claimed e) (fun _ => Final) a w h := by
  unfold handleBatchError
  dsimp only
  split
  case isTrue conflict =>
    have idle : Idle (claimed.map PayoutRecord.id) a w h :=
      post.elim (fun idle => idle) fun other => absurd other.1 (by simp [NotConflict, conflict])
    exact Spec.wp_bind_of
      (wp_giveUpAll (.inl rfl) rfl (pending_batchFail claimed) idle.unsent_of)
      (fun _ a w h good => wp_final (Prog.uses_throw trivial) good) fun _ _ _ _ good => good
  case isFalse =>
    refine Spec.wp_bind_of (wp_failAll (post.imp_right fun other => other.2))
      (fun _ a w h good => wp_final ?_ good) fun _ _ _ _ good => good
    refine Prog.uses_bind (Prog.uses_promiseAll fun s mem => ?_) fun _ => Prog.uses_throw trivial
    obtain ⟨c, -, rfl⟩ := List.mem_map.1 mem
    exact ⟨rfl, fun _ _ _ _ => trivial⟩

/-! ## The batch -/

/-- The responses to a batch are neutral. -/
lemma uses_toResponses {updated : List PayoutRecord} :
    (Prog.promiseAll (updated.map toResponseSlot)).Uses Neutral fun _ => True := by
  refine Prog.uses_promiseAll fun s mem => ?_
  obtain ⟨c, -, rfl⟩ := List.mem_map.1 mem
  exact ⟨rfl, fun _ _ _ _ => trivial⟩

/-- What a batch does with its claimed legs leaves a good history. -/
lemma wp_settleBatch {asset : SettlementAsset} {now : Timestamp} {dto : AuthorizePayoutDto}
    {context : RequestContext} {claimed : List PayoutRecord}
    (idle : Idle (claimed.map PayoutRecord.id) a w h) :
    S.spec.wp (settleBatch d asset now dto context claimed) (fun _ => Final) a w h := by
  refine Spec.wp_bind_of (wp_keep (Prog.uses_promiseAll fun s mem => ?_) Idle.stable idle)
    (fun _ a w h idle => ?_) fun _ _ _ _ idle => idle.good
  · obtain ⟨c, -, rfl⟩ := List.mem_map.1 mem
    exact ⟨rfl, fun _ _ _ _ => trivial⟩
  · have body : S.spec.wp ((executeBatch d asset now dto context claimed).tryCatch
        (handleBatchError dto context claimed)) (fun _ => Final) a w h :=
      Spec.wp_tryCatch_of (wp_executeBatch idle) (fun _ _ _ _ recorded => recorded.good)
        fun e a w h => wp_handleBatchError
    exact Spec.wp_bind_of body (fun updated a w h good => wp_final uses_toResponses good)
      fun _ _ _ _ good => good

/-- A batch leaves a good history. -/
lemma wp_authorizePayoutBatch {payoutIds : List Uuid} {dto : AuthorizePayoutDto}
    {context : RequestContext} (idle : Idle 0 a w h) :
    S.spec.wp (authorizePayoutBatch d payoutIds dto context) (fun _ => Final) a w h := by
  have before : ∀ {α : Type} {p : Method α} {f : α → Method (List PayoutResponse)} {a w h},
      p.Uses Neutral (fun _ => True) → Idle 0 a w h →
      (∀ b a w h, Idle 0 a w h → S.spec.wp (f b) (fun _ => Final) a w h) →
      S.spec.wp (p >>= f) (fun _ => Final) a w h := fun uses idle rest =>
    Spec.wp_bind_of (wp_keep uses Idle.stable idle) rest fun _ _ _ _ idle => idle.good
  refine before (Prog.uses_require fun _ => trivial) idle fun _ a w h idle => ?_
  split
  case h_1 => exact idle.good
  case h_2 ids _ =>
    refine before (Prog.uses_promiseAll fun s mem => ?_) idle fun payouts a w h idle => ?_
    · obtain ⟨id, -, rfl⟩ := List.mem_map.1 mem
      exact ⟨rfl, fun _ _ _ _ => trivial⟩
    refine before (Prog.uses_orThrow trivial) idle fun first a w h idle => ?_
    refine before (Prog.uses_require fun _ => trivial) idle fun _ a w h idle => ?_
    refine before (Prog.uses_require fun _ => trivial) idle fun _ a w h idle => ?_
    refine before uses_getAssetBalance idle fun _ a w h idle => ?_
    refine before (Prog.uses_require fun _ => trivial) idle fun _ a w h idle => ?_
    refine before (uses_request rfl) idle fun now a w h idle => ?_
    have claims : S.spec.wp (claimBatch now payouts []) ClaimedAll a w h := wp_claimBatch idle
    exact Spec.wp_bind_of claims (fun claimed a w h idle => wp_settleBatch idle)
      fun _ _ _ _ good => good

end

end AvaSettle.Payouts
