import AvaSettle.Async.Emits
import AvaSettle.Data.Lists
import AvaSettle.Model.Frame
import AvaSettle.Payouts.Runs

/-!
# Reconciling a payout twice

A reconciliation that finds the transaction final writes the time at which it looks as the time of the
confirmation, also where the payout has been confirmed before. So a second reconciliation leaves a
confirmed payout alone just when it does not find the transaction final, or looks in the same
millisecond.
-/

namespace AvaSettle.Payouts.Repeated
open Async
open Blockchain

/-- The receipt of the transaction stays what it is, or stays missing. -/
def Keeps (hash : Hex) (c c' : Chain) : Prop := c'.receipts hash = c.receipts hash

/-- The node says that there is no receipt only where there is none. -/
def Truthful (hash : Hex) (_ : Hist Api) (w : World) : Event Api → Prop
  | ⟨.getTransactionReceipt hash', o⟩ => hash' = hash → o.threw = true → w.chain.receipts hash = none
  | _ => True

/-- The calls over a chain on which the receipt of the transaction stays what it is. Everything but the
    lookup of that receipt is free to fail. -/
abbrev looks (hash : Hex) : Machine Api World :=
  machine (Keeps hash) (Entry fun _ => True) (Truthful hash)

/-- The rest of the world while a call is waiting. -/
abbrev Still (hash : Hex) (_ : Hist Api) : World → World → Prop := World.Env (Keeps hash)

/-- The unguarded write took effect. -/
def writes (id : Uuid) : Event Api → Bool
  | ⟨.payoutUpdate id' _ none, o⟩ => decide (id' = id) && o.performed.isSome
  | _ => false

/-- The call got to its write. -/
def Wrote (id : Uuid) (h : Hist Api) : Prop := ∃ e ∈ h, writes id e = true

/-- What the clock showed the call. -/
def clockOf (h : Hist Api) : Option Timestamp :=
  h.findSome? fun
    | ⟨.clock, .done now⟩ => some now
    | _ => none

/-- The call found the transaction final. -/
def FoundFinal (d : Deployment) (hash : Hex) (w : World) (h : Hist Api) : Prop :=
  ∃ rc head, w.chain.receipts hash = some rc ∧ h.findSome? headOf = some head ∧
    (reconciliationOf d hash rc head).finalized = true

/-- The transaction has been reverted. -/
def Reverted (hash : Hex) (w : World) : Prop :=
  ∃ rc, w.chain.receipts hash = some rc ∧ rc.status ≠ .success

/-- The columns that a reconciliation is about. -/
structure Unchanged (r r' : PayoutRecord) : Prop where
  status : r'.status = r.status
  confirmedAt : r'.confirmedAt = r.confirmedAt
  failureReason : r'.failureReason = r.failureReason
  transactionHash : r'.transactionHash = r.transactionHash

/-- What a call read of the chain. -/
def Reads (d : Deployment) (hash : Hex) (w : World) (h : Hist Api) (r : TransactionReconciliation) :
    Prop :=
  (w.chain.receipts hash = none ∧ r = pendingReconciliation d hash) ∨
    ∃ rc head, w.chain.receipts hash = some rc ∧ h.findSome? headOf = some head ∧
      r = reconciliationOf d hash rc head

/-- What a call leaves of the row: the row itself, or the row with its patch. -/
def Leaves (d : Deployment) (id : Uuid) (hash : Hex) (p : PayoutRecord) (w w' : World) (h : Hist Api) :
    Prop :=
  (¬Wrote id h ∧ w'.payouts.find? id = some p) ∨
    (Wrote id h ∧ ∃ r now t, w'.payouts.find? id = some ((reconcilePatch p r now).applyTo t p) ∧
      clockOf h = some now ∧ Reads d hash w h r)

section
variable {d : Deployment} {id : Uuid} {hash : Hex} {p : PayoutRecord} {w w' : World} {h : Hist Api}
  {context : RequestContext}

/-! ## The call -/

/-- The row and the receipt are what they were when the call was made. -/
structure Held (id : Uuid) (hash : Hex) (p : PayoutRecord) (w w' : World) : Prop where
  row : w'.payouts.find? id = some p
  receipt : w'.chain.receipts hash = w.chain.receipts hash

/-- The row and its receipt stay as the world moves by itself. -/
lemma Held.env {w'' : World} (held : Held id hash p w w') (move : World.Env (Keeps hash) w' w'') :
    Held id hash p w w'' :=
  ⟨move.payouts ▸ held.row, Eq.trans move.chain held.receipt⟩

/-- An operation that writes elsewhere leaves them. -/
lemma Held.exec {c : Call} {b : c.Res} {w'' : World} (held : Held id hash p w w')
    (apart : c.writes ≠ some .payouts) (run : World.exec c w' = some (b, w'')) :
    Held id hash p w w'' :=
  ⟨(World.exec_frame run).payouts apart ▸ held.row, (World.exec_frame run).chain ▸ held.receipt⟩

/-- An operation that does not write payouts, with the world that it found. -/
lemma leads_held {c : Call} (held : Held id hash p w w') (apart : c.writes ≠ some .payouts) :
    (looks hash).Leads (Still hash) c (fun o w' h' => Held id hash p w w' ∧ h' = h ++ [⟨c, o⟩] ∧
      Truthful hash h w' ⟨c, o⟩ ∧ ∀ b, o.answer = .ok b → ∃ w₁ w₂, Held id hash p w w₁ ∧
        World.exec c w₁ = some (b, w₂)) w' h := by
  intro w₁ o w₂ move reply ok
  have held₁ := held.env move
  have truthful {w₂ : World} (same : Held id hash p w w₂) : Truthful hash h w₂ ⟨c, o⟩ := by
    cases c
    case getTransactionReceipt =>
      exact fun eq threw => same.receipt.trans (held₁.receipt.symm.trans (ok eq threw))
    all_goals trivial
  cases o with
  | done b =>
    have held₂ := held₁.exec apart reply
    refine ⟨held₂, rfl, truthful held₂, fun b' eq => ?_⟩
    cases eq
    exact ⟨w₁, w₂, held₁, reply⟩
  | refused e =>
    obtain ⟨-, rfl⟩ := reply
    exact ⟨held₁, rfl, truthful held₁, nofun⟩
  | lost b e =>
    have held₂ := held₁.exec apart reply.1
    exact ⟨held₂, rfl, truthful held₂, nofun⟩

/-- What has been written once one more event has passed. -/
lemma wrote_append {e : Event Api} : Wrote id (h ++ [e]) ↔ Wrote id h ∨ writes id e = true := by
  simp [Wrote, or_and_right, exists_or]

/-- What has been read of the chain stays. -/
lemma Reads.append {e : Event Api} {r : TransactionReconciliation} (reads : Reads d hash w h r) :
    Reads d hash w (h ++ [e]) r := by
  rcases reads with missing | ⟨rc, head, found, told, eq⟩
  · exact .inl missing
  · exact .inr ⟨rc, head, found, Data.findSome?_concat_of_some told, eq⟩

/-- What follows such an operation. -/
lemma wp_request {c : Call} {β : Type} {k : c.Res → Method β} {Q : End Api World β}
    (held : Held id hash p w w') (apart : c.writes ≠ some .payouts)
    (error : ∀ o e w', Held id hash p w w' → Q (.error e) w' (h ++ [⟨c, o⟩]))
    (ok : ∀ o b w₁ w₂ w', o.answer = .ok b → Held id hash p w w₁ → World.exec c w₁ = some (b, w₂) →
      Held id hash p w w' → (looks hash).wp (Still hash) (k b) Q w' (h ++ [⟨c, o⟩])) :
    (looks hash).wp (Still hash) (request c >>= k) Q w' h := by
  refine Machine.wp_bind (Machine.wp_await (Machine.leads_mono (fun o w' h' post => ?_)
    (leads_held held apart)))
  obtain ⟨held', rfl, -, found⟩ := post
  cases answer : o.answer with
  | error e => exact error o e w' held'
  | ok b =>
    obtain ⟨w₁, w₂, held₁, run⟩ := found b answer
    exact ok o b w₁ w₂ w' answer held₁ run held'

/-- The row after the unguarded write. -/
lemma find?_reconciled {patch : PayoutPatch} (row : w.payouts.find? id = some p) :
    (w.updatePayout id patch none).2.payouts.find? id = some (patch.applyTo w.now p) := by
  change (Data.Table.update _ _ _ _).2.find? id = _
  rw [Data.Table.find?_update, row]
  simp [PayoutPatch.toPatch]

/-- The write of a call, refused or not. -/
lemma leads_reconcile {r : TransactionReconciliation} {now : Timestamp} (held : Held id hash p w w')
    (before : ¬Wrote id h) (shown : clockOf h = some now) (reads : Reads d hash w h r) :
    (looks hash).Leads (Still hash) (.payoutUpdate id (reconcilePatch p r now) none)
      (fun _ => Leaves d id hash p w) w' h := by
  intro w₁ o w₂ move reply _
  have held₁ := held.env move
  have written {o : Outcome Exception (Option PayoutRecord)} (performed : o.performed.isSome = true) :
      Leaves d id hash p w (w₁.updatePayout id (reconcilePatch p r now) none).2
        (h ++ [⟨.payoutUpdate id (reconcilePatch p r now) none, o⟩]) :=
    .inr ⟨wrote_append.2 (.inr (by simp [writes, performed])), r, now, w₁.now,
      find?_reconciled held₁.row, Data.findSome?_concat_of_some shown, reads.append⟩
  cases o with
  | done b =>
    cases reply
    exact written rfl
  | refused e =>
    obtain ⟨-, rfl⟩ := reply
    refine .inl ⟨fun wrote => ?_, held₁.row⟩
    rcases wrote_append.1 wrote with wrote | wrote
    · exact before wrote
    · simp [writes, Outcome.performed] at wrote
  | lost b e =>
    obtain ⟨run, -⟩ := reply
    cases run
    exact written rfl

/-- The operations after the write leave the row alone. -/
lemma leads_after {c : Call} (apart : c.writes ≠ some .payouts) (leaves : Leaves d id hash p w w' h) :
    (looks hash).Leads (Still hash) c (fun _ => Leaves d id hash p w) w' h := by
  intro w₁ o w₂ move reply _
  have same : w₂.payouts = w'.payouts := by
    rw [← move.payouts]
    cases o with
    | done b => exact (World.exec_frame reply).payouts apart
    | refused e => exact congrArg World.payouts reply.2
    | lost b e => exact (World.exec_frame reply.1).payouts apart
  have quiet : writes id ⟨c, o⟩ = false := by
    cases c <;> first | rfl | exact absurd rfl apart
  have wrote : Wrote id (h ++ [⟨c, o⟩]) ↔ Wrote id h := by
    rw [wrote_append, quiet]
    simp
  rcases leaves with ⟨before, row⟩ | ⟨after, r, now, t, row, shown, reads⟩
  · exact .inl ⟨mt wrote.1 before, same ▸ row⟩
  · exact .inr ⟨wrote.2 after, r, now, t, same ▸ row, Data.findSome?_concat_of_some shown, reads.append⟩

/-- The call has neither written nor looked at the clock. -/
structure Early (id : Uuid) (h : Hist Api) : Prop where
  unwritten : ¬Wrote id h
  unshown : clockOf h = none

/-- A call is still early after an event that neither writes nor reads the clock. -/
lemma Early.append {e : Event Api} (early : Early id h) (quiet : writes id e = false)
    (other : clockOf [e] = none) : Early id (h ++ [e]) := by
  constructor
  · rw [wrote_append, quiet]
    simpa using early.unwritten
  · have unshown := early.unshown
    rw [clockOf] at unshown other ⊢
    rw [List.findSome?_append, unshown, other, Option.none_or]

/-- What the call reads of the chain. -/
lemma wp_reconcileTransaction (held : Held id hash p w w') (early : Early id h)
    (untold : h.findSome? headOf = none) :
    (looks hash).wp (Still hash) (reconcileTransaction d hash) (fun r w' h' => Held id hash p w w' ∧
      Early id h' ∧ ∀ rec, r = .ok rec → Reads d hash w h' rec) w' h := by
  refine Machine.wp_bind (Machine.leads_mono (fun o w' h' post => ?_) (leads_held held nofun))
  obtain ⟨held, rfl, truthful, found⟩ := post
  have early := early.append (e := ⟨.getTransactionReceipt hash, o⟩) rfl rfl
  cases answer : o.answer with
  | error e =>
    have missing := truthful rfl (Outcome.threw_of_answer answer)
    refine ⟨held, early, fun rec eq => .inl ⟨held.receipt.symm.trans missing, ?_⟩⟩
    cases eq
    rfl
  | ok rc =>
    obtain ⟨w₁, w₂, held₁, run⟩ := found rc answer
    obtain ⟨rc', receipt, eq⟩ := Option.map_eq_some_iff.1 run
    cases eq
    refine wp_request held nofun (fun o e w' held => ⟨held, early.append rfl rfl, nofun⟩)
      fun o head w₁ w₂ w' answer _ _ held => ⟨held, early.append rfl rfl, fun rec eq => .inr
        ⟨rc, head, held₁.receipt.symm.trans receipt, ?_, ?_⟩⟩
    · obtain rfl := Outcome.eq_done_of_answer answer
      rw [List.findSome?_append, List.findSome?_append, untold]
      rfl
    · cases eq
      rfl

/-- A call from its beginning. -/
lemma wp_reconcilePayout (row : w.payouts.find? id = some p) (isHash : p.transactionHash = some hash) :
    (looks hash).wp (Still hash) (reconcilePayout d id context)
      (fun _ w' h => Leaves d id hash p w w' h) w [] := by
  have idle {h : Hist Api} {w' : World} (held : Held id hash p w w') (early : Early id h) :
      Leaves d id hash p w w' h := .inl ⟨early.unwritten, held.row⟩
  have held : Held id hash p w w := ⟨row, rfl⟩
  have early : Early id [] := ⟨by simp [Wrote], rfl⟩
  unfold reconcilePayout requirePayout
  rw [Prog.bind_assoc]
  refine wp_request held nofun (fun o e w' held => idle held (early.append rfl rfl))
    fun o found w₁ w₂ w' _ held₁ run held => ?_
  have early := early.append (e := ⟨.payoutFindById id context.clientId, o⟩) rfl rfl
  cases found with
  | none => exact idle held early
  | some payout =>
    obtain ⟨found, -⟩ := Option.filter_eq_some_iff.1 (congrArg Prod.fst (Option.some.inj run))
    obtain rfl : p = payout := Option.some_inj.1 (held₁.row.symm.trans found)
    refine Machine.wp_bind (Machine.wp_ofExcept.2 ?_)
    refine Machine.wp_bind (Machine.wp_orThrow (fun hash' eq => ?_) fun _ => idle held early)
    obtain rfl : hash = hash' := by
      rw [isHash] at eq
      exact Option.some_inj.1 (Option.filter_eq_some_iff.1 eq).1
    refine Machine.wp_bind (Machine.wp_mono (fun r w' h post => ?_)
      (wp_reconcileTransaction held early rfl))
    obtain ⟨held, early, reads⟩ := post
    cases r with
    | error e => exact idle held early
    | ok rec =>
      have reads := reads rec rfl
      refine wp_request held nofun (fun o e w' held => .inl ⟨?_, held.row⟩) fun o now w₁ w₂ w' answer _ _ held => ?_
      · rw [wrote_append]
        simpa [writes] using early.unwritten
      obtain rfl := Outcome.eq_done_of_answer answer
      have shown : clockOf (h ++ [(⟨.clock, .done now⟩ : Event Api)]) = some now := by
        have unshown := early.unshown
        rw [clockOf] at unshown
        rw [clockOf, List.findSome?_append, unshown]
        rfl
      have unwritten : ¬Wrote id (h ++ [(⟨.clock, .done now⟩ : Event Api)]) := by
        rw [wrote_append]
        simpa [writes] using early.unwritten
      refine Machine.wp_bind (Machine.wp_await (Machine.leads_mono (fun o w' h leaves => ?_)
        (leads_reconcile held unwritten shown reads.append)))
      cases o.answer with
      | error e => exact leaves
      | ok updated =>
        refine Machine.wp_uses (P := fun c : Call => c.writes ≠ some .payouts)
          (fun _ _ _ apart leaves => leads_after apart leaves) ?_ leaves
        refine Prog.uses_bind (Prog.uses_await (S := Api)
          (show (Call.auditInsert _).writes ≠ some _ from nofun)) fun _ => ?_
        refine Prog.uses_bind (Prog.uses_orThrow trivial) fun _ => ?_
        exact Prog.uses_bind (Prog.uses_await (S := Api)
          (show (Call.auditListBySubject _).writes ≠ some _ from nofun)) fun _ =>
          Prog.uses_pure _

end

/-! ## The hash stays -/

/-- The transaction hash of a row, when there is a row. -/
def hashOf (id : Uuid) (w : World) : Option (Option Hex) :=
  (w.payouts.find? id).map PayoutRecord.transactionHash

/-- The operation does not write transaction hashes. -/
def KeepsHashes : Call → Prop
  | .payoutInsert _ => False
  | .payoutUpdate _ patch _ => patch.transactionHash = none
  | _ => True

section
variable {d : Deployment} {id : Uuid} {hash : Hex} {w w' : World} {h : Hist Api} {context : RequestContext}

/-- An operation that keeps the transaction of a row. -/
lemma hashOf_exec {c : Call} {b : c.Res} (keeps : KeepsHashes c) (run : World.exec c w = some (b, w')) :
    hashOf id w' = hashOf id w := by
  by_cases apart : c.writes = some .payouts
  · cases c
    case payoutInsert r => exact keeps.elim
    case payoutUpdate id' patch guard =>
      cases run
      unfold hashOf
      change ((Data.Table.update _ _ _ _).2.find? id).map _ = _
      rw [Data.Table.find?_update]
      cases w.payouts.find? id with
      | none => rfl
      | some r =>
        simp only [Option.map_some]
        split
        case isTrue =>
          have untouched : patch.transactionHash = none := keeps
          simp [PayoutPatch.toPatch, PayoutPatch.applyTo, untouched]
        case isFalse => rfl
    all_goals cases apart
  · rw [hashOf, hashOf, (World.exec_frame run).payouts apart]

/-- A reconciliation uses only such operations. -/
lemma uses_reconcilePayout :
    (reconcilePayout d id context).Uses KeepsHashes fun _ => True := by
  have request {c : Call} (keeps : KeepsHashes c) : (request c).Uses KeepsHashes fun _ => True :=
    Prog.uses_await (S := Api) keeps
  refine Prog.uses_bind (Prog.uses_bind (request (c := .payoutFindById _ _) trivial) fun _ =>
    Prog.uses_ofExcept fun _ _ => trivial) fun payout => ?_
  refine Prog.uses_bind (Prog.uses_orThrow trivial) fun hash => ?_
  refine Prog.uses_bind (Prog.uses_bind (Prog.uses_awaitOr (S := Api)
    (show KeepsHashes (.getTransactionReceipt _) from trivial)) fun receipt => ?_) fun reconciliation => ?_
  · cases receipt with
    | none => exact Prog.uses_pure _
    | some rc => exact Prog.uses_bind (request (c := .getBlockNumber) trivial) fun _ => Prog.uses_pure _
  refine Prog.uses_bind (request (c := .clock) trivial) fun now => ?_
  refine Prog.uses_bind (request (c := .payoutUpdate _ _ _) rfl) fun updated => ?_
  refine Prog.uses_bind (request (c := .auditInsert _) trivial) fun _ => ?_
  refine Prog.uses_bind (Prog.uses_orThrow trivial) fun _ => ?_
  exact Prog.uses_bind (request (c := .auditListBySubject _) trivial) fun _ => Prog.uses_pure _

/-- A call leaves the hash of the row and the receipt alone. -/
lemma stays_of_runs {res : Except Exception PayoutResponse}
    (run : (looks hash).Runs (Still hash) (reconcilePayout d id context) w [] res w' h) :
    hashOf id w' = hashOf id w ∧ w'.chain.receipts hash = w.chain.receipts hash := by
  refine Machine.wp_sound (Q := fun _ w' _ => hashOf id w' = hashOf id w ∧
      w'.chain.receipts hash = w.chain.receipts hash) run
    (Machine.wp_uses (R := fun w' _ => hashOf id w' = hashOf id w ∧
      w'.chain.receipts hash = w.chain.receipts hash) (fun c w' h keeps same w₁ o w₂ move reply _ => ?_)
      uses_reconcilePayout ⟨rfl, rfl⟩)
  have moved : hashOf id w₁ = hashOf id w := by rw [← same.1, hashOf, hashOf, move.payouts]
  have receipt : w₁.chain.receipts hash = w.chain.receipts hash := Eq.trans move.chain same.2
  have exec {b : c.Res} (run : World.exec c w₁ = some (b, w₂)) : hashOf id w₂ = hashOf id w ∧
      w₂.chain.receipts hash = w.chain.receipts hash :=
    ⟨(hashOf_exec keeps run).trans moved, (World.exec_frame run).chain ▸ receipt⟩
  cases o with
  | done b => exact exec reply
  | refused e => exact reply.2 ▸ ⟨moved, receipt⟩
  | lost b e => exact exec reply.1

end

/-! ## Two calls -/

section
variable {d d' : Deployment} {id : Uuid} {hash : Hex} {p r : PayoutRecord} {w w' : World} {h : Hist Api}
  {rec : TransactionReconciliation} {now t : Timestamp}

/-- A call that leaves a payout confirmed, with its write, has not found the transaction reverted. -/
lemma not_reverted_of_confirmed (reads : Reads d hash w h rec)
    (confirmed : ((reconcilePatch p rec now).applyTo t p).status = .confirmed) : ¬Reverted hash w := by
  rintro ⟨rc, found, reverted⟩
  rcases reads with ⟨missing, -⟩ | ⟨rc', head, found', -, rfl⟩
  · cases missing.symm.trans found
  · cases found.symm.trans found'
    have status : reconciledStatus p (reconciliationOf d hash rc head) = .failed := by
      simp [reconciledStatus, reconciliationOf, reverted]
    cases status.symm.trans confirmed

/-- What a second write changes of a confirmed payout. -/
lemma unchanged_iff_of_write (confirmed : r.status = .confirmed) (shown : clockOf h = some now)
    (reads : Reads d hash w h rec) : Unchanged r ((reconcilePatch r rec now).applyTo t r) ↔
      ¬Reverted hash w ∧
        (FoundFinal d hash w h → clockOf h = r.confirmedAt ∧ r.failureReason = none) := by
  rcases reads with ⟨missing, rfl⟩ | ⟨rc, head, found, told, rfl⟩
  · have unreverted : ¬Reverted hash w := by
      rintro ⟨rc, found, -⟩
      cases missing.symm.trans found
    have open' : ¬FoundFinal d hash w h := by
      rintro ⟨rc, -, found, -⟩
      cases missing.symm.trans found
    refine iff_of_true ⟨?_, ?_, ?_, rfl⟩ ⟨unreverted, fun final => absurd final open'⟩
    all_goals simp [reconcilePatch, reconciledStatus, pendingReconciliation, PayoutPatch.applyTo]
  · by_cases success : rc.status = .success
    case neg =>
      have reverted : Reverted hash w := ⟨rc, found, success⟩
      refine iff_of_false (fun same => ?_) fun ok => ok.1 reverted
      exact not_reverted_of_confirmed (.inr ⟨rc, head, found, told, rfl⟩) (same.status.trans confirmed)
        reverted
    case pos =>
      have unreverted : ¬Reverted hash w := by
        rintro ⟨rc', found', reverted⟩
        cases found.symm.trans found'
        exact reverted success
      by_cases final : (reconciliationOf d hash rc head).finalized = true
      case pos =>
        have found : FoundFinal d hash w h := ⟨rc, head, found, told, final⟩
        rw [shown]
        constructor
        · intro same
          refine ⟨unreverted, fun _ => ⟨?_, ?_⟩⟩
          · simpa [reconcilePatch, final, PayoutPatch.applyTo] using same.confirmedAt
          · simpa [reconcilePatch, final, PayoutPatch.applyTo] using same.failureReason.symm
        · rintro ⟨-, same⟩
          obtain ⟨at', reason⟩ := same found
          refine ⟨?_, ?_, ?_, rfl⟩
          · simp [reconcilePatch, reconciledStatus, final, PayoutPatch.applyTo, confirmed]
          · simp [reconcilePatch, final, PayoutPatch.applyTo, at']
          · simp [reconcilePatch, final, PayoutPatch.applyTo, reason]
      case neg =>
        have open' : ¬FoundFinal d hash w h := by
          rintro ⟨rc', head', found', told', final'⟩
          cases found.symm.trans found'
          cases told.symm.trans told'
          exact final final'
        have status : (reconciliationOf d hash rc head).status ≠ .reverted := by
          simp [reconciliationOf, success]
        refine iff_of_true ⟨?_, ?_, ?_, rfl⟩ ⟨unreverted, fun final => absurd final open'⟩
        all_goals simp [reconcilePatch, reconciledStatus, final, status, PayoutPatch.applyTo]

end

/-- Two reconciliations of a payout, with the same receipt or none throughout: where the first one leaves
    the payout confirmed, the second one leaves it as it is if and only if it does not get to its write, or
    the transaction has not been reverted, unless the first one did not get to its write either, and the
    second one does not find it final, unless the clock shows it the time that is recorded and no failure
    is recorded. -/
theorem repeated_iff {d d' : Deployment} {id : Uuid} {hash : Hex} {context context' : RequestContext}
    {w₀ w₁ w₂ w₃ : World} {h₁ h₂ : Hist Api} {res₁ res₂ : Except Exception PayoutResponse}
    {r : PayoutRecord}
    (first : (looks hash).Runs (Still hash) (reconcilePayout d id context) w₀ [] res₁ w₁ h₁)
    (between : World.Env (Keeps hash) w₁ w₂)
    (second : (looks hash).Runs (Still hash) (reconcilePayout d' id context') w₂ [] res₂ w₃ h₂)
    (row : w₁.payouts.find? id = some r) (isHash : r.transactionHash = some hash)
    (confirmed : r.status = .confirmed) :
    ∃ r', w₃.payouts.find? id = some r' ∧ (Unchanged r r' ↔
      (Wrote id h₂ → (Wrote id h₁ ∨ ¬Reverted hash w₁) ∧
        (FoundFinal d' hash w₁ h₂ → clockOf h₂ = r.confirmedAt ∧ r.failureReason = none))) := by
  have row₂ : w₂.payouts.find? id = some r := between.payouts ▸ row
  have receipt : w₂.chain.receipts hash = w₁.chain.receipts hash := between.chain
  have reverted : Reverted hash w₂ ↔ Reverted hash w₁ := by rw [Reverted, Reverted, receipt]
  have final : FoundFinal d' hash w₂ h₂ ↔ FoundFinal d' hash w₁ h₂ := by
    rw [FoundFinal, FoundFinal, receipt]
  -- a first call that got to its write has seen that the transaction is not reverted
  have unreverted (wrote : Wrote id h₁) : ¬Reverted hash w₁ := by
    obtain ⟨same, receipt⟩ := stays_of_runs first
    rw [hashOf, hashOf, row] at same
    obtain ⟨p, row₀, isHash₀⟩ := Option.map_eq_some_iff.1 same.symm
    rcases Machine.wp_sound first (wp_reconcilePayout row₀ (isHash₀.trans isHash)) with
      ⟨unwritten, -⟩ | ⟨-, rec, now, t, row', shown, reads⟩
    · exact absurd wrote unwritten
    · cases row.symm.trans row'
      rw [Reverted, receipt]
      exact not_reverted_of_confirmed reads confirmed
  rcases Machine.wp_sound second (wp_reconcilePayout row₂ isHash) with
    ⟨unwritten, row'⟩ | ⟨wrote, rec, now, t, row', shown, reads⟩
  · exact ⟨r, row', iff_of_true ⟨rfl, rfl, rfl, rfl⟩ fun wrote => absurd wrote unwritten⟩
  · refine ⟨_, row', ?_⟩
    rw [unchanged_iff_of_write confirmed shown reads, reverted, final]
    constructor
    · exact fun same _ => ⟨.inr same.1, same.2⟩
    · intro same
      obtain ⟨seen, rest⟩ := same wrote
      exact ⟨seen.elim unreverted fun h => h, rest⟩

/-! ## Concrete calls -/

/-- Every operation is answered. -/
def answered (_ : Hist Api) (_ : World) (e : Event Api) : Bool := !e.outcome.threw

/-- The check of the concrete runs decides the condition. -/
lemma truthful_of_answered {hash : Hex} {h : Hist Api} {w : World} {e : Event Api}
    (ok : answered h w e = true) : Truthful hash h w e := by
  obtain ⟨c, o⟩ := e
  cases c
  case getTransactionReceipt =>
    intro _ threw
    simp [answered, threw] at ok
  all_goals trivial

/-- A reconciliation of the payout of the concrete runs. -/
def sampleReconcile : Method PayoutResponse :=
  reconcilePayout asyncDeployment World.sampleId .sample

/-- The time after a while. -/
def wait (ms : Nat) (w : World) : World := { w with now := w.now + ms }

/-- The schedule on which a payout is sent, and its transaction mined. -/
def mined : List (Choice Api World) :=
  .enter (createPayout asyncDeployment sampleDto .sample).discard ::
    (Choice.steps 0 11 ++ [.env mine])

/-- A reconciliation without failures. -/
def look (w : World) : Option (Except Exception PayoutResponse × World × Hist Api) :=
  (looks "0x01").play answered sampleReconcile (.replicate 7 .done) w []

/-- The payout is sent and confirmed by a reconciliation, and there is another one after a while. -/
lemma exists_calls (ms : Nat) (P : PayoutRecord → PayoutRecord → Bool)
    (res : (((growingLedger asyncDeployment fun _ _ _ => True).run Machine.always mined
      ⟨.sample, []⟩).any fun s => (look s.world).any fun q => (look (wait ms q.2.1)).any fun q' =>
        (q.2.1.payouts.find? World.sampleId).any fun r =>
          (q'.2.1.payouts.find? World.sampleId).any fun r' =>
            decide (r.transactionHash = some "0x01" ∧ r.status = .confirmed) && P r r') = true) :
    ∃ s res₁ w₁ h₁ w₂ res₂ w₃ h₂ r r',
      (growingLedger asyncDeployment fun _ _ _ => True).Reachable .sample s ∧
      (looks "0x01").Runs (Still "0x01") sampleReconcile s.world [] res₁ w₁ h₁ ∧
      World.Env (Keeps "0x01") w₁ w₂ ∧
      (looks "0x01").Runs (Still "0x01") sampleReconcile w₂ [] res₂ w₃ h₂ ∧
      w₁.payouts.find? World.sampleId = some r ∧ r.transactionHash = some "0x01" ∧
      r.status = .confirmed ∧ w₃.payouts.find? World.sampleId = some r' ∧ P r r' = true := by
  obtain ⟨s, ran, res⟩ := (Option.any_eq_true _ _).1 res
  obtain ⟨⟨res₁, w₁, h₁⟩, first, res⟩ := (Option.any_eq_true _ _).1 res
  obtain ⟨⟨res₂, w₃, h₂⟩, second, res⟩ := (Option.any_eq_true _ _).1 res
  obtain ⟨r, row, res⟩ := (Option.any_eq_true _ _).1 res
  obtain ⟨r', row', res⟩ := (Option.any_eq_true _ _).1 res
  obtain ⟨columns, holds⟩ := Bool.and_eq_true_iff.1 res
  obtain ⟨isHash, confirmed⟩ := of_decide_eq_true columns
  have reach : (growingLedger asyncDeployment fun _ _ _ => True).Reachable .sample s :=
    Machine.steps_of_run (fun _ _ _ _ => trivial) (by
      simp only [mined, List.forall_mem_cons, List.forall_mem_append]
      exact ⟨.createPayout rfl, Choice.legal_steps, env_mine, by simp⟩) ran
  have refl (w : World) : World.Env (Keeps "0x01") w w := ⟨rfl, rfl, rfl, rfl, rfl, rfl, rfl, rfl, rfl⟩
  exact ⟨s, res₁, w₁, h₁, wait ms w₁, res₂, w₃, h₂, r, r', reach,
    Machine.runs_of_play (fun _ _ _ => truthful_of_answered) (fun _ => refl) first,
    ⟨rfl, rfl, rfl, rfl, rfl, rfl, rfl, rfl, rfl⟩,
    Machine.runs_of_play (fun _ _ _ => truthful_of_answered) (fun _ => refl) second,
    row, isHash, confirmed, row', holds⟩

/-- Two reconciliations in one millisecond. -/
theorem repeated_iff_of_samples : ∃ s res₁ w₁ h₁ w₂ res₂ w₃ h₂ r r',
    (growingLedger asyncDeployment fun _ _ _ => True).Reachable .sample s ∧
    (looks "0x01").Runs (Still "0x01") sampleReconcile s.world [] res₁ w₁ h₁ ∧
    (looks "0x01").Runs (Still "0x01") sampleReconcile w₂ [] res₂ w₃ h₂ ∧
    w₁.payouts.find? World.sampleId = some r ∧ w₃.payouts.find? World.sampleId = some r' ∧
    (Unchanged r r' ↔ (Wrote World.sampleId h₂ → (Wrote World.sampleId h₁ ∨ ¬Reverted "0x01" w₁) ∧
      (FoundFinal asyncDeployment "0x01" w₁ h₂ →
        clockOf h₂ = r.confirmedAt ∧ r.failureReason = none))) := by
  obtain ⟨s, res₁, w₁, h₁, w₂, res₂, w₃, h₂, r, r', reach, first, between, second, row, isHash, confirmed,
    row', -⟩ := exists_calls 0 (fun _ _ => true) (by decide +kernel)
  obtain ⟨r'', found, iff⟩ := repeated_iff first between second row isHash confirmed
  cases row'.symm.trans found
  exact ⟨s, res₁, w₁, h₁, w₂, res₂, w₃, h₂, r, r', reach, first, second, row, row', iff⟩

/-- A payout that is confirmed at time 0 and looked at again a second later: the time of its confirmation
    is overwritten. -/
theorem confirmation_moved : ∃ s res₁ w₁ h₁ w₂ res₂ w₃ h₂ r r',
    (growingLedger asyncDeployment fun _ _ _ => True).Reachable .sample s ∧
    (looks "0x01").Runs (Still "0x01") sampleReconcile s.world [] res₁ w₁ h₁ ∧
    World.Env (Keeps "0x01") w₁ w₂ ∧
    (looks "0x01").Runs (Still "0x01") sampleReconcile w₂ [] res₂ w₃ h₂ ∧
    w₁.payouts.find? World.sampleId = some r ∧ r.transactionHash = some "0x01" ∧
    r.status = .confirmed ∧ w₃.payouts.find? World.sampleId = some r' ∧ ¬Unchanged r r' := by
  obtain ⟨s, res₁, w₁, h₁, w₂, res₂, w₃, h₂, r, r', reach, first, between, second, row, isHash, confirmed,
    row', moved⟩ := exists_calls 1000 (fun r r' => decide (r'.confirmedAt ≠ r.confirmedAt))
      (by decide +kernel)
  exact ⟨s, res₁, w₁, h₁, w₂, res₂, w₃, h₂, r, r', reach, first, between, second, row, isHash, confirmed,
    row', fun same => of_decide_eq_true moved same.confirmedAt⟩

end AvaSettle.Payouts.Repeated
