import Mathlib.Data.Multiset.AddSub
import Mathlib.Data.Multiset.UnionInter
import AvaSettle.Payouts.Service

/-!
# The payout ledger

The invariant of the payout table together with the transactions that have been sent, and the effect
of each kind of write on it. A call that has moved a row from `prepared` to `authorized` owns the
claim on it until it sends the payment or gives the claim up; the claims of all calls form a multiset
of ids. Every write is one of six: a new row, a claim, a claim given up, a submission, the settlement
of a row that has been sent, and the unguarded write of a reconciliation.

`strict` says that the chain keeps successful receipts and that reconciliations are well timed; under
it a confirmed row is also known to have a successful receipt and to stay confirmed.
-/

namespace AvaSettle.Payouts
open Data (Table Patch)
open Blockchain

/-- The claims on rows that calls own. -/
abbrev Claims := Multiset Uuid

/-- A row in itself, and against what has been sent. -/
structure RowOk (strict : Prop) (w : World) (r : PayoutRecord) : Prop where
  /-- A prepared payout has not been sent. -/
  unpaid : r.status = .prepared → r.id ∉ w.paid
  /-- A payout without a transfer has no transaction. -/
  unsent : r.status = .prepared ∨ r.status = .authorized → r.transactionHash = none
  /-- A payout with a transfer has its transaction. -/
  sent : r.status = .broadcasted ∨ r.status = .confirmed → r.transactionHash ≠ none
  /-- A confirmed payout has its time. -/
  confirmedAt : r.status = .confirmed → r.confirmedAt ≠ none
  /-- A confirmed payout has its receipt. -/
  receipt : strict → r.status = .confirmed →
    ∃ h rc, r.transactionHash = some h ∧ w.chain.receipts h = some rc ∧ rc.status = .success

/-- The invariant of the ledger and of the claims of all calls. -/
structure Inv (strict : Prop) (w : World) (a : Claims) : Prop where
  /-- A row is claimed by one call. -/
  claims : a.Nodup
  /-- A claimed row is authorized and has not been sent. -/
  claimed : ∀ id ∈ a, ∃ r, w.payouts.find? id = some r ∧ r.status = .authorized ∧ id ∉ w.paid
  /-- Every row is in order. -/
  rows : ∀ id r, w.payouts.find? id = some r → RowOk strict w r
  /-- Only rows are sent. -/
  paid_row : ∀ id ∈ w.paid, ∃ r, w.payouts.find? id = some r
  /-- A row is sent once. -/
  paid_nodup : w.paid.Nodup

/-- How a row may change while a call is waiting. -/
structure RowLater (strict : Prop) (w : World) (r r' : PayoutRecord) : Prop where
  /-- A transaction hash stays. -/
  hash : r.transactionHash ≠ none → r'.transactionHash = r.transactionHash
  /-- A payout that has been sent is not authorized again. -/
  settled : r.id ∈ w.paid → r.status ≠ .authorized → r'.status ≠ .authorized
  /-- A confirmed payout stays confirmed. -/
  confirmed : strict → r.status = .confirmed → r'.status = .confirmed

/-- How the world may change while a call is waiting. -/
structure Later (strict : Prop) (w w' : World) : Prop where
  /-- What has been sent stays sent. -/
  paid : ∀ id ∈ w.paid, id ∈ w'.paid
  /-- Rows stay, and change as rows may. -/
  row : ∀ id r, w.payouts.find? id = some r →
    ∃ r', w'.payouts.find? id = some r' ∧ RowLater strict w r r'
  /-- Successful receipts stay. -/
  receipt : strict → ∀ h rc, w.chain.receipts h = some rc → rc.status = .success →
    ∃ rc', w'.chain.receipts h = some rc' ∧ rc'.status = .success

section
variable {strict : Prop} {w w' w₁ w₂ w₃ : World} {a a' f : Claims} {id : Uuid}
  {r r' : PayoutRecord}

/-! ## Rows in order, by their status -/

/-- A prepared row is in order that has not been sent. -/
lemma RowOk.of_prepared (status : r.status = .prepared) (unpaid : r.id ∉ w.paid)
    (noHash : r.transactionHash = none) : RowOk strict w r :=
  ⟨fun _ => unpaid, fun _ => noHash, by simp [status], by simp [status], by simp [status]⟩

/-- An authorized row is in order without a transaction. -/
lemma RowOk.of_authorized (status : r.status = .authorized) (noHash : r.transactionHash = none) :
    RowOk strict w r :=
  ⟨by simp [status], fun _ => noHash, by simp [status], by simp [status], by simp [status]⟩

/-- A broadcast row is in order with its transaction. -/
lemma RowOk.of_broadcasted (status : r.status = .broadcasted) (hash : r.transactionHash ≠ none) :
    RowOk strict w r :=
  ⟨by simp [status], by simp [status], fun _ => hash, by simp [status], by simp [status]⟩

/-- A failed row is in order. -/
lemma RowOk.of_failed (status : r.status = .failed) : RowOk strict w r :=
  ⟨by simp [status], by simp [status], by simp [status], by simp [status], by simp [status]⟩

/-- A confirmed row is in order with its receipt. -/
lemma RowOk.of_confirmed {hash : Hex} (status : r.status = .confirmed)
    (isHash : r.transactionHash = some hash) (confirmedAt : r.confirmedAt ≠ none)
    (receipt : strict → ∃ rc, w.chain.receipts hash = some rc ∧ rc.status = .success) :
    RowOk strict w r where
  unpaid := by simp [status]
  unsent := by simp [status]
  sent _ := by simp [isHash]
  confirmedAt _ := confirmedAt
  receipt st _ := by
    obtain ⟨rc, found, ok⟩ := receipt st
    exact ⟨hash, rc, isHash, found, ok⟩

/-! ## The order -/

/-- A row may stay. -/
lemma RowLater.refl : RowLater strict w r r :=
  ⟨fun _ => rfl, fun _ h => h, fun _ h => h⟩

/-- The world may stay. -/
lemma Later.refl : Later strict w w :=
  ⟨fun _ h => h, fun _ r h => ⟨r, h, .refl⟩, fun _ _ rc h ok => ⟨rc, h, ok⟩⟩

/-- Two changes are one. -/
lemma Later.trans (h₁ : Later strict w₁ w₂) (h₂ : Later strict w₂ w₃) : Later strict w₁ w₃ where
  paid id mem := h₂.paid id (h₁.paid id mem)
  row id r found := by
    obtain ⟨r₂, found₂, later₂⟩ := h₁.row id r found
    obtain ⟨r₃, found₃, later₃⟩ := h₂.row id r₂ found₂
    refine ⟨r₃, found₃, fun hash => ?_, fun sent ne => ?_, fun st conf => ?_⟩
    · rw [later₃.hash (by rwa [later₂.hash hash]), later₂.hash hash]
    · have keys : r₂.id = r.id := by
        rw [Table.key_of_find? found₂, Table.key_of_find? found]
      exact later₃.settled (keys ▸ h₁.paid _ sent) (later₂.settled sent ne)
    · exact later₃.confirmed st (later₂.confirmed st conf)
  receipt st h rc found ok := by
    obtain ⟨rc₂, found₂, ok₂⟩ := h₁.receipt st h rc found ok
    exact h₂.receipt st h rc₂ found₂ ok₂

/-! ## Changes that do not touch the ledger -/

/-- A row stays in order as long as nothing more has been sent. -/
lemma RowOk.congr (paid : w'.paid = w.paid) (later : Later strict w w')
    (ok : RowOk strict w r) : RowOk strict w' r where
  unpaid h := paid ▸ ok.unpaid h
  unsent := ok.unsent
  sent := ok.sent
  confirmedAt := ok.confirmedAt
  receipt st h := by
    obtain ⟨hash, rc, some, found, success⟩ := ok.receipt st h
    obtain ⟨rc', found', success'⟩ := later.receipt st hash rc found success
    exact ⟨hash, rc', some, found', success'⟩

/-- Where rows and submissions stay, the world may have changed so. -/
lemma Later.of_same (find : ∀ k, w'.payouts.find? k = w.payouts.find? k)
    (paid : w'.paid = w.paid)
    (receipt : strict → ∀ h rc, w.chain.receipts h = some rc → rc.status = .success →
      ∃ rc', w'.chain.receipts h = some rc' ∧ rc'.status = .success) :
    Later strict w w' where
  paid _ mem := paid ▸ mem
  row k r found := ⟨r, find k ▸ found, .refl⟩
  receipt := receipt

/-- What leaves the rows and the submissions alone keeps the invariant. -/
lemma Inv.of_same (inv : Inv strict w a) (find : ∀ k, w'.payouts.find? k = w.payouts.find? k)
    (paid : w'.paid = w.paid) (later : Later strict w w') : Inv strict w' a where
  claims := inv.claims
  claimed id mem := by
    obtain ⟨r, found, auth, unpaid⟩ := inv.claimed id mem
    exact ⟨r, find id ▸ found, auth, paid ▸ unpaid⟩
  rows id r found := (inv.rows id r (find id ▸ found)).congr paid later
  paid_row id mem := by
    obtain ⟨r, found⟩ := inv.paid_row id (paid ▸ mem)
    exact ⟨r, find id ▸ found⟩
  paid_nodup := paid ▸ inv.paid_nodup

/-- A call may give up what it owns. -/
lemma Inv.drop (inv : Inv strict w (a + f)) : Inv strict w f where
  claims := (Multiset.nodup_add.1 inv.claims).2.1
  claimed id mem := inv.claimed id (Multiset.mem_add.2 (.inr mem))
  rows := inv.rows
  paid_row := inv.paid_row
  paid_nodup := inv.paid_nodup

/-- No claim adds nothing. -/
lemma Inv.zero_add (inv : Inv strict w f) : Inv strict w (0 + f) :=
  (Multiset.zero_add f).symm ▸ inv

/-! ## Writes to one row -/

/-- The world after a write to one row. -/
structure Written (w : World) (id : Uuid) (r r' : PayoutRecord) (w' : World) : Prop where
  /-- The row before. -/
  old : w.payouts.find? id = some r
  /-- The id stays. -/
  key : r'.id = r.id
  /-- The rows after. -/
  find : ∀ k, w'.payouts.find? k = if k = id then some r' else w.payouts.find? k
  /-- Nothing was sent. -/
  submissions : w'.submissions = w.submissions
  /-- The chain did not move. -/
  chain : w'.chain = w.chain

/-- The write of a row sends nothing. -/
lemma Written.paid (wr : Written w id r r' w') : w'.paid = w.paid := by
  simp [World.paid, wr.submissions]

/-- The written row has the key. -/
lemma Written.id_eq (wr : Written w id r r' w') : r'.id = id :=
  wr.key.trans (Table.key_of_find? wr.old)

/-- What is allowed for the row is allowed for the world. -/
lemma Written.later (wr : Written w id r r' w') (row : RowLater strict w r r') :
    Later strict w w' where
  paid k mem := wr.paid ▸ mem
  row k r₀ found := by
    by_cases hk : k = id
    · subst hk
      obtain rfl : r₀ = r := Option.some_inj.1 (found.symm.trans wr.old)
      exact ⟨r', by simp [wr.find], row⟩
    · exact ⟨r₀, by simpa [wr.find, hk] using found, .refl⟩
  receipt _ h rc found ok := ⟨rc, by simpa [wr.chain] using found, ok⟩

/-- A write to a row that nobody claims afterwards, or that the writer claims. -/
lemma Written.inv (wr : Written w id r r' w') (inv : Inv strict w f) (ok : RowOk strict w' r')
    (row : RowLater strict w r r') (free : id ∉ f) : Inv strict w' f where
  claims := inv.claims
  claimed k mem := by
    obtain ⟨r₀, found, auth, unpaid⟩ := inv.claimed k mem
    have hk : k ≠ id := fun h => free (h ▸ mem)
    exact ⟨r₀, by simpa [wr.find, hk] using found, auth, wr.paid ▸ unpaid⟩
  rows k r₀ found := by
    by_cases hk : k = id
    · obtain rfl : r' = r₀ := by simpa [wr.find, hk] using found
      exact ok
    · exact (inv.rows k r₀ (by simpa [wr.find, hk] using found)).congr wr.paid (wr.later row)
  paid_row k mem := by
    obtain ⟨r₀, found⟩ := inv.paid_row k (wr.paid ▸ mem)
    by_cases hk : k = id
    · exact ⟨r', by simp [wr.find, hk]⟩
    · exact ⟨r₀, by simpa [wr.find, hk] using found⟩
  paid_nodup := wr.paid ▸ inv.paid_nodup

/-- An update that returns a row has written it. -/
lemma written_of_update {patch : PayoutPatch} {guard : Option (List PayoutStatus)}
    (res : (w.updatePayout id patch guard).1 = some r') :
    ∃ r, Written w id r r' (w.updatePayout id patch guard).2 ∧
      (guard.all fun l => decide (r.status ∈ l)) = true ∧ r' = patch.applyTo w.now r := by
  obtain ⟨r, old, holds, rfl⟩ := Table.of_update res
  refine ⟨r, ⟨old, rfl, fun k => ?_, rfl, rfl⟩, holds, rfl⟩
  change (Table.update _ _ _ _).2.find? k = _
  rw [Table.find?_update]
  by_cases hk : k = id
  · subst hk
    simp [old, holds]
  · cases hf : w.payouts.find? k <;> simp [hk]

/-- An update that returns no row has changed nothing. -/
lemma same_of_update {patch : PayoutPatch} {guard : Option (List PayoutStatus)}
    (res : (w.updatePayout id patch guard).1 = none) (k : Uuid) :
    (w.updatePayout id patch guard).2.payouts.find? k = w.payouts.find? k :=
  Table.find?_update_of_none res k

/-- Where rows, submissions and chain stay, the world may have changed so. -/
lemma Later.of_chain (find : ∀ k, w'.payouts.find? k = w.payouts.find? k)
    (submissions : w'.submissions = w.submissions) (chain : w'.chain = w.chain) :
    Later strict w w' :=
  .of_same find (by simp [World.paid, submissions]) fun _ h rc found ok =>
    ⟨rc, by simpa [chain] using found, ok⟩

/-- An update that returns no row keeps the invariant. -/
lemma inv_of_update_none {patch : PayoutPatch} {guard : Option (List PayoutStatus)}
    (inv : Inv strict w a) (res : (w.updatePayout id patch guard).1 = none) :
    Inv strict (w.updatePayout id patch guard).2 a ∧
      Later strict w (w.updatePayout id patch guard).2 := by
  have later : Later strict w (w.updatePayout id patch guard).2 :=
    .of_chain (same_of_update res) rfl rfl
  exact ⟨inv.of_same (same_of_update res) rfl later, later⟩

/-! ## The six writes -/

/-- A new row: prepared, and without a transaction. -/
lemma inv_of_insert {o : Option PayoutRecord} (inv : Inv strict w a)
    (prepared : r.status = .prepared) (noHash : r.transactionHash = none)
    (res : w.insertPayout r = some (o, w')) : Inv strict w' a ∧ Later strict w w' := by
  unfold World.insertPayout at res
  split at res
  case isTrue =>
    cases res
    exact ⟨inv, .refl⟩
  case isFalse =>
    split at res
    case isTrue => cases res
    case isFalse =>
      obtain ⟨t, ins, eq⟩ := Option.map_eq_some_iff.1 res
      cases eq
      have fresh := Table.fresh_of_insert ins
      have find := Table.find?_insert ins
      have unpaid : r.id ∉ w.paid := fun mem => by
        obtain ⟨r₀, found⟩ := inv.paid_row _ mem
        simp [fresh] at found
      have stays : ∀ k r₀, w.payouts.find? k = some r₀ → t.find? k = some r₀ := fun k r₀ found => by
        have hk : k ≠ r.id := fun h => by simp [h, fresh] at found
        simpa [find, hk] using found
      have later : Later strict w { w with payouts := t } :=
        ⟨fun _ mem => mem, fun k r₀ found => ⟨r₀, stays k r₀ found, .refl⟩,
          fun _ _ rc found ok => ⟨rc, found, ok⟩⟩
      refine ⟨⟨inv.claims, fun k mem => ?_, fun k r₀ found => ?_, fun k mem => ?_,
        inv.paid_nodup⟩, later⟩
      · obtain ⟨r₀, found, rest⟩ := inv.claimed k mem
        exact ⟨r₀, stays k r₀ found, rest⟩
      · by_cases hk : k = r.id
        · obtain rfl : r = r₀ := by simpa [find, hk] using found
          exact .of_prepared prepared unpaid noHash
        · have ok := inv.rows k r₀ (by simpa [find, hk] using found)
          have paid : World.paid { w with payouts := t } = w.paid := rfl
          exact ok.congr paid later
      · obtain ⟨r₀, found⟩ := inv.paid_row k mem
        exact ⟨r₀, stays k r₀ found⟩

/-- A claim: the caller owns the row it gets back. -/
lemma inv_of_claim {now : Timestamp} (inv : Inv strict w f)
    (res : (w.updatePayout id (claimPatch now) (some [.prepared])).1 = some r') :
    Inv strict (w.updatePayout id (claimPatch now) (some [.prepared])).2 ({id} + f) ∧
      Later strict w (w.updatePayout id (claimPatch now) (some [.prepared])).2 ∧ r'.id = id := by
  obtain ⟨r, wr, holds, rfl⟩ := written_of_update res
  have prepared : r.status = .prepared := by simpa using holds
  have old := inv.rows id r wr.old
  have noHash : r.transactionHash = none := old.unsent (.inl prepared)
  have unpaid : id ∉ w.paid := Table.key_of_find? wr.old ▸ old.unpaid prepared
  have free : id ∉ f := fun mem => by
    obtain ⟨r₀, found, auth, -⟩ := inv.claimed id mem
    obtain rfl : r₀ = r := Option.some_inj.1 (found.symm.trans wr.old)
    simp [prepared] at auth
  have row : RowLater strict w r ((claimPatch now).applyTo w.now r) :=
    ⟨fun h => absurd noHash h, fun sent _ => absurd sent (old.unpaid prepared),
      fun _ h => by simp [prepared] at h⟩
  have inv' := wr.inv inv (.of_authorized rfl noHash) row free
  refine ⟨⟨?_, fun k mem => ?_, inv'.rows, inv'.paid_row, inv'.paid_nodup⟩, wr.later row, wr.id_eq⟩
  · exact Multiset.nodup_cons.2 ⟨free, inv.claims⟩
  · obtain hk | mem := Multiset.mem_add.1 mem
    · obtain rfl := Multiset.mem_singleton.1 hk
      exact ⟨(claimPatch now).applyTo w.now r, by simp [wr.find], rfl, wr.paid ▸ unpaid⟩
    · exact inv'.claimed k mem

/-- A claim given up: the row goes back to prepared, or is marked failed. -/
lemma inv_of_giveUp {patch : PayoutPatch} (inv : Inv strict w ({id} + f))
    (status : patch.status = some .prepared ∨ patch.status = some .failed)
    (noHash : patch.transactionHash = none) :
    Inv strict (w.updatePayout id patch (some [.authorized])).2 f ∧
      Later strict w (w.updatePayout id patch (some [.authorized])).2 := by
  cases res : (w.updatePayout id patch (some [.authorized])).1 with
  | none =>
    obtain ⟨inv', later⟩ := inv_of_update_none inv res
    exact ⟨inv'.drop, later⟩
  | some r' =>
    obtain ⟨r, wr, -, rfl⟩ := written_of_update res
    obtain ⟨r₀, found, auth, unpaid⟩ := inv.claimed id (by simp)
    obtain rfl : r₀ = r := Option.some_inj.1 (found.symm.trans wr.old)
    have hash : r₀.transactionHash = none := (inv.rows id r₀ found).unsent (.inr auth)
    have hash' : (patch.applyTo w.now r₀).transactionHash = none := by
      simp [PayoutPatch.applyTo, noHash, hash]
    have row : RowLater strict w r₀ (patch.applyTo w.now r₀) :=
      ⟨fun h => absurd hash h, fun _ h => absurd auth h, fun _ h => by simp [auth] at h⟩
    have free : id ∉ f := (Multiset.nodup_cons.1 inv.claims).1
    have ok : RowOk strict (w.updatePayout id patch (some [.authorized])).2
        (patch.applyTo w.now r₀) := by
      rcases status with status | status
      · refine .of_prepared (by simp [PayoutPatch.applyTo, status]) ?_ hash'
        rw [wr.paid, wr.id_eq]
        exact unpaid
      · exact .of_failed (by simp [PayoutPatch.applyTo, status])
    exact ⟨wr.inv inv.drop ok row free, wr.later row⟩

/-- A submission: the claims it carries are spent. -/
lemma inv_of_submit (hash account : Hex) (tx : Tx) {ids : List Uuid}
    (inv : Inv strict w ((ids : Claims) + f)) :
    Inv strict { w with submissions := w.submissions ++ [⟨hash, account, tx, ids⟩] } f ∧
      Later strict w { w with submissions := w.submissions ++ [⟨hash, account, tx, ids⟩] } := by
  have paid : World.paid { w with submissions := w.submissions ++ [⟨hash, account, tx, ids⟩] } =
      w.paid ++ ids := by simp [World.paid]
  have owned : ∀ id ∈ ids, ∃ r, w.payouts.find? id = some r ∧ r.status = .authorized ∧
      id ∉ w.paid := fun id mem => inv.claimed id (Multiset.mem_add.2 (.inl mem))
  obtain ⟨nodup, -, disj⟩ := Multiset.nodup_add.1 inv.claims
  refine ⟨⟨inv.drop.claims, fun id mem => ?_, fun id r found => ?_, fun id mem => ?_, ?_⟩,
    ⟨fun id mem => ?_, fun id r found => ⟨r, found, .refl⟩, fun _ _ rc found ok => ⟨rc, found, ok⟩⟩⟩
  · obtain ⟨r, found, auth, unpaid⟩ := inv.drop.claimed id mem
    refine ⟨r, found, auth, ?_⟩
    rw [paid, List.mem_append, not_or]
    exact ⟨unpaid, fun mem' => Multiset.disjoint_left.1 disj mem' mem⟩
  · have ok := inv.rows id r found
    refine ⟨fun prepared => ?_, ok.unsent, ok.sent, ok.confirmedAt, ok.receipt⟩
    rw [paid, List.mem_append, not_or]
    refine ⟨ok.unpaid prepared, fun mem => ?_⟩
    obtain ⟨r₀, found₀, auth, -⟩ := owned _ mem
    rw [Table.key_of_find? found] at found₀
    obtain rfl : r₀ = r := Option.some_inj.1 (found₀.symm.trans found)
    simp [auth] at prepared
  · rw [paid, List.mem_append] at mem
    rcases mem with mem | mem
    · exact inv.paid_row id mem
    · obtain ⟨r, found, -⟩ := owned id mem
      exact ⟨r, found⟩
  · rw [paid, List.nodup_append]
    refine ⟨inv.paid_nodup, Multiset.coe_nodup.1 nodup, fun k mem k' mem' h => ?_⟩
    obtain ⟨-, -, -, unpaid⟩ := owned k' mem'
    exact unpaid (h ▸ mem)
  · rw [paid]
    exact List.mem_append_left _ mem

/-- The patches that settle a row whose payment has been sent. -/
structure Settles (strict : Prop) (w : World) (patch : PayoutPatch) : Prop where
  /-- The row leaves `authorized`. -/
  status : patch.status = some .failed ∨
    ∃ exec now, patch = recordPatch exec now ∧ (strict → exec.status = .confirmed →
      ∃ rc, w.chain.receipts exec.hash = some rc ∧ rc.status = .success)

/-- A row that has been sent is settled. Afterwards it is not authorized any more. -/
lemma inv_of_settle {patch : PayoutPatch} (inv : Inv strict w f) (sent : id ∈ w.paid)
    (settles : Settles strict w patch) :
    Inv strict (w.updatePayout id patch (some [.authorized])).2 f ∧
      Later strict w (w.updatePayout id patch (some [.authorized])).2 ∧
      ∃ r, (w.updatePayout id patch (some [.authorized])).2.payouts.find? id = some r ∧
        r.status ≠ .authorized := by
  have free : id ∉ f := fun mem => by
    obtain ⟨-, -, -, unpaid⟩ := inv.claimed id mem
    exact unpaid sent
  cases res : (w.updatePayout id patch (some [.authorized])).1 with
  | none =>
    obtain ⟨inv', later⟩ := inv_of_update_none inv res
    obtain ⟨r, found⟩ := inv.paid_row id sent
    refine ⟨inv', later, r, same_of_update res id ▸ found, fun auth => ?_⟩
    simp [World.updatePayout, Table.update, found, auth] at res
  | some r' =>
    obtain ⟨r, wr, holds, rfl⟩ := written_of_update res
    have auth : r.status = .authorized := by simpa using holds
    have hash : r.transactionHash = none := (inv.rows id r wr.old).unsent (.inr auth)
    have row : RowLater strict w r (patch.applyTo w.now r) :=
      ⟨fun h => absurd hash h, fun _ h => absurd auth h, fun _ h => by simp [auth] at h⟩
    have found' : (w.updatePayout id patch (some [.authorized])).2.payouts.find? id =
        some (patch.applyTo w.now r) := by simp [wr.find]
    rcases settles.status with failed | ⟨exec, now, rfl, receipt⟩
    · have status' : (patch.applyTo w.now r).status = .failed := by
        simp [PayoutPatch.applyTo, failed]
      exact ⟨wr.inv inv (.of_failed status') row free, wr.later row, _, found', by simp [status']⟩
    · have hash' : ((recordPatch exec now).applyTo w.now r).transactionHash = some exec.hash := rfl
      cases status : exec.status with
      | broadcasted =>
        have status' : ((recordPatch exec now).applyTo w.now r).status = .broadcasted :=
          congrArg statusOf status
        refine ⟨wr.inv inv (.of_broadcasted status' (by simp [hash'])) row free, wr.later row, _,
          found', by simp [status']⟩
      | confirmed =>
        have status' : ((recordPatch exec now).applyTo w.now r).status = .confirmed :=
          congrArg statusOf status
        refine ⟨wr.inv inv (.of_confirmed status' hash' ?_ fun st => ?_) row free, wr.later row, _,
          found', by simp [status']⟩
        · simp [PayoutPatch.applyTo, recordPatch, status]
        · simpa [wr.chain] using receipt st status

/-- The unguarded write of a reconciliation, from the row it read and what it looked up. -/
lemma inv_of_reconcile {payout : PayoutRecord} {rec : TransactionReconciliation}
    {now : Timestamp} {hash : Hex} (inv : Inv strict w f)
    (read : payout.status ≠ .prepared ∧ payout.status ≠ .authorized)
    (readAt : payout.status = .confirmed → payout.confirmedAt ≠ none)
    (current : ∀ r, w.payouts.find? id = some r → r.transactionHash = some hash)
    (receipt : strict → reconciledStatus payout rec = .confirmed →
      ∃ rc, w.chain.receipts hash = some rc ∧ rc.status = .success)
    (keeps : strict → ∀ r, w.payouts.find? id = some r → r.status = .confirmed →
      reconciledStatus payout rec = .confirmed) :
    Inv strict (w.updatePayout id (reconcilePatch payout rec now) none).2 f ∧
      Later strict w (w.updatePayout id (reconcilePatch payout rec now) none).2 := by
  cases res : (w.updatePayout id (reconcilePatch payout rec now) none).1 with
  | none => exact inv_of_update_none inv res
  | some r' =>
    obtain ⟨r, wr, -, rfl⟩ := written_of_update res
    have hash' := current r wr.old
    have status' : ((reconcilePatch payout rec now).applyTo w.now r).status =
        reconciledStatus payout rec := rfl
    have hash'' : ((reconcilePatch payout rec now).applyTo w.now r).transactionHash =
        some hash := hash'
    have open' : reconciledStatus payout rec ≠ .prepared ∧
        reconciledStatus payout rec ≠ .authorized := by
      unfold reconciledStatus
      split
      case isTrue => simp
      case isFalse =>
        split
        case isTrue => simp
        case isFalse => exact read
    have free : id ∉ f := fun mem => by
      obtain ⟨r₀, found, auth, -⟩ := inv.claimed id mem
      obtain rfl : r₀ = r := Option.some_inj.1 (found.symm.trans wr.old)
      simp [(inv.rows id r₀ found).unsent (.inr auth)] at hash'
    have row : RowLater strict w r ((reconcilePatch payout rec now).applyTo w.now r) :=
      ⟨fun _ => rfl, fun _ _ => open'.2, fun st conf => keeps st r wr.old conf⟩
    refine ⟨wr.inv inv ⟨fun h => absurd h open'.1, fun h => ?_, fun _ => ?_, fun h => ?_,
      fun st h => ?_⟩ row free, wr.later row⟩
    · exact (h.elim open'.1 open'.2).elim
    · simp [hash'']
    · change (if rec.finalized then some now else payout.confirmedAt) ≠ none
      split
      case isTrue => simp
      case isFalse final =>
        refine readAt ?_
        rw [status'] at h
        unfold reconciledStatus at h
        rw [if_neg final] at h
        split at h
        case isTrue => cases h
        case isFalse => exact h
    · obtain ⟨rc, found, ok⟩ := receipt st h
      exact ⟨hash, rc, hash'', by simpa [wr.chain] using found, ok⟩

end

end AvaSettle.Payouts
