import Mathlib.Algebra.Order.Group.Multiset
import AvaSettle.Async.Logic
import AvaSettle.Webhooks.Service

/-!
# The outbox as a ledger of requests

What the outbox, the requests, their answers and the delivery log say about one row, and how they hang
together while dispatchers work on it. A call that has claimed a row holds a token of it, which says how
far the delivery has come; the invariant ties the tokens to the rows, and every row that no call holds is
at rest.
-/

namespace AvaSettle.Webhooks.Lifecycle
open Async
open Data (Table Patch)

/-! ## The record of a row -/

/-- The receiver has accepted the request. -/
def isAccepted : Answer → Bool
  | .ok response => isOk response.status
  | .error _ => false

/-- The request may be made again: an error of the network, or a response that says so. -/
def isRetryable : Answer → Bool
  | .ok response => isRetryableStatus response.status
  | .error _ => true

/-- A response that asks for another attempt is not an acceptance. -/
lemma not_accepted_of_retryable {a : Answer} (again : isRetryable a = true) : isAccepted a = false := by
  cases a with
  | error e => rfl
  | ok response =>
    simp only [isRetryable, isRetryableStatus, Bool.or_eq_true, beq_iff_eq, decide_eq_true_eq] at again
    simp only [isAccepted, isOk, decide_eq_false_iff_not]
    omega

/-- What is on record about the requests of a row. -/
structure Track where
  /-- The requests that have been sent. -/
  sent : Nat
  /-- The answers, the oldest first. -/
  answers : List Answer
  /-- The entries of the delivery log. -/
  logged : Nat

/-- The record of a row. -/
def track (w : World) (id : Uuid) : Track where
  sent := w.sent.count id
  answers := (w.answers.filter fun a => decide (a.1 = id)).map Prod.snd
  logged := w.deliveries.countP fun d => decide (d.row = id)

/-- `n` attempts have been answered, each may be followed by another one, and the limit leaves room. -/
structure Tried (limit n : Nat) (answers : List Answer) : Prop where
  length : answers.length = n
  room : n < limit
  retryable : ∀ a ∈ answers, isRetryable a = true

/-- A row that waits for its next attempt, or that has been given up before one. -/
structure Waits (limit : Nat) (r : OutboxRecord) (x : Track) : Prop where
  sent : x.sent = r.attempts
  tried : Tried limit r.attempts x.answers
  unlogged : x.logged = 0

/-- A row whose last attempt was the `n + 1`-th, with the answer `a`. -/
structure Ends (limit n : Nat) (a : Answer) (r : OutboxRecord) (x : Track) : Prop where
  attempts : r.attempts = n + 1
  sent : x.sent = n + 1
  answers : ∃ earlier, x.answers = earlier ++ [a] ∧ Tried limit n earlier
  logged : x.logged ≤ 1

/-- The answer ends the attempts without success. -/
def Exhausts (limit n : Nat) (a : Answer) : Prop :=
  isAccepted a = false ∧ (isRetryable a = false ∨ limit ≤ n + 1)

/-- A row that no call works on. -/
def Rests (limit : Nat) (r : OutboxRecord) (x : Track) : Prop :=
  match r.status with
  | .pending => Waits limit r x
  | .skipped => Waits limit r x
  | .delivering => True
  | .delivered => ∃ n a, Ends limit n a r x ∧ isAccepted a = true
  | .failed => ∃ n a, Ends limit n a r x ∧ Exhausts limit n a

/-! ## Tokens -/

/-- How far the delivery of a claimed row has come. -/
inductive Phase : Type where
  | claimed
  | sent
  | answered (a : Answer)
  | settled

/-- A claim of a row, with the attempts before it. -/
structure Token where
  id : Uuid
  attempts : Nat
  phase : Phase

/-- What a call knows about a row that it has claimed. -/
def Phase.Holds (limit n : Nat) (r : OutboxRecord) (x : Track) : Phase → Prop
  | .claimed => r.status = .delivering ∧ r.attempts = n ∧ x.sent = n ∧ Tried limit n x.answers ∧
      x.logged = 0
  | .sent => r.status = .delivering ∧ r.attempts = n ∧ x.sent = n + 1 ∧ Tried limit n x.answers ∧
      x.logged = 0
  | .answered a => r.status = .delivering ∧ r.attempts = n ∧ x.sent = n + 1 ∧
      (∃ earlier, x.answers = earlier ++ [a] ∧ Tried limit n earlier) ∧ x.logged = 0
  | .settled => (r.status = .delivered ∨ r.status = .failed) ∧ x.logged = 0

/-- The claims of the calls. -/
abbrev Tokens := Multiset Token

/-- The invariant of the outbox and the tokens of all calls. -/
structure Inv (limit : Nat) (w : World) (a : Tokens) : Prop where
  nodup : (a.map Token.id).Nodup
  held : ∀ t ∈ a, ∃ r, w.outbox.find? t.id = some r ∧ t.phase.Holds limit t.attempts r (track w t.id)
  owned : ∀ k r, w.outbox.find? k = some r → r.status = .delivering → ∃ t ∈ a, t.id = k
  rests : ∀ k r, w.outbox.find? k = some r → Rests limit r (track w k)
  unseen : ∀ k, w.outbox.find? k = none → track w k = ⟨0, [], 0⟩

/-- The delivery of the row is over. -/
def IsOver (r : OutboxRecord) : Prop :=
  r.status = .delivered ∨ r.status = .failed ∨ r.status = .skipped

/-- How the world moves while a call is waiting: what is over stays as it is. -/
def Later (w w' : World) : Prop :=
  ∀ k r, w.outbox.find? k = some r → IsOver r → w'.outbox.find? k = some r ∧
    (track w' k).sent = (track w k).sent ∧ ((track w k).logged = 1 → (track w' k).logged = 1)

section
variable {limit n : Nat} {w w' w'' : World} {a own : Tokens} {id : Uuid} {t v : Token}

/-- The world may stay. -/
lemma Later.refl : Later w w := fun _ _ found _ => ⟨found, rfl, fun logged => logged⟩

/-- Two changes are one. -/
lemma Later.trans (l : Later w w') (l' : Later w' w'') : Later w w'' := by
  intro k r found closed
  obtain ⟨found', sent, logged⟩ := l k r found closed
  obtain ⟨found'', sent', logged'⟩ := l' k r found' closed
  exact ⟨found'', sent'.trans sent, fun one => logged' (logged one)⟩

/-! ## Changes of one row -/

/-- Nothing on record about a row has changed. -/
def Untouched (w w' : World) (k : Uuid) : Prop :=
  w'.outbox.find? k = w.outbox.find? k ∧ track w' k = track w k

/-- Rows that are untouched have not gone back. -/
lemma Later.of_untouched (same : ∀ k, Untouched w w' k) : Later w w' := by
  intro k r found closed
  rw [(same k).1, (same k).2]
  exact ⟨found, rfl, fun logged => logged⟩

/-- The invariant is one of rows and their records. -/
lemma Inv.of_untouched (inv : Inv limit w a) (same : ∀ k, Untouched w w' k) : Inv limit w' a where
  nodup := inv.nodup
  held t mem := by
    rw [(same t.id).1, (same t.id).2]
    exact inv.held t mem
  owned k r found := inv.owned k r ((same k).1 ▸ found)
  rests k r found := by
    rw [(same k).2]
    exact inv.rests k r ((same k).1 ▸ found)
  unseen k found := by
    rw [(same k).2]
    exact inv.unseen k ((same k).1 ▸ found)

/-- What is known about a row that is held. -/
lemma Inv.found (inv : Inv limit w ({t} + a)) :
    ∃ r, w.outbox.find? t.id = some r ∧ t.phase.Holds limit t.attempts r (track w t.id) :=
  inv.held t (Multiset.mem_add.2 (.inl (Multiset.mem_singleton_self t)))

/-- No other call holds the row. -/
lemma Inv.alone (inv : Inv limit w ({t} + a)) {u : Token} (mem : u ∈ a) : u.id ≠ t.id := by
  have nodup := inv.nodup
  rw [Multiset.singleton_add, Multiset.map_cons, Multiset.nodup_cons] at nodup
  intro same
  exact nodup.1 (Multiset.mem_map.2 ⟨u, mem, same⟩)

/-- The call goes on with its row, and everything else stays. -/
lemma Inv.advance (inv : Inv limit w ({t} + a)) (same : v.id = t.id)
    (others : ∀ k, k ≠ t.id → Untouched w w' k) {r : OutboxRecord}
    (found : w'.outbox.find? t.id = some r) (rests : Rests limit r (track w' t.id))
    (holds : v.phase.Holds limit v.attempts r (track w' t.id)) : Inv limit w' ({v} + a) where
  nodup := by
    have nodup := inv.nodup
    rw [Multiset.singleton_add, Multiset.map_cons] at nodup ⊢
    rwa [same]
  held u mem := by
    rcases Multiset.mem_add.1 mem with mem | mem
    · rw [Multiset.mem_singleton.1 mem, same]
      exact ⟨r, found, holds⟩
    · have other := others u.id (inv.alone mem)
      rw [other.1, other.2]
      exact inv.held u (Multiset.mem_add.2 (.inr mem))
  owned k r' found' delivering := by
    by_cases eq : k = t.id
    · exact ⟨v, Multiset.mem_add.2 (.inl (Multiset.mem_singleton_self v)), same.trans eq.symm⟩
    · obtain ⟨u, mem, key⟩ := inv.owned k r' ((others k eq).1 ▸ found') delivering
      rcases Multiset.mem_add.1 mem with mem | mem
      · exact absurd (key.symm.trans (by rw [Multiset.mem_singleton.1 mem])) eq
      · exact ⟨u, Multiset.mem_add.2 (.inr mem), key⟩
  rests k r' found' := by
    by_cases eq : k = t.id
    · subst eq
      cases found.symm.trans found'
      exact rests
    · rw [(others k eq).2]
      exact inv.rests k r' ((others k eq).1 ▸ found')
  unseen k missing := by
    by_cases eq : k = t.id
    · subst eq
      cases found.symm.trans missing
    · rw [(others k eq).2]
      exact inv.unseen k ((others k eq).1 ▸ missing)

/-- The call has done with its row. -/
lemma Inv.release (inv : Inv limit w ({t} + a)) (others : ∀ k, k ≠ t.id → Untouched w w' k)
    {r : OutboxRecord} (found : w'.outbox.find? t.id = some r) (rests : Rests limit r (track w' t.id))
    (left : r.status ≠ .delivering) : Inv limit w' a where
  nodup := by
    have nodup := inv.nodup
    rw [Multiset.singleton_add, Multiset.map_cons, Multiset.nodup_cons] at nodup
    exact nodup.2
  held u mem := by
    have other := others u.id (inv.alone mem)
    rw [other.1, other.2]
    exact inv.held u (Multiset.mem_add.2 (.inr mem))
  owned k r' found' delivering := by
    by_cases eq : k = t.id
    · subst eq
      cases found.symm.trans found'
      exact absurd delivering left
    · obtain ⟨u, mem, key⟩ := inv.owned k r' ((others k eq).1 ▸ found') delivering
      rcases Multiset.mem_add.1 mem with mem | mem
      · exact absurd (key.symm.trans (by rw [Multiset.mem_singleton.1 mem])) eq
      · exact ⟨u, mem, key⟩
  rests k r' found' := by
    by_cases eq : k = t.id
    · subst eq
      cases found.symm.trans found'
      exact rests
    · rw [(others k eq).2]
      exact inv.rests k r' ((others k eq).1 ▸ found')
  unseen k missing := by
    by_cases eq : k = t.id
    · subst eq
      cases found.symm.trans missing
    · rw [(others k eq).2]
      exact inv.unseen k ((others k eq).1 ▸ missing)

/-- A change of a row whose delivery is not over. -/
lemma Later.of_open (others : ∀ k, k ≠ id → Untouched w w' k) {r : OutboxRecord}
    (found : w.outbox.find? id = some r) (pending : ¬IsOver r) : Later w w' := by
  intro k r' found' closed
  by_cases eq : k = id
  · subst eq
    cases found.symm.trans found'
    exact absurd closed pending
  · rw [(others k eq).1, (others k eq).2]
    exact ⟨found', rfl, fun logged => logged⟩

end

/-! ## Effects -/

section
variable {limit n : Nat} {w w' : World} {a : Tokens} {id k : Uuid} {r : OutboxRecord}
  {p : Patch OutboxRecord.id}

/-- A row after an update. -/
lemma find?_updateOutbox :
    (w.updateOutbox id p).outbox.find? k =
      (w.outbox.find? k).map fun r => if k = id then p.apply r else r := by
  have found := Table.find?_update w.outbox id (fun _ => true) p k
  simpa [World.updateOutbox] using found

/-- An update leaves the other rows. -/
lemma untouched_updateOutbox (ne : k ≠ id) : Untouched w (w.updateOutbox id p) k := by
  refine ⟨?_, rfl⟩
  rw [find?_updateOutbox]
  simp [ne]

/-- A request is sent. -/
def sending (id : Uuid) (w : World) : World := { w with sent := w.sent ++ [id] }

/-- A request is put on the record of its row. -/
lemma track_sending : track (sending id w) id = { track w id with sent := (track w id).sent + 1 } := by
  simp [track, sending]

/-- It leaves the other rows. -/
lemma untouched_sending (ne : k ≠ id) : Untouched w (sending id w) k := by
  refine ⟨rfl, ?_⟩
  have other : [id].count k = 0 := List.count_eq_zero_of_not_mem (by simpa using ne)
  simp [track, sending, List.count_append, other]

/-- A request is answered. -/
def receiving (id : Uuid) (w : World) : World :=
  { w with answers := w.answers ++ [(id, w.receiver)] }

/-- An answer is put on the record of its row. -/
lemma track_receiving : track (receiving id w) id =
    { track w id with answers := (track w id).answers ++ [w.receiver] } := by
  simp [track, receiving]

/-- It leaves the other rows. -/
lemma untouched_receiving (ne : k ≠ id) : Untouched w (receiving id w) k := by
  refine ⟨rfl, ?_⟩
  have other : ¬id = k := fun eq => ne eq.symm
  simp [track, receiving, other]

/-- A delivery is entered in the log. -/
def logging (id : Uuid) (d : Delivery) (w : World) : World :=
  { w with deliveries := w.deliveries ++ [{ d with row := id, createdAt := w.now }] }

/-- An entry of the log is put on the record of its row. -/
lemma track_logging {d : Delivery} :
    track (logging id d w) id = { track w id with logged := (track w id).logged + 1 } := by
  simp [track, logging]

/-- It leaves the other rows. -/
lemma untouched_logging {d : Delivery} (ne : k ≠ id) : Untouched w (logging id d w) k := by
  refine ⟨rfl, ?_⟩
  have other : ¬id = k := fun eq => ne eq.symm
  simp [track, logging, other]

/-- A recovery that finds nothing changes nothing. -/
lemma untouched_recover (fresh : ∀ r ∈ w.outbox.rows, r.isStuck w.now = false) :
    Untouched w (w.updateOutboxWhere (·.isStuck w.now) (OutboxRecord.become .pending w.now)) k := by
  refine ⟨?_, rfl⟩
  change Table.find? (Table.updateWhere _ _ _) k = _
  rw [Table.find?_updateWhere]
  cases found : w.outbox.find? k with
  | none => rfl
  | some r => simp [Patch.applyIf, fresh r (Table.mem_of_find? found)]

/-! ### A claim -/

/-- The rows that are due wait for an attempt. -/
lemma of_mem_due (mem : r ∈ w.due n) : w.outbox.find? r.id = some r ∧ r.status = .pending := by
  have mem' := (List.mem_insertionSort _).1 (List.mem_of_mem_take mem)
  obtain ⟨row, due⟩ := List.mem_filter.1 mem'
  simp only [OutboxRecord.isDue, Bool.and_eq_true, decide_eq_true_eq] at due
  exact ⟨Table.find?_of_mem row, due.1.1⟩

/-- No row is due twice. -/
lemma nodup_due : ((w.due n).map OutboxRecord.id).Nodup := by
  have rows : ((w.outbox.select fun r => r.isDue w.now && decide (r.id ∉ w.locked)).map
      OutboxRecord.id).Nodup :=
    w.outbox.nodup.sublist (List.filter_sublist.map OutboxRecord.id)
  have sorted := ((List.perm_insertionSort (fun a b : OutboxRecord => a.nextAttemptAt ≤ b.nextAttemptAt)
    _).map OutboxRecord.id).nodup_iff.2 rows
  exact sorted.sublist ((List.take_sublist _ _).map OutboxRecord.id)

/-- The tokens that a claim gives out. -/
def tokensOf (rows : List OutboxRow) : Tokens :=
  (rows.map fun row => (⟨row.id, row.attempts, .claimed⟩ : Token) : List Token)

/-- The rows that a claim returns. -/
def claimedRows (w : World) (n : Nat) : List OutboxRow :=
  (w.due n).map fun r => r.toRow (w.claims.count r.id)

/-- A token is that of a row that was due. -/
lemma mem_tokensOf_claimedRows {t : Token} (mem : t ∈ tokensOf (claimedRows w n)) :
    ∃ r ∈ w.due n, t = ⟨r.id, r.attempts, .claimed⟩ := by
  obtain ⟨row, mem', rfl⟩ := List.mem_map.1 (Multiset.mem_coe.1 mem)
  obtain ⟨r, due, rfl⟩ := List.mem_map.1 mem'
  exact ⟨r, due, rfl⟩

/-- The tokens are of the rows that were due. -/
lemma ids_tokensOf_claimedRows :
    (tokensOf (claimedRows w n)).map Token.id = ((w.due n).map OutboxRecord.id : List Uuid) := by
  simp only [tokensOf, claimedRows, Multiset.map_coe, List.map_map]
  rfl

/-- A row of the table is claimed where it is due. -/
lemma mem_ids_due (found : w.outbox.find? k = some r) :
    r.id ∈ (w.due n).map OutboxRecord.id ↔ r ∈ w.due n := by
  refine ⟨fun mem => ?_, fun mem => List.mem_map_of_mem mem⟩
  obtain ⟨r', mem, same⟩ := List.mem_map.1 mem
  have found' := (of_mem_due mem).1
  rw [same, Table.key_of_find? found, found] at found'
  cases found'
  exact mem

/-- A row after a claim. -/
lemma find?_claimDue : (w.claimDue n).outbox.find? k = (w.outbox.find? k).map fun r =>
    if r.id ∈ (w.due n).map OutboxRecord.id then { r with status := .delivering, updatedAt := w.now }
    else r := by
  change Table.find? (Table.updateWhere _ _ _) k = _
  rw [Table.find?_updateWhere]
  refine Option.map_congr fun r _ => ?_
  unfold Patch.applyIf
  simp only [decide_eq_true_eq]
  rfl

/-- A row that was due is in delivery after a claim. -/
lemma find?_claimDue_of_due (found : w.outbox.find? k = some r) (due : r ∈ w.due n) :
    (w.claimDue n).outbox.find? k =
      some { r with status := .delivering, updatedAt := w.now } := by
  rw [find?_claimDue, found, Option.map_some, if_pos ((mem_ids_due found).2 due)]

/-- A row that was not due stays. -/
lemma find?_claimDue_of_not_due (found : w.outbox.find? k = some r) (notDue : r ∉ w.due n) :
    (w.claimDue n).outbox.find? k = some r := by
  rw [find?_claimDue, found, Option.map_some, if_neg fun mem => notDue ((mem_ids_due found).1 mem)]

/-- A row that a call holds is not due. -/
lemma Inv.not_due {t : Token} (inv : Inv limit w a) (mem : t ∈ a)
    (found : w.outbox.find? t.id = some r) : r ∉ w.due n := by
  intro due
  obtain ⟨r', found', holds⟩ := inv.held t mem
  cases found.symm.trans found'
  have pending := (of_mem_due due).2
  cases phase : t.phase <;> simp [phase, Phase.Holds, pending] at holds

/-- The claimed rows wait no longer, and their tokens go to the call. -/
lemma Inv.claim (inv : Inv limit w a) :
    Inv limit (w.claimDue n) (tokensOf (claimedRows w n) + a) where
  nodup := by
    rw [Multiset.map_add, ids_tokensOf_claimedRows, Multiset.nodup_add]
    refine ⟨Multiset.coe_nodup.2 nodup_due, inv.nodup, Multiset.disjoint_left.2 ?_⟩
    intro id due held
    obtain ⟨r, mem, rfl⟩ := List.mem_map.1 (Multiset.mem_coe.1 due)
    obtain ⟨t, held, same⟩ := Multiset.mem_map.1 held
    exact inv.not_due held (same ▸ (of_mem_due mem).1) mem
  held t mem := by
    rcases Multiset.mem_add.1 mem with mem | mem
    · obtain ⟨r, due, rfl⟩ := mem_tokensOf_claimedRows mem
      obtain ⟨found, pending⟩ := of_mem_due due
      have waits := inv.rests _ _ found
      simp only [Rests, pending] at waits
      exact ⟨_, find?_claimDue_of_due found due, rfl, rfl, waits.sent, waits.tried, waits.unlogged⟩
    · obtain ⟨r, found, holds⟩ := inv.held t mem
      exact ⟨r, find?_claimDue_of_not_due found (inv.not_due mem found), holds⟩
  owned k r' found' delivering := by
    cases found : w.outbox.find? k with
    | none =>
      rw [find?_claimDue, found] at found'
      cases found'
    | some r =>
      by_cases due : r ∈ w.due n
      · have key : r.id = k := Table.key_of_find? found
        refine ⟨⟨r.id, r.attempts, .claimed⟩, Multiset.mem_add.2 (.inl ?_), key⟩
        exact Multiset.mem_coe.2 (List.mem_map.2 ⟨_, List.mem_map_of_mem due, rfl⟩)
      · rw [find?_claimDue_of_not_due found due] at found'
        obtain rfl := Option.some.inj found'
        obtain ⟨t, mem, key⟩ := inv.owned k r found delivering
        exact ⟨t, Multiset.mem_add.2 (.inr mem), key⟩
  rests k r' found' := by
    cases found : w.outbox.find? k with
    | none =>
      rw [find?_claimDue, found] at found'
      cases found'
    | some r =>
      by_cases due : r ∈ w.due n
      · rw [find?_claimDue_of_due found due] at found'
        cases found'
        trivial
      · rw [find?_claimDue_of_not_due found due] at found'
        obtain rfl := Option.some.inj found'
        exact inv.rests k r found
  unseen k missing := by
    rw [find?_claimDue, Option.map_eq_none_iff] at missing
    exact inv.unseen k missing

/-- A claim does not take a row back. -/
lemma later_claimDue : Later w (w.claimDue n) := by
  intro k r found closed
  have notDue : r ∉ w.due n := fun due => by
    have pending := (of_mem_due due).2
    simp [IsOver, pending] at closed
  exact ⟨find?_claimDue_of_not_due found notDue, rfl, fun logged => logged⟩

/-! ### A new row -/

/-- A new row waits for its first attempt. -/
lemma Inv.insert {clientId : Uuid} {event : String} {payload : List (String × Json)} {b : Unit}
    (room : 0 < limit) (inv : Inv limit w a)
    (run : w.insertOutbox clientId event payload = some (b, w')) : Inv limit w' a ∧ Later w w' := by
  obtain ⟨t, inserted, eq⟩ := Option.map_eq_some_iff.1 run
  obtain rfl : { w with outbox := t } = w' := (Prod.mk.inj eq).2
  have find := Table.find?_insert inserted
  have fresh := Table.fresh_of_insert inserted
  have later : ∀ k r, w.outbox.find? k = some r → t.find? k = some r := by
    intro k r found
    rw [find k, if_neg (fun eq => ?_)]
    · exact found
    · cases (eq ▸ fresh : w.outbox.find? k = none).symm.trans found
  refine ⟨⟨inv.nodup, fun u mem => ?_, fun k r found delivering => ?_, fun k r found => ?_,
    fun k missing => ?_⟩, fun k r found _ => ⟨later k r found, rfl, fun logged => logged⟩⟩
  · obtain ⟨r, found, holds⟩ := inv.held u mem
    exact ⟨r, later _ _ found, holds⟩
  · rw [find k] at found
    split at found
    case isTrue =>
      cases found
      cases delivering
    case isFalse => exact inv.owned k r found delivering
  · rw [find k] at found
    split at found
    case isTrue eq =>
      cases found
      have nothing : track w k = ⟨0, [], 0⟩ := inv.unseen k (eq ▸ fresh)
      change Waits limit _ (track w k)
      rw [nothing]
      exact ⟨rfl, ⟨rfl, room, fun a mem => absurd mem List.not_mem_nil⟩, rfl⟩
    case isFalse => exact inv.rests k r found
  · rw [find k] at missing
    split at missing
    case isTrue => cases missing
    case isFalse => exact inv.unseen k missing

end

/-! ## Moves of a claimed row -/

section
variable {limit n : Nat} {w : World} {f : Tokens} {id : Uuid} {a : Answer}

/-- The request of a claimed row is sent. -/
lemma Inv.send (inv : Inv limit w ({⟨id, n, .claimed⟩} + f)) :
    Inv limit (sending id w) ({⟨id, n, .sent⟩} + f) ∧ Later w (sending id w) := by
  obtain ⟨r, found, delivering, attempts, sent, tried, unlogged⟩ := inv.found
  have others : ∀ k, k ≠ id → Untouched w (sending id w) k := fun k => untouched_sending
  refine ⟨inv.advance (v := ⟨id, n, .sent⟩) rfl others found ?_ ?_,
    Later.of_open others found (by simp [IsOver, delivering])⟩
  · simp [Rests, delivering]
  · rw [track_sending]
    exact ⟨delivering, attempts, by simp [sent], tried, unlogged⟩

/-- The request is answered. -/
lemma Inv.receive (inv : Inv limit w ({⟨id, n, .sent⟩} + f)) :
    Inv limit (receiving id w) ({⟨id, n, .answered w.receiver⟩} + f) ∧ Later w (receiving id w) := by
  obtain ⟨r, found, delivering, attempts, sent, tried, unlogged⟩ := inv.found
  have others : ∀ k, k ≠ id → Untouched w (receiving id w) k := fun k => untouched_receiving
  refine ⟨inv.advance (v := ⟨id, n, .answered w.receiver⟩) rfl others found ?_ ?_,
    Later.of_open others found (by simp [IsOver, delivering])⟩
  · simp [Rests, delivering]
  · rw [track_receiving]
    exact ⟨delivering, attempts, sent, ⟨_, rfl, tried⟩, unlogged⟩

/-- The updated row is found. -/
lemma find?_of_updated {r : OutboxRecord} {p : Patch OutboxRecord.id}
    (found : w.outbox.find? id = some r) :
    (w.updateOutbox id p).outbox.find? id = some (p.apply r) := by
  rw [find?_updateOutbox, found]
  simp

/-- The row is settled with the outcome of its last attempt. -/
lemma Inv.settle {status : OutboxStatus} {lastError : Option String}
    (inv : Inv limit w ({⟨id, n, .answered a⟩} + f))
    (outcome : status = .delivered ∧ isAccepted a = true ∨ status = .failed ∧ Exhausts limit n a) :
    Inv limit (w.updateOutbox id (OutboxRecord.settle status (n + 1) lastError w.now))
        ({⟨id, n, .settled⟩} + f) ∧
      Later w (w.updateOutbox id (OutboxRecord.settle status (n + 1) lastError w.now)) := by
  obtain ⟨r, found, delivering, attempts, sent, answers, unlogged⟩ := inv.found
  have others : ∀ k, k ≠ id →
      Untouched w (w.updateOutbox id (OutboxRecord.settle status (n + 1) lastError w.now)) k :=
    fun k => untouched_updateOutbox
  have ends {r' : OutboxRecord} (eq : r'.attempts = n + 1) : Ends limit n a r' (track w id) :=
    ⟨eq, sent, answers, (show (track w id).logged = 0 from unlogged).trans_le (Nat.zero_le 1)⟩
  refine ⟨inv.advance (v := ⟨id, n, .settled⟩) rfl others (find?_of_updated found) ?_ ?_,
    Later.of_open others found (by simp [IsOver, delivering])⟩
  · change Rests limit _ (track w id)
    rcases outcome with ⟨rfl, accepted⟩ | ⟨rfl, exhausts⟩
    · exact ⟨n, a, ends rfl, accepted⟩
    · exact ⟨n, a, ends rfl, exhausts⟩
  · refine ⟨?_, unlogged⟩
    exact outcome.imp (fun delivered => delivered.1) fun failed => failed.1

/-- The row is given up before its next attempt. -/
lemma Inv.skip {lastError : Option String} (inv : Inv limit w ({⟨id, n, .claimed⟩} + f)) :
    Inv limit (w.updateOutbox id (OutboxRecord.settle .skipped n lastError w.now)) f ∧
      Later w (w.updateOutbox id (OutboxRecord.settle .skipped n lastError w.now)) := by
  obtain ⟨r, found, delivering, attempts, sent, tried, unlogged⟩ := inv.found
  have others : ∀ k, k ≠ id →
      Untouched w (w.updateOutbox id (OutboxRecord.settle .skipped n lastError w.now)) k :=
    fun k => untouched_updateOutbox
  refine ⟨inv.release others (find?_of_updated found) ?_ nofun,
    Later.of_open others found (by simp [IsOver, delivering])⟩
  exact ⟨sent, tried, unlogged⟩

/-- The row waits for its next attempt. -/
lemma Inv.reschedule {lastError : String} {delayMs : Nat}
    (inv : Inv limit w ({⟨id, n, .answered a⟩} + f)) (again : isRetryable a = true)
    (room : n + 1 < limit) :
    Inv limit (w.updateOutbox id (OutboxRecord.retry (n + 1) lastError delayMs w.now)) f ∧
      Later w (w.updateOutbox id (OutboxRecord.retry (n + 1) lastError delayMs w.now)) := by
  obtain ⟨r, found, delivering, attempts, sent, ⟨earlier, answers, tried⟩, unlogged⟩ := inv.found
  have others : ∀ k, k ≠ id →
      Untouched w (w.updateOutbox id (OutboxRecord.retry (n + 1) lastError delayMs w.now)) k :=
    fun k => untouched_updateOutbox
  refine ⟨inv.release others (find?_of_updated found) ?_ nofun,
    Later.of_open others found (by simp [IsOver, delivering])⟩
  refine ⟨sent, ⟨?_, room, ?_⟩, unlogged⟩
  · change (track w id).answers.length = n + 1
    simp [answers, tried.length]
  · change ∀ b ∈ (track w id).answers, isRetryable b = true
    intro b mem
    rw [answers, List.mem_append, List.mem_singleton] at mem
    rcases mem with mem | rfl
    · exact tried.retryable b mem
    · exact again

/-- The outcome of a row is in the log. -/
def Booked (w : World) (id : Uuid) : Prop :=
  ∃ r, w.outbox.find? id = some r ∧ (r.status = .delivered ∨ r.status = .failed) ∧
    (track w id).logged = 1

/-- A row that is booked stays booked. -/
lemma Booked.later {w' : World} (later : Later w w') (booked : Booked w id) : Booked w' id := by
  obtain ⟨r, found, settled, logged⟩ := booked
  obtain ⟨found', -, logged'⟩ := later id r found (settled.imp (fun h => h) .inl)
  exact ⟨r, found', settled, logged' logged⟩

/-- The outcome of a settled row is entered in the log. -/
lemma Inv.log {d : Delivery} (inv : Inv limit w ({⟨id, n, .settled⟩} + f)) :
    Inv limit (logging id d w) f ∧ Later w (logging id d w) ∧ Booked (logging id d w) id := by
  obtain ⟨r, found, settled, unlogged⟩ := inv.found
  have others : ∀ k, k ≠ id → Untouched w (logging id d w) k := fun k => untouched_logging
  have logged : (track (logging id d w) id).logged = 1 := by
    rw [track_logging]
    change (track w id).logged + 1 = 1
    rw [show (track w id).logged = 0 from unlogged]
  have rests := inv.rests id r found
  refine ⟨inv.release others found ?_ ?_, fun k r' found' closed => ?_, r, found, settled, logged⟩
  · rcases settled with settled | settled <;> simp only [Rests, settled] at rests ⊢
    all_goals
      obtain ⟨m, b, ends, last⟩ := rests
      refine ⟨m, b, ⟨ends.attempts, ?_, ?_, logged.le⟩, last⟩
    all_goals rw [track_logging]
    exacts [ends.sent, ends.answers, ends.sent, ends.answers]
  · rcases settled with settled | settled <;> simp [settled]
  · by_cases eq : k = id
    · subst eq
      refine ⟨found', by rw [track_logging], fun one => ?_⟩
      cases (show (track w k).logged = 0 from unlogged).symm.trans one
    · rw [(others k eq).1, (others k eq).2]
      exact ⟨found', rfl, fun one => one⟩

end

end AvaSettle.Webhooks.Lifecycle
