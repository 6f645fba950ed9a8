import AvaSettle.Webhooks.Outbox

/-!
# Delivered rows

When a row that has been delivered stays so. A recovery opens a row by its age, whether or not its owner is
still at work, and a settling update is keyed by the row alone: an owner whose row has been claimed again
may overwrite what the next owner has booked. Besides, a booking whose answer is lost is taken for an
error of the request. In every run without these two a delivered row stays delivered: what a call may
write is tied to the number of its claim, and only the last claim of a row counts.
-/

namespace AvaSettle.Webhooks.Redelivery
open Async
open Data (Table Patch)
open Clients (ClientRecord)

/-! ## Claims -/

/-- A claim of a row, by its number. -/
structure Claim where
  id : Uuid
  claim : Nat

/-- The claims that calls may still settle. -/
abbrev Claims := Multiset Claim

/-- The row is not delivered. -/
def Undelivered (w : World) (id : Uuid) : Prop :=
  ∀ r, w.outbox.find? id = some r → r.status ≠ .delivered

/-- The row is delivered. -/
def IsDelivered (w : World) (id : Uuid) : Prop :=
  ∃ r, w.outbox.find? id = some r ∧ r.status = .delivered

/-- The claims of the calls are numbered, and where the last claim of a row is open, the row is not
    delivered. -/
structure Inv (w : World) (a : Claims) : Prop where
  nodup : a.Nodup
  issued : ∀ t ∈ a, t.claim < w.claims.count t.id
  latest : ∀ t ∈ a, t.claim + 1 = w.claims.count t.id → Undelivered w t.id

/-- How the world moves while a call is waiting: what is delivered stays so. -/
def Later (w w' : World) : Prop := ∀ id, IsDelivered w id → IsDelivered w' id

section
variable {w w' : World} {a f : Claims} {t : Claim} {id k : Uuid} {n : Nat}

/-- A move that makes no claim and delivers no row. -/
lemma Inv.of_calm (inv : Inv w a) (claims : w'.claims = w.claims)
    (calm : ∀ k r', w'.outbox.find? k = some r' → r'.status = .delivered → IsDelivered w k) :
    Inv w' a where
  nodup := inv.nodup
  issued t mem := claims ▸ inv.issued t mem
  latest t mem last r found delivered := by
    obtain ⟨r', found', delivered'⟩ := calm t.id r found delivered
    exact inv.latest t mem (claims ▸ last) r' found' delivered'

/-- A claim is given up. -/
lemma Inv.drop (inv : Inv w (a + f)) : Inv w f where
  nodup := (Multiset.nodup_add.1 inv.nodup).2.1
  issued t mem := inv.issued t (Multiset.mem_add.2 (.inr mem))
  latest t mem := inv.latest t (Multiset.mem_add.2 (.inr mem))

/-- The row of a claim that is the last one is written: nobody else may write it. -/
lemma Inv.settle {p : Patch OutboxRecord.id} (inv : Inv w ({t} + f))
    (last : t.claim + 1 = w.claims.count t.id) :
    Inv (w.updateOutbox t.id p) f ∧ Later w (w.updateOutbox t.id p) := by
  have held : t ∈ ({t} + f : Claims) := Multiset.mem_add.2 (.inl (Multiset.mem_singleton_self t))
  have elsewhere : ∀ k, k ≠ t.id →
      (w.updateOutbox t.id p).outbox.find? k = w.outbox.find? k :=
    fun k ne => (Lifecycle.untouched_updateOutbox ne).1
  refine ⟨⟨inv.drop.nodup, inv.drop.issued, fun u mem last' r found => ?_⟩, ?_⟩
  · have ne : u.id ≠ t.id := fun same => by
      -- two last claims of one row have one number
      have number : u.claim = t.claim := by
        have last' : u.claim + 1 = w.claims.count u.id := last'
        rw [same] at last'
        omega
      have eq : u = t := by
        obtain ⟨uid, uclaim⟩ := u
        obtain ⟨tid, tclaim⟩ := t
        simp_all
      have nodup := inv.nodup
      rw [Multiset.singleton_add, Multiset.nodup_cons] at nodup
      exact nodup.1 (eq ▸ mem)
    rw [elsewhere u.id ne] at found
    exact inv.drop.latest u mem last' r found
  · rintro k ⟨r, found, delivered⟩
    by_cases eq : k = t.id
    · subst eq
      exact absurd delivered (inv.latest t held last r found)
    · exact ⟨r, (elsewhere k eq).trans found, delivered⟩

/-! ### A claim of rows -/

/-- The claims that come with some rows. -/
def claimsOf (rows : List OutboxRow) : Claims :=
  (rows.map fun row => (⟨row.id, row.claim⟩ : Claim) : List Claim)

/-- A claim is that of a row that was due, with its number. -/
lemma mem_claimsOf (mem : t ∈ claimsOf (Lifecycle.claimedRows w n)) :
    ∃ r ∈ w.due n, t = ⟨r.id, w.claims.count r.id⟩ := by
  obtain ⟨row, mem', rfl⟩ := List.mem_map.1 (Multiset.mem_coe.1 mem)
  obtain ⟨r, due, rfl⟩ := List.mem_map.1 mem'
  exact ⟨r, due, rfl⟩

/-- No row is claimed twice at once. -/
lemma nodup_claimsOf : (claimsOf (Lifecycle.claimedRows w n)).Nodup := by
  have ids := Lifecycle.nodup_due (w := w) (n := n)
  refine Multiset.coe_nodup.2 (List.Nodup.of_map Claim.id ?_)
  rw [Lifecycle.claimedRows, List.map_map, List.map_map]
  exact ids

/-- A claim counts the rows that it takes. -/
lemma count_claimDue : (w.claimDue n).claims.count k =
    w.claims.count k + ((w.due n).map OutboxRecord.id).count k :=
  List.count_append

/-- A claim keeps the invariant. -/
lemma Inv.claim (inv : Inv w a) :
    Inv (w.claimDue n) (claimsOf (Lifecycle.claimedRows w n) + a) ∧ Later w (w.claimDue n) := by
  have taken {r : OutboxRecord} (due : r ∈ w.due n) : ((w.due n).map OutboxRecord.id).count r.id = 1 :=
    List.count_eq_one_of_mem Lifecycle.nodup_due (List.mem_map_of_mem due)
  have stays {k r} (found : w.outbox.find? k = some r) (delivered : r.status = .delivered) :
      (w.claimDue n).outbox.find? k = some r := by
    refine Lifecycle.find?_claimDue_of_not_due found fun due => ?_
    cases (Lifecycle.of_mem_due due).2.symm.trans delivered
  have back {k r} (found : (w.claimDue n).outbox.find? k = some r) (delivered : r.status = .delivered) :
      IsDelivered w k := by
    cases before : w.outbox.find? k with
    | none =>
      rw [Lifecycle.find?_claimDue, before] at found
      cases found
    | some r' =>
      by_cases due : r' ∈ w.due n
      · rw [Lifecycle.find?_claimDue_of_due before due] at found
        obtain rfl := Option.some.inj found
        cases delivered
      · rw [Lifecycle.find?_claimDue_of_not_due before due] at found
        obtain rfl := Option.some.inj found
        exact ⟨r', before, delivered⟩
  refine ⟨⟨?_, fun t mem => ?_, fun t mem last => ?_⟩, ?_⟩
  · rw [Multiset.nodup_add]
    refine ⟨nodup_claimsOf, inv.nodup, Multiset.disjoint_left.2 ?_⟩
    intro t new old
    obtain ⟨r, -, rfl⟩ := mem_claimsOf new
    exact absurd (inv.issued _ old) (lt_irrefl _)
  · rw [count_claimDue]
    rcases Multiset.mem_add.1 mem with new | old
    · obtain ⟨r, due, rfl⟩ := mem_claimsOf new
      rw [taken due]
      exact Nat.lt_succ_self _
    · exact Nat.lt_add_right _ (inv.issued t old)
  · intro r found delivered
    rw [count_claimDue] at last
    rcases Multiset.mem_add.1 mem with new | old
    · obtain ⟨r', due, rfl⟩ := mem_claimsOf new
      rw [Lifecycle.find?_claimDue_of_due (Lifecycle.of_mem_due due).1 due] at found
      obtain rfl := Option.some.inj found
      cases delivered
    · -- an old claim is the last one only where the row has not been taken
      have issued := inv.issued t old
      have untaken : ((w.due n).map OutboxRecord.id).count t.id = 0 := by omega
      obtain ⟨r', found', delivered'⟩ := back found delivered
      exact inv.latest t old (by omega) r' found' delivered'
  · rintro k ⟨r, found, delivered⟩
    exact ⟨r, stays found delivered, delivered⟩

end

/-! ## Runs without superseded owners -/

/-- The update is one of the settling updates of a row. -/
def updates (id : Uuid) : Call → Bool
  | .setStatus row _ _ _ => decide (row = id)
  | .reschedule row _ _ _ => decide (row = id)
  | _ => false

/-- A row is settled by the call that has claimed it last, and the answer to the booking of a delivery
    is not lost. -/
structure Unsuperseded (h : Hist Api) (w : World) (e : Event Api) : Prop where
  last : ∀ row, Claimed row h → updates row.id e.op = true → e.outcome.performed.isSome = true →
    row.claim + 1 = w.claims.count row.id
  booked : ∀ id n lastError, e.op = .setStatus id .delivered n lastError →
    e.outcome.performed.isSome = true → e.outcome.threw = false

section
variable {s : Setting} {own : Claims} {row : OutboxRow} {rows : List OutboxRow} {h : Hist Api}
  {a : Claims} {w w' : World} {client : ClientRecord} {url : String}

/-- What the dispatchers maintain. -/
def spec (s : Setting) : Spec (machine s Unsuperseded) Claims where
  inv := Inv
  le := Later
  good _ := True
  good_nil := trivial
  le_refl _ _ delivered := delivered
  le_trans later later' id delivered := later' id (later id delivered)
  env inv move := by
    refine ⟨inv.of_calm move.claims fun k r found delivered => ⟨r, move.outbox ▸ found, delivered⟩, ?_⟩
    rintro k ⟨r, found, delivered⟩
    exact ⟨r, by rwa [move.outbox], delivered⟩

/-- What a dispatcher knows: the claims that it may still settle, and the rows that it has claimed. -/
structure At (own : Claims) (rows : List OutboxRow) (a : Claims) (w : World) (h : Hist Api) : Prop where
  share : a = own
  known : ∀ row ∈ rows, Claimed row h

/-- What a dispatcher knows stays true. -/
lemma At.append {e : Event Api} (at_ : At own rows a w h) : At own rows a w' (h ++ [e]) :=
  ⟨at_.share, fun row mem => (at_.known row mem).append⟩

/-- The operations that neither settle nor claim a row. -/
def isCalm : Call → Bool
  | .setStatus _ _ _ _ => false
  | .reschedule _ _ _ _ => false
  | .claimDue _ => false
  | _ => true

/-- Such an operation delivers no row and opens no row that is delivered. -/
lemma Inv.calm {c : Call} {b : c.Res} (calm : isCalm c = true) (inv : Inv w a)
    (run : World.exec c w = some (b, w')) : Inv w' a ∧ Later w w' := by
  have same (outbox : w'.outbox = w.outbox) (claims : w'.claims = w.claims) :
      Inv w' a ∧ Later w w' := by
    refine ⟨inv.of_calm claims fun k r found delivered => ⟨r, outbox ▸ found, delivered⟩, ?_⟩
    rintro k ⟨r, found, delivered⟩
    exact ⟨r, by rwa [outbox], delivered⟩
  cases c with
  | setStatus => cases calm
  | reschedule => cases calm
  | claimDue => cases calm
  | clock => exact same (by cases run; rfl) (by cases run; rfl)
  | randomUUID => exact same (by cases run; rfl) (by cases run; rfl)
  | findClient => exact same (by cases run; rfl) (by cases run; rfl)
  | send => exact same (by cases run; exact World.noteSent_outbox) (by cases run; exact World.noteSent_claims)
  | receive =>
    exact same (by cases run; exact World.noteAnswer_outbox) (by cases run; exact World.noteAnswer_claims)
  | insertDelivery => exact same (by cases run; rfl) (by cases run; rfl)
  | insertOutbox clientId event payload =>
    obtain ⟨t, inserted, eq⟩ := Option.map_eq_some_iff.1 run
    obtain rfl : { w with outbox := t } = w' := (Prod.mk.inj eq).2
    have find := Table.find?_insert inserted
    refine ⟨inv.of_calm rfl fun k r found delivered => ?_, ?_⟩
    · change t.find? k = some r at found
      rw [find k] at found
      split at found
      case isTrue =>
        cases found
        cases delivered
      case isFalse => exact ⟨r, found, delivered⟩
    · rintro k ⟨r, found, delivered⟩
      refine ⟨r, ?_, delivered⟩
      change t.find? k = some r
      rw [find k, if_neg fun eq => ?_]
      · exact found
      · cases (eq ▸ Table.fresh_of_insert inserted : w.outbox.find? k = none).symm.trans found
  | recoverStuck =>
    cases run
    have find (k : Uuid) : (w.updateOutboxWhere (·.isStuck w.now)
        (OutboxRecord.become .pending w.now)).outbox.find? k = (w.outbox.find? k).map
          ((OutboxRecord.become .pending w.now).applyIf (·.isStuck w.now)) :=
      Table.find?_updateWhere _ _ _ _
    refine ⟨inv.of_calm rfl fun k r' found delivered => ?_, ?_⟩
    · rw [find k] at found
      obtain ⟨r, before, rfl⟩ := Option.map_eq_some_iff.1 found
      unfold Patch.applyIf at delivered
      split at delivered
      case isTrue => cases delivered
      case isFalse => exact ⟨r, before, delivered⟩
    · rintro k ⟨r, found, delivered⟩
      refine ⟨r, ?_, delivered⟩
      rw [find k, found, Option.map_some]
      unfold Patch.applyIf
      rw [if_neg (by simp [OutboxRecord.isStuck, delivered])]

/-- The world around an operation that neither settles nor claims a row. -/
lemma reply_calm {c : Call} {o : Outcome Exception c.Res} (calm : isCalm c = true) (inv : Inv w a)
    (reply : (machine s Unsuperseded).Reply c w o w') : Inv w' a ∧ Later w w' := by
  cases o with
  | done b => exact inv.calm calm reply
  | lost b e => exact inv.calm calm reply.1
  | refused e =>
    obtain ⟨-, rfl⟩ := reply
    exact ⟨inv, fun _ delivered => delivered⟩

/-- Such an operation changes nothing that the call knows. -/
lemma op_calm {c : Call} (calm : isCalm c = true) (at_ : At own rows a w h) :
    (spec s).op c (fun _ => At own rows) a w h := by
  intro w₁ f o w₂ _ inv reply _
  obtain ⟨inv', later⟩ := reply_calm calm inv reply
  exact ⟨trivial, a, inv', later, at_.append⟩

/-- The call goes on, whatever has become of the operation. -/
lemma wp_calm {c : Call} (calm : isCalm c = true) (at_ : At own rows a w h) :
    (spec s).wp (request c) (fun _ => At own rows) a w h :=
  Spec.wp_await (op_calm calm at_)

/-- A settling update: once it has been performed, the claim is given up. -/
lemma op_settle {c : Call} {p : World → Patch OutboxRecord.id}
    (exec : ∀ w b w', World.exec c w = some (b, w') → w' = w.updateOutbox row.id (p w))
    (settles : updates row.id c = true) (mem : row ∈ rows)
    (at_ : At ({⟨row.id, row.claim⟩} + own) rows a w h) :
    (spec s).op c (fun o a w h =>
      At (if o.performed.isSome then own else {⟨row.id, row.claim⟩} + own) rows a w h ∧
        ∀ id n lastError, c = .setStatus id .delivered n lastError → o.performed.isSome = true →
          o.threw = false) a w h := by
  obtain rfl := at_.share
  intro w₁ f o w₂ _ inv reply ok
  have performed (b : c.Res) (run : World.exec c w₁ = some (b, w₂)) (done : o.performed.isSome = true) :
      Inv w₂ (own + f) ∧ Later w₁ w₂ := by
    obtain rfl := exec w₁ b w₂ run
    rw [add_assoc] at inv
    exact inv.settle (ok.last row (at_.known row mem) settles done)
  have known : ∀ row ∈ rows, Claimed row (h ++ [⟨c, o⟩]) :=
    fun row mem => (at_.known row mem).append
  cases o with
  | done b =>
    obtain ⟨inv', later⟩ := performed b reply rfl
    exact ⟨trivial, own, inv', later, ⟨rfl, known⟩, ok.booked⟩
  | lost b e =>
    obtain ⟨inv', later⟩ := performed b reply.1 rfl
    exact ⟨trivial, own, inv', later, ⟨rfl, known⟩, ok.booked⟩
  | refused e =>
    obtain ⟨-, rfl⟩ := reply
    exact ⟨trivial, _, inv, fun _ delivered => delivered, ⟨rfl, known⟩, ok.booked⟩

/-! ## The programs -/

/-- A program that has given up its claim where it comes to its end. -/
def Done {α : Type} (own : Claims) (rows : List OutboxRow) : Post Api World Claims α :=
  fun r a w h => ∀ b, r = .ok b → At own rows a w h

/-- A program that goes on only where it comes to its end. -/
lemma wp_then {α β : Type} {p : Method α} {f : α → Method β} {own' : Claims}
    (hp : (spec s).wp p (Done own rows) a w h)
    (next : ∀ b a w h, At own rows a w h → (spec s).wp (f b) (Done own' rows) a w h) :
    (spec s).wp (p >>= f) (Done own' rows) a w h :=
  Spec.wp_bind_of hp (fun b _ _ _ at_ => next b _ _ _ (at_ b rfl)) fun _ _ _ _ _ _ eq => by cases eq

/-- A settling update that is awaited. -/
lemma wp_settle {c : Call} {p : World → Patch OutboxRecord.id}
    (exec : ∀ w b w', World.exec c w = some (b, w') → w' = w.updateOutbox row.id (p w))
    (settles : updates row.id c = true) (mem : row ∈ rows)
    (at_ : At ({⟨row.id, row.claim⟩} + own) rows a w h) :
    (spec s).wp (request c) (Done own rows) a w h := by
  refine Spec.wp_await (Spec.op_mono ?_ (op_settle exec settles mem at_))
  intro o a w h post b eq
  cases o with
  | done b => exact post.1
  | refused e => cases eq
  | lost b e => cases eq

/-- The clock answers. -/
lemma wp_clock (at_ : At own rows a w h) :
    (spec s).wp (request .clock) (fun r a w h => (∃ b, r = .ok b) ∧ At own rows a w h) a w h := by
  refine Spec.wp_await (Spec.op_mono ?_ (Spec.op_raises (op_calm rfl at_)))
  rintro o a w h ⟨at_, raises⟩
  cases o with
  | done b => exact ⟨⟨_, rfl⟩, at_⟩
  | refused e => cases raises e rfl
  | lost b e => cases raises e rfl

/-- A request leaves the rows. -/
lemma wp_exchange {req : HttpRequest} {id : Uuid} (at_ : At own rows a w h) :
    (spec s).wp (exchange id req) (fun _ => At own rows) a w h := by
  refine Spec.wp_bind_of (wp_calm rfl at_) (fun _ a w h at_ => ?_) fun _ _ _ _ at_ => at_
  refine Spec.wp_bind_of (wp_calm rfl at_) (fun _ a w h at_ => ?_) fun _ _ _ _ at_ => at_
  exact Spec.wp_ofExcept.2 at_

/-- Any number of redirects. -/
lemma wp_follow {redirects : Nat} {req : HttpRequest} {id : Uuid} (at_ : At own rows a w h) :
    (spec s).wp (follow s id redirects req) (fun _ => At own rows) a w h := by
  induction redirects generalizing req a w h with
  | zero =>
    refine Spec.wp_bind_of (wp_exchange at_) (fun response a w h at_ => ?_) fun _ _ _ _ at_ => at_
    cases redirection response with
    | none => exact at_
    | some location => exact at_
  | succ n ih =>
    refine Spec.wp_bind_of (wp_exchange at_) (fun response a w h at_ => ?_) fun _ _ _ _ at_ => at_
    cases redirection response with
    | none => exact at_
    | some location =>
      dsimp only
      cases s.locationUrl req.url location with
      | none => exact at_
      | some url => exact ih at_

/-- So do all requests that follow one another. -/
lemma wp_fetch {headers : List (String × String)} {body : String} {id : Uuid}
    (at_ : At own rows a w h) :
    (spec s).wp (fetch s id url headers body) (fun _ => At own rows) a w h :=
  Spec.wp_bind_of (wp_calm rfl at_) (fun _ _ _ _ at_ => wp_follow at_) fun _ _ _ _ at_ => at_

/-- The log leaves the rows, and its failure is caught. -/
lemma wp_recordDelivery {delivery : Delivery} {id : Uuid} (at_ : At own rows a w h) :
    (spec s).wp (recordDelivery id delivery) (fun r a w h => (∃ b, r = .ok b) ∧ At own rows a w h)
      a w h := by
  refine Spec.op_mono ?_ (op_calm rfl at_)
  intro o a w h at_
  cases o with
  | done b => exact ⟨⟨_, rfl⟩, at_⟩
  | refused e => exact ⟨⟨_, rfl⟩, at_⟩
  | lost b e => exact ⟨⟨_, rfl⟩, at_⟩

/-- What an attempt leaves: it does not throw, and its claim is open where it is not done. -/
def Attempted (own : Claims) (row : OutboxRow) (rows : List OutboxRow) :
    Post Api World Claims (Option (String × Bool))
  | .ok none => At own rows
  | .ok (some _) => At ({⟨row.id, row.claim⟩} + own) rows
  | .error _ => At ({⟨row.id, row.claim⟩} + own) rows

/-- An attempt books its row, or leaves it. -/
lemma wp_tryDelivery (mem : row ∈ rows) (at_ : At ({⟨row.id, row.claim⟩} + own) rows a w h) :
    (spec s).wp (tryDelivery s row client url) (fun r a w h => (∃ b, r = .ok b) ∧
      Attempted own row rows r a w h) a w h := by
  refine Spec.wp_tryCatch (Spec.wp_bind_of (wp_fetch at_) ?_ fun e a w h at_ => ⟨⟨_, rfl⟩, at_⟩)
  intro status a w h at_
  split
  case isTrue accepted =>
    refine Spec.wp_bind (Spec.wp_await (Spec.op_mono ?_ (op_settle
      (p := fun w => OutboxRecord.settle .delivered (row.attempts + 1) none w.now)
      (fun w b w' run => (Prod.mk.inj (Option.some.inj run)).2.symm) (by simp [updates]) mem at_)))
    rintro (b | e | ⟨b, e⟩) a w h ⟨at_, booked⟩
    · -- the booking is answered: nothing is written any more
      refine Spec.wp_bind_of (wp_clock at_) (fun deliveredAt a w h post => ?_) ?_
      · refine Spec.wp_bind_of (wp_recordDelivery post.2) (fun _ a w h post => ⟨⟨_, rfl⟩, post.2⟩) ?_
        rintro e a w h ⟨⟨b, eq⟩, -⟩
        cases eq
      · rintro e a w h ⟨⟨b, eq⟩, -⟩
        cases eq
    · exact ⟨⟨_, rfl⟩, at_⟩
    · cases booked row.id (row.attempts + 1) none rfl rfl
  case isFalse declined => exact ⟨⟨_, rfl⟩, at_⟩

/-- A row is given up or put back. -/
lemma wp_giveUpOrRetry {lastError : String} {retryable : Bool} (mem : row ∈ rows)
    (at_ : At ({⟨row.id, row.claim⟩} + own) rows a w h) :
    (spec s).wp (giveUpOrRetry s row client url lastError retryable) (Done own rows) a w h := by
  unfold giveUpOrRetry
  dsimp only
  split
  case isTrue =>
    refine wp_then (wp_settle
      (p := fun w => OutboxRecord.settle .failed (row.attempts + 1) (some lastError) w.now)
      (fun w b w' run => (Prod.mk.inj (Option.some.inj run)).2.symm) (by simp [updates]) mem at_) ?_
    intro _ a w h at_
    exact Spec.wp_mono (fun _ _ _ _ post _ _ => post.2) (wp_recordDelivery at_)
  case isFalse =>
    exact wp_settle (p := fun w => OutboxRecord.retry (row.attempts + 1) lastError _ w.now)
      (fun w b w' run => (Prod.mk.inj (Option.some.inj run)).2.symm) (by simp [updates]) mem at_

/-- A delivery to an endpoint is done with its row. -/
lemma wp_deliverTo (mem : row ∈ rows) (at_ : At ({⟨row.id, row.claim⟩} + own) rows a w h) :
    (spec s).wp (deliverTo s row client url) (Done own rows) a w h := by
  refine Spec.wp_bind_of (wp_tryDelivery mem at_) ?_ ?_
  · rintro outcome a w h ⟨-, post⟩
    cases outcome with
    | none => exact fun _ _ => post
    | some failure => exact wp_giveUpOrRetry mem post
  · rintro e a w h ⟨⟨b, eq⟩, -⟩
    cases eq

/-- A delivery is done with its row. -/
lemma wp_deliverOnce (mem : row ∈ rows) (at_ : At ({⟨row.id, row.claim⟩} + own) rows a w h) :
    (spec s).wp (deliverOnce s row) (Done own rows) a w h := by
  have found : (spec s).wp (Prog.settle (request (.findClient row.clientId)))
      (fun _ => At ({⟨row.id, row.claim⟩} + own) rows) a w h :=
    Spec.wp_tryCatch (Spec.wp_bind_of (wp_calm rfl at_) (fun _ _ _ _ at_ => at_) fun _ _ _ _ at_ => at_)
  refine Spec.wp_bind_of found (fun client a w h at_ => ?_) fun _ _ _ _ _ _ eq => by cases eq
  cases client with
  | error e =>
    exact wp_settle (p := fun w => OutboxRecord.retry (row.attempts + 1) _ _ w.now)
      (fun w b w' run => (Prod.mk.inj (Option.some.inj run)).2.symm) (by simp [updates]) mem at_
  | ok client =>
    cases endpoint : endpointOf client with
    | none =>
      simp only [endpoint]
      exact wp_settle (p := fun w => OutboxRecord.settle .skipped row.attempts _ w.now)
        (fun w b w' run => (Prod.mk.inj (Option.some.inj run)).2.symm) (by simp [updates]) mem at_
    | some target =>
      simp only [endpoint]
      exact wp_deliverTo mem at_

/-- Every row of a claim is worked off. -/
lemma wp_deliverAll {claimed : List OutboxRow} (known : ∀ row ∈ claimed, row ∈ rows)
    (at_ : At (claimsOf claimed + own) rows a w h) :
    (spec s).wp (Prog.forEach (deliverOnce s) claimed) (Done own rows) a w h := by
  induction claimed generalizing a w h with
  | nil => exact fun _ _ => by simpa [claimsOf] using at_
  | cons row claimed ih =>
    have split : claimsOf (row :: claimed) + own =
        {⟨row.id, row.claim⟩} + (claimsOf claimed + own) := by
      rw [← add_assoc, Multiset.singleton_add]
      rfl
    rw [split] at at_
    exact wp_then (wp_deliverOnce (known row List.mem_cons_self) at_) fun _ a w h at_ =>
      ih (fun row mem => known row (List.mem_cons_of_mem _ mem)) at_

/-- A dispatcher keeps the invariant. -/
lemma wp_dispatchDueEvents {batchSize : Nat} (at_ : At 0 [] a w h) :
    (spec s).wp (dispatchDueEvents s batchSize) Spec.triv a w h := by
  refine Spec.wp_bind_of (wp_calm rfl at_) (fun _ a w h at_ => ?_) fun _ _ _ _ _ => trivial
  have claim : (spec s).op (.claimDue batchSize) (fun o a w h => ∀ rows, o = .done rows →
      At (claimsOf rows + 0) rows a w h) a w h := by
    obtain rfl := at_.share
    intro w₁ f o w₂ _ inv reply _
    rw [zero_add] at inv
    cases o with
    | done claimed =>
      obtain ⟨rfl, rfl⟩ := Prod.mk.inj (Option.some.inj reply)
      refine ⟨trivial, claimsOf (Lifecycle.claimedRows w₁ batchSize) + 0, ?_, inv.claim.2, ?_⟩
      · rw [add_zero]
        exact inv.claim.1
      · rintro rows eq
        cases eq
        exact ⟨rfl, fun row mem => ⟨batchSize, _, List.mem_append_right _ (List.mem_singleton_self _),
          mem⟩⟩
    | refused e =>
      obtain ⟨-, rfl⟩ := reply
      refine ⟨trivial, 0, ?_, fun _ delivered => delivered, fun _ eq => by cases eq⟩
      rwa [zero_add]
    | lost claimed e =>
      -- the rows are claimed, but nobody will settle them
      obtain ⟨-, rfl⟩ := Prod.mk.inj (Option.some.inj reply.1)
      refine ⟨trivial, 0, ?_, inv.claim.2, fun _ eq => by cases eq⟩
      rw [zero_add]
      exact inv.claim.1.drop
  refine Spec.wp_bind (Spec.wp_await (Spec.op_mono ?_ claim))
  rintro (claimed | e | ⟨b, e⟩) a w h post
  · refine Spec.wp_bind_of (wp_deliverAll (fun _ mem => mem) (post claimed rfl))
      (fun _ _ _ _ _ => trivial) fun _ _ _ _ _ => trivial
  · trivial
  · trivial

/-- A webhook that is enqueued keeps it. -/
lemma wp_enqueue {clientId : Option String} {event : String} {payload : List (String × Json)}
    (at_ : At 0 [] a w h) : (spec s).wp (enqueue clientId event payload) Spec.triv a w h := by
  unfold enqueue
  split
  case h_1 => trivial
  case h_2 clientId _ =>
    refine Spec.wp_bind_of (wp_calm rfl at_) (fun _ a w h at_ => ?_) fun _ _ _ _ _ => trivial
    refine Spec.op_mono ?_ (op_calm rfl at_)
    intro o a w h _
    cases o <;> trivial

/-- A call that has not begun. -/
lemma at_nil : At 0 [] 0 w [] := ⟨rfl, fun _ mem => absurd mem List.not_mem_nil⟩

/-- Every call keeps what is delivered. -/
theorem spec_sound : (spec s).Sound := by
  intro p entry w
  cases entry with
  | enqueue => exact wp_enqueue at_nil
  | dispatch =>
    exact Spec.wp_bind_of (wp_dispatchDueEvents at_nil) (fun _ _ _ _ _ => trivial)
      fun _ _ _ _ _ => trivial

/-- Nothing has been claimed by a call. -/
lemma inv_zero : Inv w 0 :=
  ⟨Multiset.nodup_zero, fun _ mem => absurd mem (Multiset.notMem_zero _),
    fun _ mem => absurd mem (Multiset.notMem_zero _)⟩

/-- In every run in which a row is settled by its last owner only, and the answer to the booking of a
    delivery is not lost, a delivered row stays delivered. -/
theorem delivered_stays {w : World} {σ σ' : Sys Api World}
    (reach : (machine s Unsuperseded).Reachable w σ) (later : (machine s Unsuperseded).Steps σ σ')
    {r : OutboxRecord} (mem : r ∈ σ.world.outbox.rows) (delivered : r.status = .delivered) :
    ∃ r' ∈ σ'.world.outbox.rows, r'.id = r.id ∧ r'.status = .delivered := by
  obtain ⟨⟨_, holds⟩, -⟩ := Spec.Holds.steps (σ := spec s) spec_sound (Spec.Holds.init inv_zero) reach
  obtain ⟨-, le⟩ := holds.steps spec_sound later
  obtain ⟨r', found, delivered'⟩ := le r.id ⟨r, Table.find?_of_mem mem, delivered⟩
  exact ⟨r', Table.mem_of_find? found, Table.key_of_find? found, delivered'⟩

end

/-! ## Concrete runs -/

/-- Three attempts, and a receiver that needs no signature. -/
def sampleSetting : Setting := ⟨3, fun _ => "", fun _ _ => "", fun _ _ => none⟩

/-- One event is due, and the receiver answers with a 503. -/
def sampleWorld : World where
  clients := ⟨[.sample], Clients.ClientRow.nodup_sample⟩
  outbox := ⟨[⟨"row", "client", "payin.confirmed", .obj [], .pending, 0, 0, none, 0, 0⟩], by simp⟩
  deliveries := []
  now := 0
  nextUuid := "request"
  locked := []
  receiver := .ok ⟨503, none⟩
  claims := []
  sent := []
  answers := []

/-- The time-out has passed. -/
def passes (w : World) : World := { w with now := w.now + stuckDeliveryTimeout + 1 }

/-- What the receiver answers next. -/
def answering (status : Nat) (w : World) : World := { w with receiver := .ok ⟨status, none⟩ }

/-- A dispatcher begins. -/
def dispatcher : Choice Api World := .enter (Prog.discard (dispatchDueEvents sampleSetting))

/-- The first dispatcher waits for its answer while a second one recovers the row and delivers it. -/
def slowOwner : List (Choice Api World) :=
  dispatcher :: (Choice.steps 0 5 ++ .env passes :: .env (answering 200) :: dispatcher ::
    Choice.steps 1 9)

/-- Then the first request is answered after all. -/
def lateAnswer : List (Choice Api World) := .env (answering 503) :: Choice.steps 0 2

/-- The schedule of the concrete run is a legal one. -/
lemma legal_slowOwner {cond : Hist Api → World → Event Api → Prop} :
    ∀ c ∈ slowOwner, c.Legal (machine sampleSetting cond) := by
  simp only [slowOwner, List.forall_mem_cons, List.forall_mem_append]
  exact ⟨.dispatch, Choice.legal_steps, fun w => ⟨rfl, rfl, rfl, rfl, rfl⟩,
    fun w => ⟨rfl, rfl, rfl, rfl, rfl⟩, .dispatch, Choice.legal_steps⟩

/-- The delivered row waits for another delivery once the slow owner has come to its end. -/
theorem delivered_reopened : ¬∀ (s : Setting) (w : World) (σ σ' : Sys Api World),
    (machine s).Reachable w σ → (machine s).Steps σ σ' →
      ∀ r ∈ σ.world.outbox.rows, r.status = .delivered →
        ∃ r' ∈ σ'.world.outbox.rows, r'.id = r.id ∧ r'.status = .delivered := by
  intro claim
  obtain ⟨σ, σ', reach, later, res⟩ := Machine.reachable_of_runs (M := machine sampleSetting)
    (w := sampleWorld) Machine.always slowOwner lateAnswer
    (fun σ σ' => σ.world.outbox.rows.any (fun r => decide (r.status = .delivered)) &&
      σ'.world.outbox.rows.all fun r => decide (r.status = .pending)) (fun _ _ _ _ => trivial)
    legal_slowOwner (by
      simp only [lateAnswer, List.forall_mem_cons]
      exact ⟨fun w => ⟨rfl, rfl, rfl, rfl, rfl⟩, Choice.legal_steps⟩) (by decide)
  rw [Bool.and_eq_true] at res
  obtain ⟨r, mem, delivered⟩ := List.any_eq_true.1 res.1
  obtain ⟨r', mem', -, delivered'⟩ := claim _ _ _ _ reach later r mem (of_decide_eq_true delivered)
  have pending := of_decide_eq_true (List.all_eq_true.1 res.2 r' mem')
  cases pending.symm.trans delivered'

/-- The rows that a call has claimed. -/
def claimedBy (h : Hist Api) : List OutboxRow :=
  h.flatMap fun
    | ⟨.claimDue _, .done rows⟩ => rows
    | _ => []

/-- The operation is let happen. -/
def unsuperseded (h : Hist Api) (w : World) (e : Event Api) : Bool :=
  ((claimedBy h).all fun row => !updates row.id e.op || !e.outcome.performed.isSome ||
    decide (row.claim + 1 = w.claims.count row.id)) && !e.outcome.threw

/-- The check of the concrete runs decides the condition. -/
lemma unsuperseded_of {h : Hist Api} {w : World} {e : Event Api} (ok : unsuperseded h w e = true) :
    Unsuperseded h w e := by
  simp only [unsuperseded, Bool.and_eq_true, List.all_eq_true, Bool.or_eq_true, Bool.not_eq_true',
    decide_eq_true_eq] at ok
  refine ⟨fun row claimed settles performed => ?_, fun _ _ _ _ _ => ok.2⟩
  obtain ⟨n, rows, mem, row_mem⟩ := claimed
  rcases ok.1 row (List.mem_flatMap.2 ⟨_, mem, row_mem⟩) with (other | unperformed) | last
  · cases settles.symm.trans other
  · rw [unperformed] at performed
    cases performed
  · exact last

/-- A third dispatcher finds nothing to deliver, while the first owner is still waiting. -/
theorem delivered_stays_idle : ∃ σ σ', (machine sampleSetting Unsuperseded).Reachable sampleWorld σ ∧
    (machine sampleSetting Unsuperseded).Steps σ σ' ∧ σ'.world.claims.length = 2 ∧
      ∃ r' ∈ σ'.world.outbox.rows, r'.id = "row" ∧ r'.status = .delivered := by
  obtain ⟨σ, σ', reach, later, res⟩ := Machine.reachable_of_runs
    (M := machine sampleSetting Unsuperseded) (w := sampleWorld) unsuperseded slowOwner
    (dispatcher :: Choice.steps 2 2)
    (fun σ σ' => σ.world.outbox.rows.any (fun r => decide (r.id = "row" ∧ r.status = .delivered)) &&
      decide (σ'.world.claims.length = 2)) (fun _ _ _ => unsuperseded_of)
    legal_slowOwner (List.forall_mem_cons.2 ⟨.dispatch, Choice.legal_steps⟩) (by decide)
  rw [Bool.and_eq_true] at res
  obtain ⟨r, mem, holds⟩ := List.any_eq_true.1 res.1
  obtain ⟨id, delivered⟩ := of_decide_eq_true holds
  obtain ⟨r', mem', id', delivered'⟩ := delivered_stays reach later mem delivered
  exact ⟨σ, σ', reach, later, of_decide_eq_true res.2, r', mem', id'.trans id, delivered'⟩

end AvaSettle.Webhooks.Redelivery
