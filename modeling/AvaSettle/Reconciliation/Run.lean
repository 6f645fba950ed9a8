import AvaSettle.Model.Frame
import AvaSettle.Payins.Runs
import AvaSettle.Reconciliation.Service

/-!
# What a reconciliation run looks at

A run reconciles the pending pay-ins that it has listed and not filtered out. The filter goes by the
clock alone, so a pay-in that has expired is left out whatever has arrived for it.
-/

namespace AvaSettle.Reconciliation
open Async
open Data (Table)

/-! ## Batches -/

/-- The first batches hold the first items. -/
lemma flatten_batches_aux {T : Type} {items : List T} {n k : Nat} :
    ((List.range n).map fun i => (items.drop (i * k)).take k).flatten = items.take (n * k) := by
  induction n with
  | zero => simp
  | succ n ih =>
    rw [List.range_succ, List.map_append, List.flatten_append, ih, Nat.succ_mul, List.take_add]
    simp

/-- The batches are the list. -/
lemma flatten_batches {T : Type} {items : List T} : (batches items).flatten = items := by
  rw [batches, flatten_batches_aux, List.take_of_length_le]
  simp only [reconciliationConcurrency]
  omega

/-! ## Listing -/

/-- The pay-ins are those of the table. -/
def PayIns (t : Table PayInRecord.id) (w : World) : Prop := w.payins = t

/-- The rows of a table that a listing answers. -/
def listed (t : Table PayInRecord.id) (query : Payins.ListPayInsQueryDto)
    (context : RequestContext) : List PayInRecord :=
  page PayInRecord.createdAt (query.limit.getD 200) (query.offset.getD 0)
    (t.select fun r => ListFilters.matches ⟨context.clientId, query.status, query.externalId,
      query.limit, query.offset⟩ r.clientId r.status r.externalId)

section
variable {d : Deployment} {t : Table PayInRecord.id} {context : RequestContext}
  {turns : Interleaving}

/-- Items that are each what a result tells are what the results tell. -/
lemma map_of_forall₂ {T U : Type} {f : U → T} {xs : List T} {ys : List U}
    (each : List.Forall₂ (fun x y => f y = x) xs ys) : ys.map f = xs := by
  induction each with
  | nil => rfl
  | cons head _ ih => rw [List.map_cons, head, ih]

/-- An operation keeps what it keeps in every world. -/
lemma keeps_request {I : World → Prop} {c : Call} {A : c.Res → Prop}
    (keep : ∀ w b w', I w → World.exec c w = some (b, w') → I w' ∧ A b) :
    services.Keeps I A (request c) :=
  Machine.keeps_await keep

/-- An audit trail is read without effect. -/
lemma stays_auditListBySubject {I : World → Prop} {id : Uuid} :
    services.Stays I (.auditListBySubject id) fun _ => True := by
  intro w o w' h inv reply _
  cases o with
  | done b =>
    cases reply
    exact ⟨inv, trivial⟩
  | refused e =>
    obtain ⟨-, rfl⟩ := reply
    exact ⟨inv, trivial⟩
  | lost b e =>
    cases reply.1
    exact ⟨inv, trivial⟩

/-- A list of pay-ins holds the rows that the query selects. -/
lemma keeps_listPayIns {query : Payins.ListPayInsQueryDto} :
    services.Keeps (PayIns t) (fun l => l.map PayInResponse.toPayInRecord = listed t query context)
      (Payins.listPayIns query context) := by
  refine Machine.keeps_bind (keeps_request (A := (· = listed t query context))
    fun w b w' inv run => ?_) fun rows eq => ?_
  · cases run
    cases inv
    exact ⟨rfl, rfl⟩
  · rw [← eq]
    refine Machine.keeps_mono (fun _ => map_of_forall₂) (Machine.keeps_promiseAll fun r _ => ?_)
    refine Machine.stays_mono (fun o _ b res => ?_) stays_auditListBySubject
    cases eq : o.answer with
    | ok trail =>
      rw [eq] at res
      cases res
      rfl
    | error e =>
      rw [eq] at res
      cases res

/-- A list of payouts keeps the pay-ins. -/
lemma keeps_listPayouts {query : Payouts.ListPayoutsQueryDto} :
    services.Keeps (PayIns t) (fun _ => True) (Payouts.listPayouts query context) := by
  refine Machine.keeps_bind (keeps_request (A := fun _ => True) fun w b w' inv run => ?_)
    fun rows _ => ?_
  · cases run
    exact ⟨inv, trivial⟩
  · refine Machine.keeps_mono (fun _ _ => trivial) (Machine.keeps_promiseAll (R := fun _ _ => True)
      fun r _ => ?_)
    exact Machine.stays_mono (fun _ _ _ _ => trivial) stays_auditListBySubject

/-! ## Settling -/

/-- What a result says about its subject. -/
def tag (item : ReconciliationItemResult) : ReconciliationItemType × Uuid := (item.type, item.id)

/-- The item of a payout carries its id, whatever its reconciliation does. -/
lemma keeps_settlePayout {payout : PayoutResponse} :
    services.Keeps (fun _ => True) (fun r => ∃ item, r = .ok item ∧ tag item = (.payout, payout.id))
      (settlePayout d context payout).settle :=
  Machine.keeps_settle (Machine.keeps_bind Machine.keeps_trivial fun _ _ => rfl) fun _ => rfl

/-- So does the item of a pay-in. -/
lemma keeps_settlePayIn {payin : PayInResponse} :
    services.Keeps (fun _ => True) (fun r => ∃ item, r = .ok item ∧ tag item = (.payin, payin.id))
      (settlePayIn d context payin).settle :=
  Machine.keeps_settle (Machine.keeps_bind Machine.keeps_trivial fun _ _ => rfl) fun _ => rfl

/-- The tags of the results of calls that are all fulfilled. -/
lemma map_tag_of_forall₂ {T : Type} {f : T → ReconciliationItemType × Uuid} {xs : List T}
    {rs : List (Except Exception ReconciliationItemResult)}
    (each : List.Forall₂ (fun x r => ∃ item, r = .ok item ∧ tag item = f x) xs rs) :
    (rs.filterMap Except.toOption).map tag = xs.map f := by
  induction each with
  | nil => rfl
  | cons head _ ih =>
    obtain ⟨item, rfl, eq⟩ := head
    simp [Except.toOption, eq, ih]

/-- The loop pushes one result for each element of the batches. -/
lemma keeps_settleBatches {T : Type} {settle : T → Method ReconciliationItemResult}
    {f : T → ReconciliationItemType × Uuid} {turns : Nat → Nat → Turns} {bs : List (List T)}
    {results : List ReconciliationItemResult}
    (each : ∀ x, services.Keeps (fun _ => True)
      (fun r => ∃ item, r = .ok item ∧ tag item = f x) (settle x).settle) :
    services.Keeps (fun _ => True) (fun items => items.map tag = results.map tag ++
      bs.flatten.map f) (settleBatches settle bs turns results) := by
  induction bs generalizing turns results with
  | nil => simp [settleBatches, Machine.Keeps, Pure.pure]
  | cons batch bs ih =>
    refine Machine.keeps_bind (Machine.keeps_allSettled fun x _ => each x) fun settled all => ?_
    refine Machine.keeps_mono (fun items eq => ?_) ih
    rw [eq, List.map_append, map_tag_of_forall₂ all, List.flatten_cons, List.map_append,
      List.append_assoc]

/-! ## The whole run -/

/-- The clock reading of an event. -/
def clockOf : Event Api → Option Timestamp
  | ⟨.clock, .done now⟩ => some now
  | _ => none

/-- The clock readings of a run: the first is `startedAt`, the second is what the filter goes by. -/
def readings (h : Hist Api) : List Timestamp := h.filterMap clockOf

/-- Nothing but the run writes to the pay-ins. -/
def Alone (_ : Hist Api) (w w' : World) : Prop := w'.payins = w.payins

/-- The run has reconciled the pay-in. -/
def Reconciled (id : Uuid) (result : ReconciliationRunResult) : Prop :=
  ∃ item ∈ result.results, item.type = .payin ∧ item.id = id

/-- The context sees the row. -/
def Sees (context : RequestContext) (r : PayInRecord) : Prop :=
  ∀ c, truthy context.clientId = some c → r.clientId = some c

/-- The pay-in has not expired at the time. -/
def Live (now : Timestamp) (r : PayInRecord) : Prop :=
  ∀ expiresAt, r.expiresAt = some expiresAt → now < expiresAt

/-- The three listings answer the rows of the table. -/
def Candidates (t : Table PayInRecord.id) (context : RequestContext)
    (l : List PayInResponse × List PayInResponse × List PayInResponse) : Prop :=
  l.1.map PayInResponse.toPayInRecord = listed t ⟨some .pending, none, some batchLimit, none⟩ context ∧
    l.2.1.map PayInResponse.toPayInRecord =
      listed t ⟨some .detected, none, some batchLimit, none⟩ context ∧
    l.2.2.map PayInResponse.toPayInRecord =
      listed t ⟨some .underpaid, none, some batchLimit, none⟩ context

/-- The candidates are the pay-ins that the lists hold. -/
lemma keeps_listPayInCandidates {ts : Nat → Turns} :
    services.Keeps (PayIns t) (Candidates t context) (listPayInCandidates ts context) :=
  Machine.keeps_both keeps_listPayIns (Machine.keeps_both keeps_listPayIns keeps_listPayIns)

/-- A row that is listed is in the table and has the status that is asked for. -/
lemma of_mem_listed {query : Payins.ListPayInsQueryDto} {status : PayInStatus} {r : PayInRecord}
    (filter : query.status = some status) (mem : r ∈ listed t query context) :
    r ∈ t.rows ∧ r.status = status := by
  obtain ⟨mem, shown⟩ := List.mem_filter.1 (mem_of_page mem)
  simp only [ListFilters.matches, filter, Bool.and_eq_true, Option.all_some, decide_eq_true_eq]
    at shown
  exact ⟨mem, shown.1.2⟩

/-- A pending row is listed while there are no more than the limit. -/
lemma mem_listed {r : PayInRecord} (mem : r ∈ t.rows) (pending : r.status = .pending)
    (sees : Sees context r)
    (few : (t.select fun r => decide (r.status = .pending)).length ≤ batchLimit) :
    r ∈ listed t ⟨some .pending, none, some batchLimit, none⟩ context := by
  refine (mem_page (le_trans ?_ few)).2 (List.mem_filter.2 ⟨mem, ?_⟩)
  · refine List.Sublist.length_le (List.monotone_filter_right _ fun r shown => ?_)
    simp only [ListFilters.matches, Bool.and_eq_true, Option.all_some] at shown
    exact shown.1.2
  · simp only [ListFilters.matches, pending, Bool.and_eq_true, Option.all_some, decide_true,
      and_true]
    exact ⟨Option.all_eq_true _ _ |>.2 fun c eq => decide_eq_true (sees c eq), rfl⟩

/-- The pay-in is open at the time: pending and not expired, detected or underpaid. -/
def Open (now : Timestamp) (r : PayInRecord) : Prop :=
  r.status = .pending ∧ Live now r ∨ r.status = .detected ∨ r.status = .underpaid

/-- The listing of its status answers the row. -/
def Listed (t : Table PayInRecord.id) (context : RequestContext) (r : PayInRecord) : Prop :=
  r ∈ listed t ⟨some r.status, none, some batchLimit, none⟩ context

/-- The pay-in is open and listed. -/
def Candidate (t : Table PayInRecord.id) (context : RequestContext) (now : Timestamp) (id : Uuid) :
    Prop :=
  ∃ r ∈ t.rows, r.id = id ∧ Open now r ∧ Listed t context r

/-- The candidates of a run are the pay-ins that are open and listed. -/
lemma candidate_iff {id : Uuid} {now : Timestamp}
    {l : List PayInResponse × List PayInResponse × List PayInResponse}
    (candidates : Candidates t context l) :
    (∃ p ∈ pendingCandidates now l.1 ++ l.2.1 ++ l.2.2, p.id = id) ↔
      Candidate t context now id := by
  obtain ⟨pending, detected, underpaid⟩ := candidates
  have row {p : PayInResponse} {query : Payins.ListPayInsQueryDto} {status : PayInStatus}
      (filter : query = ⟨some status, none, some batchLimit, none⟩)
      (listing : p.toPayInRecord ∈ listed t query context) (id' : p.id = id)
      (isOpen : p.status = status → Open now p.toPayInRecord) : Candidate t context now id := by
    subst filter
    obtain ⟨mem, shown⟩ := of_mem_listed rfl listing
    refine ⟨p.toPayInRecord, mem, id', isOpen shown, ?_⟩
    rw [Listed, shown]
    exact listing
  constructor
  · rintro ⟨p, hp, id'⟩
    rcases List.mem_append.1 hp with hp | hp
    · rcases List.mem_append.1 hp with hp | hp
      · obtain ⟨hp, live⟩ := List.mem_filter.1 hp
        refine row rfl (pending ▸ List.mem_map_of_mem hp) id' fun status => .inl ⟨status, ?_⟩
        intro expiresAt expires
        have expires : p.expiresAt = some expiresAt := expires
        rw [expires] at live
        exact of_decide_eq_true live
      · exact row rfl (detected ▸ List.mem_map_of_mem hp) id' fun status => .inr (.inl status)
    · exact row rfl (underpaid ▸ List.mem_map_of_mem hp) id' fun status => .inr (.inr status)
  · rintro ⟨r, -, rfl, isOpen, listing⟩
    rcases isOpen with ⟨status, live⟩ | status | status
    · rw [Listed, status, ← pending] at listing
      obtain ⟨p, hp, rfl⟩ := List.mem_map.1 listing
      have kept : p ∈ pendingCandidates now l.1 := List.mem_filter.2 ⟨hp,
        (Option.all_eq_true _ _).2 fun expiresAt expires => decide_eq_true (live expiresAt expires)⟩
      exact ⟨p, List.mem_append_left _ (List.mem_append_left _ kept), rfl⟩
    · rw [Listed, status, ← detected] at listing
      obtain ⟨p, hp, rfl⟩ := List.mem_map.1 listing
      exact ⟨p, List.mem_append_left _ (List.mem_append_right _ hp), rfl⟩
    · rw [Listed, status, ← underpaid] at listing
      obtain ⟨p, hp, rfl⟩ := List.mem_map.1 listing
      exact ⟨p, List.mem_append_right _ hp, rfl⟩

/-- The loops push one result for each candidate. -/
lemma keeps_settleCandidates {startedAt : Timestamp} {payouts : List PayoutResponse}
    {payins : List PayInResponse} : services.Keeps (fun _ => True)
      (fun result => result.results.map tag =
        payouts.map (fun p => (.payout, p.id)) ++ payins.map fun p => (.payin, p.id))
      (settleCandidates d turns context startedAt payouts payins) := by
  refine Machine.keeps_bind (keeps_settleBatches fun _ => keeps_settlePayout) fun first eq => ?_
  refine Machine.keeps_bind (keeps_settleBatches fun _ => keeps_settlePayIn) fun all eq' => ?_
  refine Machine.keeps_bind Machine.keeps_trivial fun _ _ => ?_
  change all.map tag = _
  rw [eq', eq, flatten_batches, flatten_batches]
  rfl

/-- The results of a run name the candidates. -/
lemma reconciled_iff_of_tags {id : Uuid} {result : ReconciliationRunResult}
    {payouts : List PayoutResponse} {payins : List PayInResponse}
    (tags : result.results.map tag = payouts.map (fun p => (.payout, p.id)) ++
      payins.map fun p => (.payin, p.id)) :
    Reconciled id result ↔ ∃ p ∈ payins, p.id = id := by
  have named : Reconciled id result ↔ (.payin, id) ∈ result.results.map tag := by
    simp [Reconciled, tag]
  rw [named, tags]
  simp

/-- The rest of a run, once the clock has been read. -/
lemma wp_runAt {startedAt now : Timestamp} {w : World} {h : Hist Api} :
    services.wp Alone (runAt d turns context startedAt now) (fun r _ h' => h <+: h' ∧
      ∀ result, r = .ok result → ∃ l, Candidates w.payins context l ∧ ∀ id,
        (Reconciled id result ↔ ∃ p ∈ pendingCandidates now l.1 ++ l.2.1 ++ l.2.2, p.id = id))
      w h := by
  have stable : ∀ h w' w'', Alone h w' w'' → PayIns w.payins w' → PayIns w.payins w'' :=
    fun _ _ _ alone payins => alone.trans payins
  refine Machine.wp_bind (Machine.wp_mono (fun r w₁ h₁ post => ?_)
    (Machine.wp_of_keeps stable rfl keeps_listPayouts))
  obtain ⟨inv, before, -⟩ := post
  cases r with
  | error e => exact ⟨before, nofun⟩
  | ok payouts =>
    refine Machine.wp_bind (Machine.wp_mono (fun r w₂ h₂ post => ?_)
      (Machine.wp_of_keeps stable inv keeps_listPayInCandidates))
    obtain ⟨-, next, candidates⟩ := post
    cases r with
    | error e => exact ⟨before.trans next, nofun⟩
    | ok l =>
      refine Machine.wp_mono (fun r w₃ h₃ post => ?_)
        (Machine.wp_of_keeps (fun _ _ _ _ _ => trivial) trivial keeps_settleCandidates)
      obtain ⟨-, last, tags⟩ := post
      refine ⟨before.trans (next.trans last), fun result eq => ⟨l, candidates l rfl, fun id => ?_⟩⟩
      exact reconciled_iff_of_tags (tags result eq)

/-- A run reconciles the pay-ins that are open and listed when it begins, by the clock that it reads. -/
theorem reconciled_iff {w w' : World} {h : Hist Api} {result : ReconciliationRunResult}
    {now : Timestamp} {id : Uuid}
    (run : services.Runs Alone (run d turns context) w [] (.ok result) w' h)
    (clock : (readings h)[1]? = some now) :
    Reconciled id result ↔ Candidate w.payins context now id := by
  refine Machine.wp_sound run (Q := fun res _ h => ∀ result now, res = .ok result →
    (readings h)[1]? = some now → (Reconciled id result ↔ Candidate w.payins context now id)) ?_
      result now rfl clock
  have read : ∀ {w₁ : World} {o : Outcome Exception Timestamp} {w₂ : World},
      services.Reply .clock w₁ o w₂ → w₂ = w₁ ∧ ∃ t, o = .done t := by
    intro w₁ o w₂ reply
    cases o with
    | done t =>
      cases reply
      exact ⟨rfl, _, rfl⟩
    | refused e => cases reply.1
    | lost t e => cases reply.2
  intro w₁ o w₂ alone reply _
  obtain ⟨rfl, startedAt, rfl⟩ := read reply
  intro w₃ o w₄ alone' reply' _
  obtain ⟨rfl, now', rfl⟩ := read reply'
  refine Machine.wp_mono (fun res w₅ h₅ post => ?_) wp_runAt
  rintro result now rfl clock
  obtain ⟨⟨rest, rfl⟩, post⟩ := post
  obtain ⟨l, candidates, named⟩ := post result rfl
  obtain rfl : now' = now := Option.some.inj clock
  have table : w₄.payins = w.payins := alone'.trans alone
  rw [table] at candidates
  rw [named, candidate_iff candidates]

/-- A run reconciles a pending pay-in just when the pay-in has not expired by the clock that the run
    has read. -/
theorem reconciles_iff {w w' : World} {h : Hist Api} {result : ReconciliationRunResult}
    {now : Timestamp} {r : PayInRecord}
    (run : services.Runs Alone (run d turns context) w [] (.ok result) w' h)
    (clock : (readings h)[1]? = some now) (mem : r ∈ w.payins.rows) (pending : r.status = .pending)
    (sees : Sees context r)
    (few : (w.payins.select fun r => decide (r.status = .pending)).length ≤ batchLimit) :
    Reconciled r.id result ↔ Live now r := by
  rw [reconciled_iff run clock]
  constructor
  · rintro ⟨r', mem', id, isOpen, -⟩
    obtain rfl : r' = r := List.inj_on_of_nodup_map w.payins.nodup mem' mem id
    rcases isOpen with ⟨-, live⟩ | status | status
    · exact live
    · cases pending.symm.trans status
    · cases pending.symm.trans status
  · intro live
    refine ⟨r, mem, rfl, .inl ⟨pending, live⟩, ?_⟩
    rw [Listed, pending]
    exact mem_listed mem pending sees few

end

/-! ## Concrete runs -/

/-- The row of a pay-in of one USDC. -/
def arrivedRow (expiresInMinutes : Option Nat) : PayInRecord :=
  Payins.newPayIn .sample
    { Payins.sampleDto .derivedAddress with expiresInMinutes } .sample World.sampleId 0 1000000 1
    .derivedAddress none none 0 Payins.sampleDeposit

/-- A ledger with one pay-in of one USDC, which has arrived, two minutes after it was created. -/
def arrivedWorld (expiresInMinutes : Option Nat) : World :=
  Payins.arrive [Payins.sampleTransfer] []
    { World.sample with
      payins := ⟨[arrivedRow expiresInMinutes], List.nodup_singleton _⟩
      now := 120000 }

/-- Every call is answered in the order in which it was made. -/
def inOrder : Interleaving := ⟨fun _ _ => true, fun _ _ _ => true, fun _ _ _ => true⟩

/-- What a call is evaluated to, without failures, is one of its runs. -/
lemma runs_of_quick {α : Type} {p : Method α} {w : World}
    (P : Except Exception α → World → Hist Api → Bool)
    (res : ((quick (fun _ _ => True) (fun _ => False) fun _ _ _ => True).play Machine.always p
      (.replicate 40 .done) w []).any (fun q => P q.1 q.2.1 q.2.2) = true) :
    ∃ r w' h, services.Runs Alone p w [] r w' h ∧ P r w' h = true := by
  rw [quick_eq] at res
  obtain ⟨⟨r, w', h⟩, eq, hP⟩ := (Option.any_eq_true _ _).1 res
  exact ⟨r, w', h, Machine.runs_of_play (fun _ _ _ _ => trivial) (fun _ _ => rfl) eq, hP⟩

/-- The result satisfies `p`. -/
def returns {α : Type} (p : α → Bool) : Except Exception α → Bool
  | .ok a => p a
  | .error _ => false

/-- A result that the check accepts is a value. -/
lemma of_returns {α : Type} {p : α → Bool} {r : Except Exception α} (res : returns p r = true) :
    ∃ a, r = .ok a ∧ p a = true := by
  cases r with
  | ok a => exact ⟨a, rfl, res⟩
  | error e => cases res

/-- A pay-in that does not expire is reconciled. -/
theorem reconciles_iff_of_live : ∃ result, Reconciled World.sampleId result ∧
    (Reconciled World.sampleId result ↔ Live 120000 (arrivedRow none)) := by
  obtain ⟨r, w', h, runs, res⟩ := runs_of_quick (p := run .sample inOrder .sample)
    (w := arrivedWorld none) (fun r _ h => returns (fun _ => true) r &&
      decide ((readings h)[1]? = some 120000)) (by decide +kernel)
  rw [Bool.and_eq_true] at res
  obtain ⟨result, rfl, -⟩ := of_returns res.1
  have iff := reconciles_iff (r := arrivedRow none) runs (of_decide_eq_true res.2)
    (List.mem_singleton_self _) rfl (by rintro c ⟨⟩; rfl) (by decide)
  exact ⟨result, iff.2 nofun, iff⟩

/-- A pay-in that has been paid in full, and has expired: its reconciliation finds the payment, but a
    run leaves it out. -/
theorem expired_skipped : (arrivedWorld (some 1)).payins.rows = [arrivedRow (some 1)] ∧
    (arrivedRow (some 1)).status = .pending ∧ ∃ response w₁ h₁ result w₂ h₂,
    services.Runs Alone (Payins.reconcilePayIn .sample World.sampleId .sample)
      (arrivedWorld (some 1)) [] (.ok response) w₁ h₁ ∧ response.status = .confirmed ∧
    services.Runs Alone (run .sample inOrder .sample)
      (arrivedWorld (some 1)) [] (.ok result) w₂ h₂ ∧ ¬Reconciled World.sampleId result := by
  obtain ⟨r₁, w₁, h₁, runs₁, res₁⟩ := runs_of_quick
    (p := Payins.reconcilePayIn .sample World.sampleId .sample) (w := arrivedWorld (some 1))
    (fun r _ _ => returns (fun response : PayInResponse => decide (response.status = .confirmed)) r)
    (by decide +kernel)
  obtain ⟨r₂, w₂, h₂, runs₂, res₂⟩ := runs_of_quick (p := run .sample inOrder .sample)
    (w := arrivedWorld (some 1)) (fun r _ _ => returns (fun result => result.results.isEmpty) r)
    (by decide +kernel)
  obtain ⟨response, rfl, status⟩ := of_returns res₁
  obtain ⟨result, rfl, empty⟩ := of_returns res₂
  refine ⟨rfl, rfl, response, w₁, h₁, result, w₂, h₂, runs₁, of_decide_eq_true status, runs₂, ?_⟩
  rintro ⟨item, mem, -⟩
  rw [List.isEmpty_iff.1 empty] at mem
  cases mem

end AvaSettle.Reconciliation
