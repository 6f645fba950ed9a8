import AvaSettle.Async.Possible
import AvaSettle.Reconciliation.Run

/-!
# What successive reconciliation runs look at

A run lists the newest thousand rows of a status, and so does the next one. Rows that do not change keep
their places, and those behind them are not looked at, however often a run is repeated.
-/

namespace AvaSettle.Reconciliation
open Async Machine
open Data (Table)

variable {d : Deployment} {context : RequestContext}

/-! ## Successive runs -/

/-- One application of `run`: the ledger it begins with, the clock reading that it filters by, and its
    result. -/
structure Pass where
  before : World
  now : Timestamp
  result : ReconciliationRunResult

/-- `run` is applied again and again. While it runs, nothing else writes to the pay-ins, and in between
    no pay-in is created. -/
inductive Applied (d : Deployment) (context : RequestContext) : World → List Pass → Prop where
  | nil {w} : Applied d context w []
  | cons {w w' w'' turns result h now passes}
      (run : services.Runs Alone (run d turns context) w [] (.ok result) w' h)
      (clock : (readings h)[1]? = some now)
      (uncreated : ∀ r ∈ w''.payins.rows, ∃ r' ∈ w'.payins.rows, r'.id = r.id)
      (rest : Applied d context w'' passes) : Applied d context w (⟨w, now, result⟩ :: passes)

/-- One of the runs has reconciled the pay-in. -/
def Reached (id : Uuid) (passes : List Pass) : Prop := ∃ pass ∈ passes, Reconciled id pass.result

/-- The runs that it takes to look at all rows in a status, a thousand at a time. -/
def passesFor (t : Table PayInRecord.id) (status : PayInStatus) : Nat :=
  ((t.select fun r => decide (r.status = status)).length + (batchLimit - 1)) / batchLimit

/-- Successive runs reach a pay-in just when it is open and listed before one of them. -/
lemma reached_iff_candidate {w : World} {passes : List Pass} {id : Uuid}
    (applied : Applied d context w passes) :
    Reached id passes ↔ ∃ pass ∈ passes, Candidate pass.before.payins context pass.now id := by
  induction applied with
  | nil => exact ⟨nofun, nofun⟩
  | cons run clock _ _ ih =>
    unfold Reached at ih ⊢
    rw [List.exists_mem_cons_iff, List.exists_mem_cons_iff, ih, reconciled_iff run clock]

/-! ## A run that changes nothing -/

section
variable {w : World}

/-- Nothing happens beside a call at once. -/
lemma alone_refl (h : Hist Api) : Alone h w w := rfl

/-- A question is answered and changes nothing. -/
lemma may_request {c : Call} {b : c.Res} (reads : World.exec c w = some (b, w)) :
    services.May Alone w (Returning fun _ => True) (request c) :=
  may_await (M := services) alone_refl (fun _ => trivial) reads trivial

/-- A question may fail. -/
lemma may_refused {c : Call} {R : Except Exception c.Res → Prop}
    (raises : c.raises (.error "") = true) (holds : R (.error (.error ""))) :
    services.May Alone w R (request c) :=
  may_refuse (M := services) alone_refl (fun _ _ => trivial) raises holds

/-- A list of pay-ins may return. -/
lemma may_listPayIns {query : Payins.ListPayInsQueryDto} :
    services.May Alone w (Returning fun _ => True) (Payins.listPayIns query context) := by
  refine may_bind_of (may_request rfl) fun rows _ =>
    may_promiseAll alone_refl (fun _ _ _ => trivial) fun s mem => ?_
  obtain ⟨r, -, rfl⟩ := List.mem_map.1 mem
  exact ⟨_, _, _, _, rfl, rfl, rfl⟩

/-- A list of payouts may return. -/
lemma may_listPayouts {query : Payouts.ListPayoutsQueryDto} :
    services.May Alone w (Returning fun _ => True) (Payouts.listPayouts query context) := by
  refine may_bind_of (may_request rfl) fun rows _ =>
    may_promiseAll alone_refl (fun _ _ _ => trivial) fun s mem => ?_
  obtain ⟨r, -, rfl⟩ := List.mem_map.1 mem
  exact ⟨_, _, _, _, rfl, rfl, rfl⟩

/-- The reconciliation of a pay-in may fail to read its row. -/
lemma may_settlePayIn {payin : PayInResponse} :
    services.May Alone w (fun _ => True) (settlePayIn d context payin) := by
  refine may_tryCatch (may_bind (may_bind (may_bind ?_)))
  exact may_refused rfl (may_pure trivial)

/-- A payout may be settled without a change. -/
lemma may_settlePayout {payout : PayoutResponse} :
    services.May Alone w (fun _ => True) (settlePayout d context payout) := by
  refine may_tryCatch (may_bind (may_bind (may_bind ?_)))
  exact may_refused rfl (may_pure trivial)

/-- So may all batches. -/
lemma may_settleBatches {T : Type} {settle : T → Method ReconciliationItemResult}
    {bs : List (List T)} {results : List ReconciliationItemResult}
    (each : ∀ x, services.May Alone w (fun _ => True) (settle x)) :
    services.May Alone w (Returning fun _ => True)
      (settleBatches settle bs (fun _ _ => firstFirst) results) := by
  induction bs generalizing results with
  | nil => exact may_pure trivial
  | cons batch bs ih =>
    refine may_bind_of (may_allSettled fun p mem => ?_) fun settled _ => ih
    obtain ⟨x, -, rfl⟩ := List.mem_map.1 mem
    exact each x

variable (d context) in
/-- A run may list everything, fail to reconcile anything, and leave the ledger as it was. -/
lemma idle_pass (w : World) : ∃ h result,
    services.Runs Alone (run d inOrder context) w [] (.ok result) w h ∧
      (readings h)[1]? = some w.now := by
  have rest : services.May Alone w (Returning fun _ => True) (runAt d inOrder context w.now w.now) := by
    refine may_bind_of may_listPayouts fun payouts _ => may_bind_of
      (may_both may_listPayIns (may_both may_listPayIns may_listPayIns)) fun l _ => ?_
    refine may_bind_of (may_settleBatches fun _ => may_settlePayout) fun _ _ => ?_
    refine may_bind_of (may_settleBatches fun _ => may_settlePayIn) fun _ _ => ?_
    exact may_bind_of (may_request rfl) fun _ _ => may_pure trivial
  let read : Event Api := ⟨.clock, .done w.now⟩
  obtain ⟨_ | result, h, run, ⟨more, rfl⟩, returned⟩ := rest [read, read]
  · exact returned.elim
  · have reply : services.Reply .clock w (.done w.now) w := rfl
    have again : services.Runs Alone (request .clock >>= runAt d inOrder context w.now) w [read]
        (.ok result) w ([read, read] ++ more) := .call (alone_refl _) reply trivial run
    exact ⟨[read, read] ++ more, result, .call (alone_refl _) reply trivial again, rfl⟩

variable (d context) in
/-- So may any number of runs. -/
lemma idle_passes (w : World) (n : Nat) : ∃ passes, Applied d context w passes ∧
    passes.length = n ∧ ∀ pass ∈ passes, pass.before = w ∧ pass.now = w.now := by
  obtain ⟨h, result, run, clock⟩ := idle_pass d context w
  induction n with
  | zero => exact ⟨[], .nil, rfl, nofun⟩
  | succ n ih =>
    obtain ⟨passes, applied, length, same⟩ := ih
    refine ⟨⟨w, w.now, result⟩ :: passes, ?_, congrArg Nat.succ length, ?_⟩
    · exact .cons run clock (fun r mem => ⟨r, mem, rfl⟩) applied
    · exact List.forall_mem_cons.2 ⟨⟨rfl, rfl⟩, same⟩

end

/-! ## Every sequence of runs -/

/-- Whatever becomes of the operations, the runs that it takes to look at all rows in a status reach an
    open pay-in just when the first of them lists it; and where they go on, they reach it just when it
    is open and listed before one of them. -/
theorem reached_iff {w : World} {r : PayInRecord} (mem : r ∈ w.payins.rows)
    (isOpen : Open w.now r) :
    ((∀ passes, Applied d context w passes → passes.length = passesFor w.payins r.status →
        (∀ pass ∈ passes.head?, Open pass.now r) → Reached r.id passes) ↔
      Listed w.payins context r) ∧
    ∀ passes, Applied d context w passes → (Reached r.id passes ↔
      ∃ pass ∈ passes, Candidate pass.before.payins context pass.now r.id) := by
  refine ⟨⟨fun all => ?_, fun newest passes applied length begun => ?_⟩,
    fun passes applied => reached_iff_candidate applied⟩
  · obtain ⟨passes, applied, length, same⟩ :=
      idle_passes d context w (passesFor w.payins r.status)
    have reached := all passes applied length fun pass head => by
      rw [(same pass (List.mem_of_mem_head? head)).2]
      exact isOpen
    obtain ⟨pass, member, r', mem', id, -, newest⟩ := (reached_iff_candidate applied).1 reached
    rw [(same pass member).1] at mem' newest
    exact List.inj_on_of_nodup_map w.payins.nodup mem' mem id ▸ newest
  · cases applied with
    | nil =>
      have self : r ∈ w.payins.select fun r' => decide (r'.status = r.status) :=
        List.mem_filter.2 ⟨mem, decide_eq_true rfl⟩
      have some_ := List.length_pos_of_mem self
      have none_ : 0 = passesFor w.payins r.status := length
      simp only [passesFor, batchLimit] at none_
      omega
    | cons run clock uncreated rest =>
      refine (reached_iff_candidate (.cons run clock uncreated rest)).2 ?_
      exact ⟨_, List.mem_cons_self, r, mem, rfl, begun _ rfl, newest⟩

/-! ## Concrete ledgers -/

/-- A pay-in that was created later than the first one, and has expired. -/
def expiredRow (i : Nat) : PayInRecord :=
  { arrivedRow none with
    id := String.ofList ('1' :: List.replicate i '0')
    externalId := String.ofList ('1' :: List.replicate i '0')
    depositAddress := String.ofList ('0' :: 'x' :: List.replicate i '0')
    derivationIndex := i + 1
    createdAt := i + 1
    expiresAt := some (i + 60001) }

/-- A pay-in of one USDC, which has arrived, and newer ones, which have expired. -/
def crowdedRows (n : Nat) : List PayInRecord := arrivedRow none :: (List.range n).map expiredRow

/-- The rows of the crowded table have different ids. -/
lemma crowdedRows_nodup (n : Nat) : ((crowdedRows n).map PayInRecord.id).Nodup := by
  refine List.nodup_cons.2 ⟨fun mem => ?_, ?_⟩
  · obtain ⟨r, mem, same⟩ := List.mem_map.1 mem
    obtain ⟨i, -, rfl⟩ := List.mem_map.1 mem
    have chars := congrArg String.toList same
    rw [expiredRow, String.toList_ofList] at chars
    cases chars
  · rw [List.map_map]
    refine List.nodup_range.map fun i j same => ?_
    have length := congrArg String.length same
    simpa [expiredRow] using length

/-- The ledger of these pay-ins, two minutes after the first was created. -/
def crowdedWorld (n : Nat) : World :=
  Payins.arrive [Payins.sampleTransfer] []
    { World.sample with
      payins := ⟨crowdedRows n, crowdedRows_nodup n⟩
      now := 120000 }

/-- The oldest of a thousand pending pay-ins is reached by the first run. -/
theorem reached_iff_of_thousand : Listed (crowdedWorld 999).payins .sample (arrivedRow none) ∧
    ∀ passes, Applied .sample .sample (crowdedWorld 999) passes → passes.length = 1 →
      (∀ pass ∈ passes.head?, Open pass.now (arrivedRow none)) → Reached World.sampleId passes := by
  have few : (crowdedRows 999).length ≤ batchLimit := by simp [crowdedRows, batchLimit]
  have listed : Listed (crowdedWorld 999).payins .sample (arrivedRow none) :=
    mem_listed List.mem_cons_self rfl (by rintro c ⟨⟩; rfl) ((List.length_filter_le _ _).trans few)
  have isOpen : Open (crowdedWorld 999).now (arrivedRow none) := .inl ⟨rfl, nofun⟩
  have once : passesFor (crowdedWorld 999).payins .pending = 1 := by decide +kernel
  exact ⟨listed, fun passes applied length => (reached_iff List.mem_cons_self isOpen).1.2 listed passes applied
    (length.trans once.symm)⟩

/-- The oldest pay-in has been paid, and its reconciliation confirms it, but two runs over the thousand
    and one pending pay-ins leave it out. -/
theorem crowded_out : passesFor (crowdedWorld 1000).payins .pending = 2 ∧
    Open (crowdedWorld 1000).now (arrivedRow none) ∧ (∃ response w₁ h₁,
      services.Runs Alone (Payins.reconcilePayIn .sample World.sampleId .sample) (crowdedWorld 1000) []
        (.ok response) w₁ h₁ ∧ response.status = .confirmed) ∧
      ∃ passes, Applied .sample .sample (crowdedWorld 1000) passes ∧ passes.length = 2 ∧
        ¬Reached World.sampleId passes := by
  refine ⟨by decide +kernel, .inl ⟨rfl, nofun⟩, ?_, ?_⟩
  · obtain ⟨r, w, h, runs, res⟩ := runs_of_quick
      (p := Payins.reconcilePayIn .sample World.sampleId .sample) (w := crowdedWorld 1000)
      (fun r _ _ => returns (fun response : PayInResponse => decide (response.status = .confirmed)) r)
      (by decide +kernel)
    obtain ⟨response, rfl, status⟩ := of_returns res
    exact ⟨response, w, h, runs, of_decide_eq_true status⟩
  · obtain ⟨passes, applied, length, same⟩ := idle_passes .sample .sample (crowdedWorld 1000) 2
    refine ⟨passes, applied, length, fun reached => ?_⟩
    obtain ⟨pass, member, r, mem, id, -, newest⟩ := (reached_iff_candidate applied).1 reached
    rw [(same pass member).1] at mem newest
    obtain rfl : r = arrivedRow none :=
      List.inj_on_of_nodup_map (crowdedWorld 1000).payins.nodup mem List.mem_cons_self id
    exact not_mem_page (by decide +kernel) newest

end AvaSettle.Reconciliation
