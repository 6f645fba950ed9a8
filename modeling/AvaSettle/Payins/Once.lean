import Mathlib.Algebra.Group.Prod
import Mathlib.Algebra.Order.Group.Multiset
import AvaSettle.Async.Session
import AvaSettle.Payins.Calm
import AvaSettle.Payins.Runs

/-!
# One confirmation

How often a pay-in is announced as confirmed, and how often its confirmation starts a sweep, in any
interleaving of pay-in calls. The write that confirms a pay-in gives its call the right to announce it
once and to sweep it once. Rights are given out once where no reconciliation writes over a pay-in that
is confirmed already.
-/

namespace AvaSettle.Payins.Once
open Async
open Data (Table)
open Blockchain

/-! ## Counting -/

/-- How often the outbox tells of the confirmation of a pay-in. -/
def announcements (id : Uuid) (w : World) : ℕ :=
  w.outbox.countP fun e => e.announces "payin.confirmed" id

/-- Once, if the pay-in is confirmed. -/
def confirmations (id : Uuid) (w : World) : ℕ :=
  if (w.payins.find? id).any fun r => decide (r.status = .confirmed) then 1 else 0

/-- The program is a background sweep of the pay-in. -/
def IsAutoSweep (d : Deployment) (id : Uuid) (p : Method Unit) : Prop :=
  ∃ context, p = autoSweep d id context

open Classical in
/-- How many of the programs are background sweeps of the pay-in. -/
noncomputable def autoSweeps (d : Deployment) (id : Uuid) (ps : List (Method Unit)) : ℕ :=
  ps.countP fun p => IsAutoSweep d id p

/-- A write of a status without a guard does not meet a confirmed pay-in. -/
def Unconfirmed (_ : Hist Api) (w : World) (e : Event Api) : Prop :=
  ∀ id patch guard, e.op = .payInUpdate id patch guard → guard.expectedStatus = none →
    patch.status ≠ none → ∀ r, w.payins.find? id = some r → r.status ≠ .confirmed

section
variable {d : Deployment} {id k : Uuid} {context : RequestContext} {w w' : World}
  {r u : PayInRecord} {patch : PayInPatch}

/-- A pay-in is confirmed at most once. -/
lemma confirmations_le : confirmations id w ≤ 1 := by
  unfold confirmations
  split <;> omega

/-- The count of a row that is there. -/
lemma confirmations_of_found (found : w.payins.find? id = some r) :
    confirmations id w = if r.status = .confirmed then 1 else 0 := by
  simp [confirmations, found]

/-- Only confirmations announce. -/
lemma announcements_filter :
    announcements id w = (w.outbox.filter isConfirmation).countP fun e =>
      e.announces "payin.confirmed" id := by
  rw [List.countP_filter]
  refine List.countP_congr fun e _ => ?_
  simp only [Bool.and_eq_true]
  exact ⟨fun announces => ⟨announces, isConfirmation_of_announces announces⟩, And.left⟩

/-- Calm moves keep both counts. -/
lemma Calm.counts (calm : Calm w w') (id : Uuid) :
    announcements id w' = announcements id w ∧ confirmations id w' = confirmations id w := by
  refine ⟨by rw [announcements_filter, announcements_filter, calm.outbox], ?_⟩
  have same := calm.row id
  unfold confirmations
  cases found : w.payins.find? id with
  | none =>
    rw [found] at same
    rw [Option.map_eq_none_iff.1 same]
  | some r =>
    rw [found] at same
    obtain ⟨r', found', eq⟩ := Option.map_eq_some_iff.1 same
    simp only [marks, Prod.mk.injEq] at eq
    simp [found', eq.2.1]

/-- A background sweep is of one pay-in. -/
lemma autoSweep_injective {context' : RequestContext}
    (eq : autoSweep d id context = autoSweep d k context') : id = k := by
  have first : ∀ id context, ∃ next, autoSweep d id context =
      Prog.call (S := Api) (.payInFindById id context.clientId) next := fun id context => ⟨_, rfl⟩
  obtain ⟨next, eq₁⟩ := first id context
  obtain ⟨next', eq₂⟩ := first k context'
  rw [eq₁, eq₂] at eq
  injection eq with _ op
  injection op

/-! ## Rights -/

/-- The rights to announce pay-ins, and the rights to sweep them. -/
abbrev Rights := Multiset Uuid × Multiset Uuid

open Classical in
/-- The right that a background sweep uses up. -/
noncomputable def fare (d : Deployment) (p : Method Unit) : Rights :=
  if sweeps : ∃ id, IsAutoSweep d id p then (0, {sweeps.choose}) else 0

/-- A background sweep uses up the right of its pay-in. -/
lemma fare_autoSweep : fare d (autoSweep d id context) = (0, {id}) := by
  have sweeps : ∃ k, IsAutoSweep d k (autoSweep d id context) := ⟨id, context, rfl⟩
  obtain ⟨context', eq⟩ := sweeps.choose_spec
  rw [fare, dif_pos sweeps, ← autoSweep_injective eq]

open Classical in
/-- The rights used up by the background sweeps of a run. -/
lemma count_fares {ps : List (Method Unit)} :
    ((ps.map (fare d)).sum.2).count id = autoSweeps d id ps := by
  induction ps with
  | nil => rfl
  | cons p ps ih =>
    have here : (fare d p).2.count id = if IsAutoSweep d id p then 1 else 0 := by
      by_cases sweeps : ∃ k, IsAutoSweep d k p
      · obtain ⟨k, context, rfl⟩ := sweeps
        have same : IsAutoSweep d id (autoSweep d k context) ↔ id = k :=
          ⟨fun ⟨_, eq⟩ => (autoSweep_injective eq).symm, fun eq => ⟨context, by rw [eq]⟩⟩
        rw [fare_autoSweep, Multiset.count_singleton]
        simp only [same]
      · rw [fare, dif_neg sweeps, if_neg fun holds => sweeps ⟨id, holds⟩]
        rfl
    rw [autoSweeps, List.countP_cons, ← autoSweeps, ← ih, List.map_cons, List.sum_cons, Prod.snd_add,
      Multiset.count_add, here, add_comm]
    simp

/-- Every announcement and every right comes from a confirmation. -/
def Fair (w : World) (a : Rights) : Prop :=
  ∀ id, announcements id w + a.1.count id ≤ confirmations id w ∧ a.2.count id ≤ confirmations id w

/-- A calm move keeps the balance of rights. -/
lemma Fair.calm {a : Rights} (calm : Calm w w') (fair : Fair w a) : Fair w' a := by
  intro id
  obtain ⟨same, same'⟩ := Calm.counts calm id
  rw [same, same']
  exact fair id

end

/-! ## Operations -/

section
variable {id : Uuid} {w w' : World} {r u : PayInRecord} {patch : PayInPatch} {a f : Rights}

/-- Rights may be left unused. -/
lemma Fair.drop (fair : Fair w (a + f)) : Fair w f := by
  intro id
  have here := fair id
  simp only [Prod.fst_add, Prod.snd_add, Multiset.count_add] at here
  omega

/-- The rights that an update gives to its call. -/
def granted (id : Uuid) (patch : PayInPatch) : Rights :=
  if patch.status = some .confirmed then ({id}, {id}) else 0

/-- An update of a pay-in that was not confirmed. -/
lemma Fair.wrote (wrote : Wrote w w' id patch r u) (unconfirmed : r.status ≠ .confirmed)
    (fair : Fair w f) : Fair w' (granted id patch + f) := by
  intro k
  have here := fair k
  have same : announcements k w' = announcements k w := by
    rw [announcements, announcements, wrote.outbox]
  rw [same]
  by_cases eq : k = id
  · obtain rfl := eq
    rw [confirmations_of_found wrote.before, if_neg unconfirmed] at here
    rw [confirmations_of_found wrote.after, wrote.row]
    change _ + _ ≤ (if patch.status.getD r.status = .confirmed then 1 else 0) ∧
      _ ≤ (if patch.status.getD r.status = .confirmed then 1 else 0)
    unfold granted
    by_cases confirms : patch.status = some .confirmed
    · rw [if_pos confirms, confirms]
      simp only [Option.getD_some, if_true, Prod.fst_add, Prod.snd_add, Multiset.count_add,
        Multiset.count_singleton_self]
      omega
    · rw [if_neg confirms, zero_add]
      omega
  · have other : confirmations k w' = confirmations k w := by
      rw [confirmations, confirmations, wrote.others k eq]
    rw [other]
    unfold granted
    split
    · simpa [Multiset.count_singleton, eq] using here
    · simpa using here

/-- The insert of a new pay-in. -/
lemma Fair.created {o : Option PayInRecord} (harmless : IsHarmless (.payInInsert r))
    (run : w.insertPayIn r = some (o, w')) (fair : Fair w f) : Fair w' f := by
  rcases find?_of_insertPayIn run with rfl | ⟨fresh, find, outbox⟩
  · exact fair
  · intro k
    have same : confirmations k w' = confirmations k w := by
      rw [confirmations, confirmations, find]
      split
      case isTrue eq =>
        obtain rfl := eq
        simp [fresh, harmless.1]
      case isFalse => rfl
    rw [announcements, outbox, ← announcements, same]
    exact fair k

/-- An announcement uses up a right. -/
lemma Fair.tell {c : String} {payload : List (String × Json)} {s : Multiset Uuid}
    (about : payload.lookup "id" = some (.str id)) (fair : Fair w (({id}, s) + f)) :
    Fair (w.insertOutbox c "payin.confirmed" payload) ((0, s) + f) := by
  intro k
  have here := fair k
  have more : announcements k (w.insertOutbox c "payin.confirmed" payload) =
      announcements k w + if k = id then 1 else 0 := by
    simp [announcements, World.insertOutbox, OutboxEvent.announces, Json.subject, List.lookup_cons, about,
      List.countP_singleton, eq_comm]
  have same : confirmations k (w.insertOutbox c "payin.confirmed" payload) = confirmations k w := rfl
  rw [more, same]
  simp only [Prod.fst_add, Prod.snd_add, Multiset.count_add,
    Multiset.count_singleton, Multiset.count_zero] at here ⊢
  omega

end

/-! ## Calls -/

/-- The pay-in services, where reconciliations do not write over confirmed pay-ins. -/
abbrev onceLedger (d : Deployment) (chain : Chain → Chain → Prop) : Machine Api World :=
  payInLedger d chain Unconfirmed

/-- Rights are kept by calls, and used up by announcements and background sweeps. -/
noncomputable def spec (d : Deployment) (chain : Chain → Chain → Prop) :
    Spec (onceLedger d chain) Rights where
  inv := Fair
  le _ _ := True
  good _ := True
  good_nil := trivial
  le_refl _ := trivial
  le_trans _ _ := trivial
  env fair move := ⟨fair.calm (calm_of_same move.payins move.outbox), trivial⟩
  toll := fare d

section
variable {d : Deployment} {chain : Chain → Chain → Prop} {id : Uuid} {context : RequestContext}
  {w : World} {h : Hist Api} {a : Rights} {patch : PayInPatch} {guard : PayInUpdateGuard}

/-- A harmless operation keeps what its call holds. -/
lemma op_harmless {op : Call} (harmless : IsHarmless op) :
    (spec d chain).op op (fun _ a' _ _ => a' = a) a w h := by
  intro w₁ f o w₂ _ fair reply _
  have performed : ∀ b, World.exec op w₁ = some (b, w₂) → Fair w₂ (a + f) := fun b run => by
    by_cases insert : ∃ r, op = .payInInsert r
    · obtain ⟨r, rfl⟩ := insert
      exact Fair.created harmless run fair
    · refine fair.calm (calm_exec run ?_)
      cases op
      case payInInsert => exact absurd ⟨_, rfl⟩ insert
      all_goals exact harmless
  cases o with
  | done b => exact ⟨trivial, a, performed b reply, trivial, rfl⟩
  | refused e => exact ⟨trivial, a, reply.2 ▸ fair, trivial, rfl⟩
  | lost b e => exact ⟨trivial, a, performed b reply.1, trivial, rfl⟩

/-- A program of harmless operations. -/
lemma wp_harmless {α : Type} {p : Method α} (uses : p.Uses IsHarmless fun _ => True) :
    (spec d chain).wp p (fun _ a' _ _ => a' = a) a w h := by
  refine Spec.wp_mono (fun _ _ _ _ post => post.1) (Spec.wp_uses (R := fun a' _ _ => a' = a)
    (fun _ _ _ _ => trivial) (fun op a' w h harmless eq => ?_) (fun op a' w h harmless eq => ?_) uses
    rfl)
  · obtain rfl := eq
    exact op_harmless harmless
  · exact Spec.op_mono (fun _ _ _ _ _ => trivial) (op_harmless harmless)

/-- A step of harmless operations. -/
lemma wp_harmless_bind {α β : Type} {p : Method α} {f : α → Method β}
    (uses : p.Uses IsHarmless fun _ => True)
    (next : ∀ b w h, (spec d chain).wp (f b) Spec.triv a w h) :
    (spec d chain).wp (p >>= f) Spec.triv a w h := by
  refine Spec.wp_bind_of (wp_harmless uses) (fun b a' w h eq => ?_) fun _ _ _ _ _ => trivial
  obtain rfl := eq
  exact next b w h

/-- A harmless program keeps it. -/
lemma wp_triv {α : Type} {p : Method α} (uses : p.Uses IsHarmless fun _ => True) :
    (spec d chain).wp p Spec.triv a w h :=
  Spec.wp_mono (fun _ _ _ _ _ => trivial) (wp_harmless uses)

/-- An update of a pay-in that is not confirmed where the guard holds. -/
lemma wp_update (unconfirmed : ∀ w o, Unconfirmed h w ⟨.payInUpdate id patch guard, o⟩ →
      ∀ r, w.payins.find? id = some r → guard.holds r = true → r.status ≠ .confirmed) :
    (spec d chain).wp (request (.payInUpdate id patch guard)) (fun res a' _ _ =>
      ∀ u, res = .ok (some u) → u.id = id ∧ a' = granted id patch) 0 w h := by
  refine Spec.wp_await fun w₁ f o w₂ _ fair reply ok => ?_
  rw [zero_add] at fair
  have performed (eq : w₂ = (w₁.updatePayIn id patch guard).2) :
      (∀ u, (w₁.updatePayIn id patch guard).1 = some u → u.id = id ∧
        Fair w₂ (granted id patch + f)) ∧ Fair w₂ f := by
    rcases wrote_or_calm w₁ id patch guard with
      ⟨r, u, returned, holds, wrote⟩ | ⟨returned, calm⟩
    · have fair' := fair.wrote wrote (unconfirmed w₁ o ok r wrote.before holds)
      rw [← eq] at fair'
      refine ⟨fun u' eq' => ?_, fair'.drop⟩
      obtain rfl := Option.some_inj.1 (returned.symm.trans eq')
      exact ⟨Table.key_of_find? wrote.after, fair'⟩
    · exact ⟨fun u eq' => (nomatch returned.symm.trans eq'), eq ▸ fair.calm calm⟩
  cases o with
  | done b =>
    obtain ⟨eq, eq'⟩ : (w₁.updatePayIn id patch guard).1 = b ∧
        w₂ = (w₁.updatePayIn id patch guard).2 := by
      cases reply
      exact ⟨rfl, rfl⟩
    obtain ⟨written, dropped⟩ := performed eq'
    cases b with
    | none => exact ⟨trivial, 0, by rwa [zero_add], trivial, by rintro u ⟨⟩⟩
    | some u =>
      refine ⟨trivial, granted id patch, (written u eq).2, trivial, ?_⟩
      rintro u' ⟨⟩
      exact ⟨(written u eq).1, rfl⟩
  | refused e =>
    exact ⟨trivial, 0, by rw [zero_add]; exact reply.2 ▸ fair, trivial, by rintro u ⟨⟩⟩
  | lost b e =>
    have eq : w₂ = (w₁.updatePayIn id patch guard).2 := by
      obtain ⟨run, -⟩ := reply
      cases run
      rfl
    exact ⟨trivial, 0, by rw [zero_add]; exact (performed eq).2, trivial, by rintro u ⟨⟩⟩

/-- The webhook of a confirmation uses up a right. -/
lemma wp_enqueue {c : Option String} {payload : List (String × Json)} {s : Multiset Uuid}
    (about : payload.lookup "id" = some (.str id)) :
    (spec d chain).wp (enqueue c "payin.confirmed" payload) (fun _ a' _ _ => a'.2 = s) ({id}, s)
      w h := by
  unfold enqueue
  split
  case h_1 => exact rfl
  case h_2 client _ =>
    intro w₁ f o w₂ _ fair reply _
    have dropped : Fair w₁ (({id}, s) + f) → Fair w₁ ((0, s) + f) := fun fair => by
      have split : (({id}, s) : Rights) + f = ({id}, 0) + ((0, s) + f) := by
        rw [← add_assoc]
        simp
      exact (split ▸ fair).drop
    cases o with
    | done b =>
      cases reply
      exact ⟨trivial, (0, s), fair.tell about, trivial, rfl⟩
    | refused e => exact ⟨trivial, (0, s), reply.2 ▸ dropped fair, trivial, rfl⟩
    | lost b e =>
      obtain ⟨run, -⟩ := reply
      cases run
      exact ⟨trivial, (0, s), fair.tell about, trivial, rfl⟩

/-- A calm program is harmless. -/
lemma harmless_of_calm {α : Type} {p : Method α} (calm : p.Uses IsCalm fun _ => True) :
    p.Uses IsHarmless fun _ => True := by
  refine Prog.uses_mono (fun op calm => ?_) calm
  cases op
  case payInInsert => cases calm
  all_goals exact calm

/-- The webhook of a new confirmation, and the sweep that it starts. -/
lemma wp_announceConfirmed {payin u : PayInRecord} (key : u.id = id) :
    (spec d chain).wp (announceConfirmed d id context payin true u) Spec.triv ({id}, {id}) w h := by
  unfold announceConfirmed
  rw [if_pos rfl]
  have about : (confirmedPayload u).lookup "id" = some (.str id) := by
    rw [← key]
    rfl
  refine Spec.wp_bind_of (wp_enqueue about) (fun _ a' w h held => ?_) fun _ _ _ _ _ => trivial
  split
  case isFalse => trivial
  case isTrue =>
    obtain ⟨rest, held'⟩ := a'
    obtain rfl : held' = {id} := held
    refine ⟨(rest, 0), 0, ?_, trivial, wp_triv (harmless_of_quiet quiet_autoSweep)⟩
    change _ = _ + fare d (autoSweep d id context)
    rw [fare_autoSweep]
    simp

/-- What follows the write of a reconciliation. -/
lemma wp_announce {payin u : PayInRecord} {status : PayInStatus} {first : Bool}
    {payload : List (String × Json)} (key : u.id = id)
    (held : isNewConfirmation payin status = true → a = ({id}, {id})) :
    (spec d chain).wp (recordAudit .payinReconciled id (toAuditActor context) payload >>= fun _ =>
      announceDetected first u >>= fun _ =>
        announceConfirmed d id context payin (isNewConfirmation payin status) u >>= fun _ =>
          toResponse u) Spec.triv a w h := by
  refine wp_harmless_bind (harmless_of_quiet quiet_recordAudit) fun _ w h => ?_
  refine wp_harmless_bind (harmless_of_calm calm_announceDetected) fun _ w h => ?_
  refine Spec.wp_bind_of (P := Spec.triv) ?_ (fun _ a' w h _ => wp_triv (harmless_of_quiet quiet_toResponse))
    fun _ _ _ _ _ => trivial
  cases new : isNewConfirmation payin status with
  | true =>
    rw [held new]
    exact wp_announceConfirmed key
  | false => trivial

/-- A reconciliation uses only the right that its own write gives it. -/
lemma wp_reconcilePayIn : (spec d chain).wp (reconcilePayIn d id context) Spec.triv 0 w h := by
  refine wp_harmless_bind (harmless_of_quiet quiet_requirePayIn) fun payin w h => ?_
  split
  case isTrue => exact wp_triv (harmless_of_quiet quiet_toResponse)
  case isFalse =>
    refine wp_harmless_bind (harmless_request rfl) fun latestBlock w h => ?_
    refine wp_harmless_bind (harmless_of_quiet quiet_findPayInTransfers) fun new w h => ?_
    refine wp_harmless_bind (harmless_request rfl) fun now w h => ?_
    refine wp_harmless_bind (harmless_of_quiet quiet_readExpired) fun expired w h => ?_
    refine Spec.wp_bind_of (wp_update fun w o ok r found _ => ok id _ _ rfl rfl nofun r found)
      (fun updated a' w h written => ?_) fun _ _ _ _ _ => trivial
    cases updated with
    | none => trivial
    | some u =>
      obtain ⟨key, rfl⟩ := written u rfl
      refine wp_announce key fun new => if_pos ?_
      exact congrArg some (of_decide_eq_true (Bool.and_eq_true_iff.1 new).1)

/-- So does a manual acceptance. -/
lemma wp_acceptPayIn {dto : AcceptPayInDto} :
    (spec d chain).wp (acceptPayIn id dto context) Spec.triv 0 w h := by
  refine wp_harmless_bind (harmless_of_quiet quiet_requirePayIn) fun payin w h => ?_
  refine wp_harmless_bind (harmless_request rfl) fun now w h => ?_
  refine Spec.wp_bind_of (wp_update fun w o ok r _ holds confirmed => ?_)
    (fun updated a' w h written => ?_) fun _ _ _ _ _ => trivial
  · simp [PayInUpdateGuard.holds, acceptGuard, confirmed] at holds
  · cases updated with
    | none =>
      refine wp_triv (Prog.uses_bind (harmless_of_quiet quiet_requirePayIn) fun current => ?_)
      dsimp only
      split
      case isTrue => exact harmless_of_quiet quiet_toResponse
      case isFalse => exact Prog.uses_throw trivial
    | some u =>
      obtain ⟨key, rfl⟩ := written u rfl
      refine wp_harmless_bind (harmless_of_quiet quiet_recordAudit) fun _ w h => ?_
      refine Spec.wp_bind_of (wp_enqueue (s := {id}) ?_) (fun _ _ w h _ =>
        wp_triv (harmless_of_quiet quiet_toResponse)) fun _ _ _ _ _ => trivial
      rw [← key]
      rfl

/-- Every call can be run without rights. -/
theorem sound : (spec d chain).Sound := by
  intro p entry w
  have discard {α : Type} {p : Method α} (wp : (spec d chain).wp p Spec.triv 0 w []) :
      (spec d chain).wp p.discard Spec.triv 0 w [] :=
    Spec.wp_bind_of wp (fun _ _ _ _ _ => trivial) fun _ _ _ _ _ => trivial
  have harmless {α : Type} {p : Method α} (uses : p.Uses IsHarmless fun _ => True) :
      (spec d chain).wp p.discard Spec.triv 0 w [] := discard (wp_triv uses)
  cases entry with
  | createPayIn => exact harmless harmless_createPayIn
  | listPayIns => exact harmless (harmless_of_quiet quiet_listPayIns)
  | getPayIn => exact harmless (harmless_of_quiet quiet_getPayIn)
  | reconcilePayIn => exact discard wp_reconcilePayIn
  | acceptPayIn => exact discard wp_acceptPayIn
  | sweepPayIn => exact harmless (harmless_of_quiet quiet_sweepPayIn)
  | topUpPayIn => exact harmless (harmless_of_quiet quiet_topUpPayIn)
  | topUpAndSweep => exact harmless (harmless_of_quiet quiet_topUpAndSweep)
  | retryPendingSweeps => exact harmless (harmless_of_quiet quiet_retryPendingSweeps)

end

/-! ## Runs -/

/-- In every interleaving of pay-in calls in which no reconciliation writes over a confirmed pay-in, a
    pay-in is announced as confirmed at most once, and at most one background sweep of it is started. -/
theorem announced_once {d : Deployment} {chain : Chain → Chain → Prop} {c : Chain} {now : Timestamp}
    {nextUuid : Uuid} {nextBytes32 : Hex} {ps : List (Method Unit)} {s : Sys Api World}
    (run : (onceLedger d chain).Spawns ⟨.fresh c now nextUuid nextBytes32, []⟩ ps s) (id : Uuid) :
    announcements id s.world ≤ 1 ∧ autoSweeps d id ps ≤ 1 := by
  have fresh : Fair (.fresh c now nextUuid nextBytes32) 0 := fun id => ⟨Nat.zero_le _, Nat.zero_le _⟩
  have init := Spec.Holds.init (σ := spec d chain) (w := .fresh c now nextUuid nextBytes32) fresh
  obtain ⟨⟨as, fair, -⟩, -⟩ := init.spawns sound run
  rw [zero_add] at fair
  have fair := Fair.drop fair id
  have swept : ((spec d chain).tolls ps).2.count id = autoSweeps d id ps := count_fares
  have le : confirmations id s.world ≤ 1 := confirmations_le
  omega

/-- The check of the concrete runs decides the condition. -/
lemma unconfirmed_of_check {h : Hist Api} {w : World} {e : Event Api}
    (ok : Payins.unconfirmed h w e = true) : Unconfirmed h w e := by
  rintro id patch guard eq - - r found confirmed
  obtain ⟨op, o⟩ := e
  cases eq
  simp [Payins.unconfirmed, found, confirmed] at ok

/-- A pay-in that is paid and reconciled is announced. -/
theorem announced_once_of_paid : ∃ ps s, (onceLedger .sample Advances).Spawns ⟨.sample, []⟩ ps s ∧
    announcements World.sampleId s.world = 1 ∧ autoSweeps .sample World.sampleId ps ≤ 1 := by
  obtain ⟨s, reach, res⟩ := reachable_of_quick Unconfirmed Payins.unconfirmed paid
    (fun _ _ _ => unconfirmed_of_check) legal_paid
    (fun s => decide (announcements World.sampleId s.world = 1)) (by decide +kernel)
  obtain ⟨ps, run⟩ := reach.spawns
  exact ⟨ps, s, run, of_decide_eq_true res, (announced_once run World.sampleId).2⟩

/-- Two reconciliations of a paid pay-in overlap, and both announce it. -/
theorem announced_twice : ∃ s,
    (payInLedger .sample Advances fun _ w e => e.Faultless World.exec w).Reachable .sample s ∧
      announcements World.sampleId s.world = 2 := by
  obtain ⟨s, reach, res⟩ := reachable_of_quick (fun _ w e => e.Faultless World.exec w)
    (fun _ _ e => !e.outcome.threw)
    (created .derivedAddress 7 ++ .env (arrive [sampleTransfer] []) :: .enter sampleReconcile ::
      .enter sampleReconcile :: (Choice.steps 1 4 ++ Choice.steps 2 9 ++ Choice.steps 1 5))
    (fun _ _ _ => Event.faultless_of_not_threw) (by
      simp only [List.forall_mem_cons, List.forall_mem_append]
      exact ⟨legal_created, env_arrive, .reconcilePayIn, .reconcilePayIn,
        ⟨Choice.legal_steps, Choice.legal_steps⟩, Choice.legal_steps⟩)
    (fun s => decide (announcements World.sampleId s.world = 2)) (by decide +kernel)
  exact ⟨s, reach, of_decide_eq_true res⟩

end AvaSettle.Payins.Once
