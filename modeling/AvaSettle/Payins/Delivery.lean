import AvaSettle.Async.Crash
import AvaSettle.Payins.Calm
import AvaSettle.Payins.Runs

/-!
# Delivery of confirmations

What a fault leaves of the webhook of a confirmed pay-in. The write that confirms, the audit and the
insert into the outbox are operations of their own, and no call looks again at a pay-in that is
confirmed. An attempt that stops in between owes its client the webhook, and no later call pays the
debt.
-/

namespace AvaSettle.Payins.Delivery
open Async
open Data (Table)
open Blockchain

/-! ## Debts -/

/-- The event is a write that has confirmed a pay-in. -/
def Confirms : Event Api → Prop
  | ⟨.payInUpdate _ patch _, o⟩ =>
    patch.status = some .confirmed ∧ o.performed.join.isSome = true
  | _ => False

/-- The event has put a confirmation into the outbox. -/
def Tells : Event Api → Prop
  | ⟨.outboxInsert _ event _, o⟩ => event = "payin.confirmed" ∧ o.performed.isSome = true
  | _ => False

/-- The attempt has stopped between a write that confirms and the webhook that tells of it. -/
def CutOff (h : Hist Api) : Prop :=
  ∃ h₁ e h₂, h = h₁ ++ e :: h₂ ∧ Confirms e ∧ ∀ e' ∈ h₂, ¬Tells e'

/-- The outbox matches the ledger, apart from the webhooks that are owed. -/
structure Matched (owed : Set Uuid) (w : World) : Prop where
  told : ∀ id r c, w.payins.find? id = some r → r.status = .confirmed →
    truthy r.clientId = some c → id ∈ owed ∨ Announced c id w
  fresh : ∀ id r, w.payins.find? id = some r → r.status ≠ .confirmed → r.confirmedAt = none
  real : ∀ c id, Announced c id w →
    id ∉ owed ∧ ∃ r, w.payins.find? id = some r ∧ r.status = .confirmed
  owing : ∀ id ∈ owed, ∃ r, w.payins.find? id = some r ∧ r.status = .confirmed

/-- What is owed once an attempt on a pay-in has got this far. -/
def debts (owed : Set Uuid) (id : Uuid) (h : Hist Api) : Set Uuid :=
  {x | x ∈ owed ∨ x = id ∧ CutOff h}

section
variable {h : Hist Api} {e : Event Api} {owed : Set Uuid} {id : Uuid}

/-- A call that has done nothing is not cut off. -/
lemma not_cutOff_nil : ¬CutOff [] := by
  rintro ⟨h₁, e, h₂, eq, -⟩
  simp at eq

/-- One more event of an attempt. -/
lemma cutOff_append : CutOff (h ++ [e]) ↔ Confirms e ∨ CutOff h ∧ ¬Tells e := by
  constructor
  · rintro ⟨h₁, e₁, h₂, eq, confirms, silent⟩
    rcases List.eq_nil_or_concat h₂ with rfl | ⟨h₃, e', rfl⟩
    · obtain ⟨-, last⟩ := List.append_inj' eq rfl
      cases last
      exact .inl confirms
    · rw [List.concat_eq_append] at eq silent
      rw [← List.cons_append, ← List.append_assoc] at eq
      obtain ⟨rfl, last⟩ := List.append_inj' eq rfl
      cases last
      exact .inr ⟨⟨h₁, e₁, h₃, rfl, confirms, fun e' mem =>
        silent e' (List.mem_append_left _ mem)⟩, silent e (by simp)⟩
  · rintro (confirms | ⟨⟨h₁, e₁, h₂, rfl, confirms, silent⟩, untold⟩)
    · exact ⟨h, e, [], rfl, confirms, by simp⟩
    · refine ⟨h₁, e₁, h₂ ++ [e], by simp, confirms, fun e' mem => ?_⟩
      rcases List.mem_append.1 mem with mem | mem
      · exact silent e' mem
      · exact List.mem_singleton.1 mem ▸ untold

/-- A call that is not cut off owes nothing more. -/
lemma debts_of_not (cut : ¬CutOff h) : debts owed id h = owed := by
  ext x
  simp [debts, cut]

/-- A call that is cut off owes its pay-in. -/
lemma debts_of_cutOff (cut : CutOff h) : debts owed id h = insert id owed := by
  ext x
  simp [debts, cut, or_comm]

end

/-! ## Operations -/

/-- While a call is waiting, the world moves, and sweeps may go on in the background. -/
inductive Background (chain : Chain → Chain → Prop) : World → World → Prop where
  | env {w w'} (move : World.Env chain w w') : Background chain w w'
  | sweep {c : Call} {b : c.Res} {w w'} (quiet : isQuiet c = true)
      (run : World.exec c w = some (b, w')) : Background chain w w'

section
variable {w w' w'' : World} {c : String} {id k : Uuid} {r r' : PayInRecord} {owed : Set Uuid}

/-- What goes on in the background is calm. -/
lemma calm_background {chain : Chain → Chain → Prop} (move : Background chain w w') : Calm w w' := by
  cases move with
  | env move => exact calm_of_same move.payins move.outbox
  | sweep quiet run => exact calm_exec run (isCalm_of_isQuiet quiet)

/-- A calm move keeps the match. -/
lemma Matched.calm (calm : Calm w w') (matched : Matched owed w) : Matched owed w' where
  told id r c found confirmed client := by
    obtain ⟨r₀, before, same⟩ := calm.found found
    simp only [marks, Prod.mk.injEq] at same
    rw [calm.announced]
    exact matched.told id r₀ c before (same.2.1 ▸ confirmed) (same.1 ▸ client)
  fresh id r found unconfirmed := by
    obtain ⟨r₀, before, same⟩ := calm.found found
    simp only [marks, Prod.mk.injEq] at same
    exact same.2.2.trans (matched.fresh id r₀ before (same.2.1 ▸ unconfirmed))
  real c id announced := by
    obtain ⟨clear, r, found, confirmed⟩ := matched.real c id ((calm.announced c id).1 announced)
    obtain ⟨r', after, same⟩ := calm.symm.found found
    simp only [marks, Prod.mk.injEq] at same
    exact ⟨clear, r', after, same.2.1 ▸ confirmed⟩
  owing id mem := by
    obtain ⟨r, found, confirmed⟩ := matched.owing id mem
    obtain ⟨r', after, same⟩ := calm.symm.found found
    simp only [marks, Prod.mk.injEq] at same
    exact ⟨r', after, same.2.1 ▸ confirmed⟩

/-- A new pay-in is not confirmed. -/
lemma Matched.created {o : Option PayInRecord} (matched : Matched owed w)
    (harmless : IsHarmless (.payInInsert r)) (run : w.insertPayIn r = some (o, w')) :
    Matched owed w' := by
  rcases find?_of_insertPayIn run with rfl | ⟨fresh, find, outbox⟩
  case inl => exact matched
  case inr =>
    have same : ∀ c k, Announced c k w' ↔ Announced c k w := fun c k => by
      rw [Announced, Announced, outbox]
    have kept : ∀ k r', w.payins.find? k = some r' → w'.payins.find? k = some r' :=
      fun k r' found => by
        rw [find, if_neg fun eq => ?_]
        · exact found
        · rw [eq, fresh] at found
          cases found
    constructor
    · intro k r' c found confirmed client
      rw [find] at found
      rw [same]
      split at found
      case isTrue =>
        cases found
        cases harmless.1.symm.trans confirmed
      case isFalse => exact matched.told k r' c found confirmed client
    · intro k r' found unconfirmed
      rw [find] at found
      split at found
      case isTrue =>
        cases found
        exact harmless.2
      case isFalse => exact matched.fresh k r' found unconfirmed
    · intro c k announced
      obtain ⟨clear, r', found, confirmed⟩ := matched.real c k ((same c k).1 announced)
      exact ⟨clear, r', kept k r' found, confirmed⟩
    · intro k mem
      obtain ⟨r', found, confirmed⟩ := matched.owing k mem
      exact ⟨r', kept k r' found, confirmed⟩

end

/-! ## Writes -/

section
variable {w : World} {id k : Uuid} {r r' u : PayInRecord} {patch : PayInPatch}
  {guard : PayInUpdateGuard} {owed : Set Uuid}

section
variable {w' : World} (matched : Matched owed w) (wrote : Wrote w w' id patch r u)
  (unconfirmed : r.status ≠ .confirmed)
include matched wrote unconfirmed

/-- A pay-in that was not confirmed is neither owed nor announced. -/
lemma Matched.unowed : id ∉ owed := by
  intro mem
  obtain ⟨r', found, confirmed⟩ := matched.owing id mem
  obtain rfl := Option.some_inj.1 (found.symm.trans wrote.before)
  exact unconfirmed confirmed

/-- What is announced after the write is another pay-in, and confirmed. -/
lemma Matched.real_of_wrote {c : String} (announced : Announced c k w') :
    k ≠ id ∧ k ∉ owed ∧ ∃ r, w'.payins.find? k = some r ∧ r.status = .confirmed := by
  obtain ⟨clear, r', found, confirmed⟩ := matched.real c k ((wrote.announced c k).1 announced)
  have ne : k ≠ id := by
    rintro rfl
    obtain rfl := Option.some_inj.1 (found.symm.trans wrote.before)
    exact unconfirmed confirmed
  exact ⟨ne, clear, r', (wrote.others k ne).trans found, confirmed⟩

/-- What was owed before the write is still confirmed. -/
lemma Matched.owing_of_wrote (mem : k ∈ owed) :
    ∃ r, w'.payins.find? k = some r ∧ r.status = .confirmed := by
  obtain ⟨r', found, confirmed⟩ := matched.owing k mem
  exact ⟨r', (wrote.others k fun eq => matched.unowed wrote unconfirmed (eq ▸ mem)).trans found,
    confirmed⟩

/-- A write that confirms leaves a webhook to be sent. -/
lemma Matched.confirm (confirms : u.status = .confirmed) : Matched (insert id owed) w' where
  told k r' c found confirmed client := by
    rcases wrote.found found with ⟨rfl, -⟩ | ⟨-, before⟩
    · exact .inl (Set.mem_insert _ _)
    · exact (matched.told k r' c before confirmed client).imp (Set.mem_insert_of_mem _)
        (wrote.announced c k).2
  fresh k r' found open' := by
    rcases wrote.found found with ⟨-, rfl⟩ | ⟨-, before⟩
    · exact absurd confirms open'
    · exact matched.fresh k r' before open'
  real c k announced := by
    obtain ⟨ne, clear, row⟩ := matched.real_of_wrote wrote unconfirmed announced
    exact ⟨fun mem => (Set.mem_insert_iff.1 mem).elim ne clear, row⟩
  owing k mem := by
    rcases Set.mem_insert_iff.1 mem with rfl | mem
    · exact ⟨u, wrote.after, confirms⟩
    · exact matched.owing_of_wrote wrote unconfirmed mem

/-- A write of another status owes nothing. -/
lemma Matched.leave (leaves : u.status ≠ .confirmed) (fresh : u.confirmedAt = none) :
    Matched owed w' where
  told k r' c found confirmed client := by
    rcases wrote.found found with ⟨-, rfl⟩ | ⟨-, before⟩
    · exact absurd confirmed leaves
    · exact (matched.told k r' c before confirmed client).imp_right (wrote.announced c k).2
  fresh k r' found open' := by
    rcases wrote.found found with ⟨-, rfl⟩ | ⟨-, before⟩
    · exact fresh
    · exact matched.fresh k r' before open'
  real c k announced := (matched.real_of_wrote wrote unconfirmed announced).2
  owing k mem := matched.owing_of_wrote wrote unconfirmed mem

end

/-- A webhook that is sent is owed no more. -/
lemma Matched.tell {c : String} {payload : List (String × Json)} (matched : Matched (insert id owed) w)
    (clear : id ∉ owed) (about : payload.lookup "id" = some (.str id))
    (found : w.payins.find? id = some r) (client : truthy r.clientId = some c) :
    Matched owed (w.insertOutbox c "payin.confirmed" payload) := by
  have kept : ∀ {c' k}, Announced c' k w →
      Announced c' k (w.insertOutbox c "payin.confirmed" payload) := fun ⟨e, mem, told⟩ =>
    ⟨e, List.mem_append_left _ mem, told⟩
  constructor
  · intro k r' c' found' confirmed client'
    rcases matched.told k r' c' found' confirmed client' with mem | announced
    · rcases Set.mem_insert_iff.1 mem with rfl | mem
      · obtain rfl := Option.some_inj.1 (found.symm.trans found')
        obtain rfl := Option.some_inj.1 (client.symm.trans client')
        exact .inr (mem_insertOutbox about)
      · exact .inl mem
    · exact .inr (kept announced)
  · exact matched.fresh
  · rintro c' k ⟨e, mem, rfl, announces⟩
    rcases List.mem_append.1 mem with mem | mem
    · obtain ⟨clear', row⟩ := matched.real _ k ⟨e, mem, rfl, announces⟩
      exact ⟨fun mem => clear' (Set.mem_insert_of_mem _ mem), row⟩
    · obtain rfl := List.mem_singleton.1 mem
      obtain rfl : id = k := by
        simpa [OutboxEvent.announces, Json.subject, List.lookup_cons, about] using announces
      exact ⟨clear, matched.owing id (Set.mem_insert _ _)⟩
  · exact fun k mem => matched.owing k (Set.mem_insert_of_mem _ mem)

/-- A pay-in without a client owes nobody a webhook. -/
lemma Matched.nobody (matched : Matched (insert id owed) w) (found : w.payins.find? id = some r)
    (client : truthy r.clientId = none) : Matched owed w where
  told k r' c found' confirmed client' := by
    refine (matched.told k r' c found' confirmed client').imp_left fun mem => ?_
    rcases Set.mem_insert_iff.1 mem with rfl | mem
    · obtain rfl := Option.some_inj.1 (found.symm.trans found')
      cases client.symm.trans client'
    · exact mem
  fresh := matched.fresh
  real c k announced := by
    obtain ⟨clear, row⟩ := matched.real c k announced
    exact ⟨fun mem => clear (Set.mem_insert_of_mem _ mem), row⟩
  owing k mem := matched.owing k (Set.mem_insert_of_mem _ mem)

end

/-! ## Assertions -/

/-- Nothing is owed for what the call has done so far. -/
structure Still (owed : Set Uuid) (w : World) (h : Hist Api) : Prop where
  matched : Matched owed w
  uncut : ¬CutOff h

/-- The pay-in is there, and not confirmed. -/
structure Opened (owed : Set Uuid) (id : Uuid) (w : World) (h : Hist Api) : Prop
    extends Still owed w h where
  row : ∃ r, w.payins.find? id = some r ∧ r.status ≠ .confirmed

/-- The call has confirmed the pay-in, and its client has not been told. -/
structure Due (owed : Set Uuid) (id : Uuid) (u : PayInRecord) (w : World) (h : Hist Api) : Prop where
  matched : Matched (insert id owed) w
  clear : id ∉ owed
  cut : CutOff h
  key : u.id = id
  row : ∃ r, w.payins.find? id = some r ∧ marks r = marks u

/-- What is owed is owed for this call, and nothing where it cannot fail. -/
structure Owes (faultless : Prop) (owed : Set Uuid) (id : Uuid) (w : World) (h : Hist Api) :
    Prop where
  matched : Matched (debts owed id h) w
  paid : faultless → Matched owed w

/-- The call has stopped, and owes nothing if it came to its end and could not fail. -/
def Ended (faultless : Prop) (owed : Set Uuid) (id : Uuid) {α : Type} : Stop Api World α :=
  fun stop w h => Matched (debts owed id h) w ∧ (faultless → stop ≠ none → Matched owed w)

/-- An assertion that calm moves and calm operations keep. -/
structure Stays (R : World → Hist Api → Prop) : Prop where
  env : ∀ {w w' h}, Calm w w' → R w h → R w' h
  op : ∀ {w w' h} {e : Event Api}, Calm w w' → IsCalm e.op → R w h → R w' (h ++ [e])

section
variable {w w' : World} {h : Hist Api} {owed : Set Uuid} {id : Uuid} {u : PayInRecord}
  {faultless : Prop}

/-- A calm operation changes nothing in what is owed. -/
lemma cutOff_calm {e : Event Api} (calm : IsCalm e.op) : CutOff (h ++ [e]) ↔ CutOff h := by
  obtain ⟨op, o⟩ := e
  have confirms : ¬Confirms ⟨op, o⟩ := by
    cases op
    case payInUpdate id p g =>
      change sweepOnly p = true at calm
      simp only [sweepOnly, Bool.and_eq_true, Option.isNone_iff_eq_none] at calm
      rintro ⟨status, -⟩
      cases calm.1.1.1.1.1.symm.trans status
    all_goals exact not_false
  have tells : ¬Tells ⟨op, o⟩ := by
    cases op
    case outboxInsert c event payload => exact fun told => calm told.1
    all_goals exact not_false
  simp [cutOff_append, confirms, tells]

/-- A call that owes nothing matches its debts. -/
lemma Still.debts (still : Still owed w h) : Matched (debts owed id h) w := by
  rw [debts_of_not still.uncut]
  exact still.matched

/-- A call that owes nothing owes at most its pay-in. -/
lemma Still.owes (still : Still owed w h) : Owes faultless owed id w h :=
  ⟨still.debts, fun _ => still.matched⟩

/-- A call that stops with these debts has ended with them. -/
lemma Owes.ended {α : Type} {stop : Option (Except Exception α)} (owes : Owes faultless owed id w h) :
    Ended faultless owed id stop w h :=
  ⟨owes.matched, fun f _ => owes.paid f⟩

/-- A webhook that is due is a debt. -/
lemma Due.debts (due : Due owed id u w h) : Matched (debts owed id h) w := by
  rw [debts_of_cutOff due.cut]
  exact due.matched

/-- A call that dies with a webhook due has ended with the debt. -/
lemma Due.ended {α : Type} (due : Due owed id u w h) :
    Ended (α := α) faultless owed id none w h :=
  ⟨due.debts, fun _ ne => absurd rfl ne⟩

/-- Calm operations leave nothing owed. -/
lemma stays_still : Stays (Still owed) where
  env calm still := ⟨still.matched.calm calm, still.uncut⟩
  op calm quiet still := ⟨still.matched.calm calm, (cutOff_calm quiet).not.2 still.uncut⟩

/-- Calm operations leave the pay-in unconfirmed. -/
lemma stays_opened : Stays (Opened owed id) := by
  have row : ∀ {w w'}, Calm w w' → (∃ r, w.payins.find? id = some r ∧ r.status ≠ .confirmed) →
      ∃ r, w'.payins.find? id = some r ∧ r.status ≠ .confirmed := by
    rintro w w' calm ⟨r, found, unconfirmed⟩
    obtain ⟨r', after, same⟩ := calm.symm.found found
    simp only [marks, Prod.mk.injEq] at same
    exact ⟨r', after, same.2.1 ▸ unconfirmed⟩
  exact ⟨fun calm opened => ⟨stays_still.env calm opened.toStill, row calm opened.row⟩,
    fun calm quiet opened => ⟨stays_still.op calm quiet opened.toStill, row calm opened.row⟩⟩

/-- A calm move keeps the webhook due. -/
lemma Due.calm (calm : Calm w w') (due : Due owed id u w h) {h' : Hist Api}
    (cut : CutOff h') : Due owed id u w' h' where
  matched := due.matched.calm calm
  clear := due.clear
  cut := cut
  key := due.key
  row := by
    obtain ⟨r, found, same⟩ := due.row
    obtain ⟨r', after, same'⟩ := calm.symm.found found
    exact ⟨r', after, same'.symm.trans same⟩

/-- Calm operations leave the webhook due. -/
lemma stays_due : Stays (Due owed id u) where
  env calm due := due.calm calm due.cut
  op calm quiet due := due.calm calm ((cutOff_calm quiet).2 due.cut)

/-- Calm operations keep the debts. -/
lemma stays_owes : Stays (Owes faultless owed id) where
  env calm owes := ⟨owes.matched.calm calm, fun f => (owes.paid f).calm calm⟩
  op {_ _ h e} calm quiet owes := by
    have same : Delivery.debts owed id (h ++ [e]) = Delivery.debts owed id h := by
      simp only [Delivery.debts, cutOff_calm quiet]
    exact ⟨same ▸ owes.matched.calm calm, fun f => (owes.paid f).calm calm⟩

end

/-! ## Programs -/

/-- The pay-in services of a deployment, with sweeps in the background of every call. -/
abbrev deliveryLedger (d : Deployment) (chain : Chain → Chain → Prop)
    (cond : Hist Api → World → Event Api → Prop) : Machine Api World :=
  { payInLedger d chain cond with env := Background chain }

section
variable {d : Deployment} {chain : Chain → Chain → Prop}
  {cond : Hist Api → World → Event Api → Prop} {w : World} {h : Hist Api}
  {R : World → Hist Api → Prop}

/-- The world moves calmly while a call waits. -/
lemma calm_alone {w' : World} (move : (deliveryLedger d chain cond).Alone h w w') : Calm w w' :=
  Machine.Alone.keeps (I := Calm w) (fun _ _ move calm => calm.trans (calm_background move)) move
    .refl

/-- A calm operation. -/
lemma leads_calm (op : Call) (calm : IsCalm op) (stays : Stays R) (hR : R w h) :
    (deliveryLedger d chain cond).Leads (deliveryLedger d chain cond).Alone op (fun _ => R) w h := by
  intro w₁ o w₂ move reply _
  have hR := stays.env (calm_alone move) hR
  cases o with
  | done b => exact stays.op (calm_exec reply calm) calm hR
  | refused e =>
    obtain ⟨-, rfl⟩ := reply
    exact stays.op .refl calm hR
  | lost b e => exact stays.op (calm_exec reply.1 calm) calm hR

/-- A program of calm operations. -/
lemma safe_calm {α : Type} {p : Method α} (uses : p.Uses IsCalm fun _ => True) (stays : Stays R)
    (hR : R w h) : (deliveryLedger d chain cond).safe (deliveryLedger d chain cond).Alone p
      (fun _ => R) w h :=
  Machine.safe_uses (fun _ _ _ calm => leads_calm _ calm stays) uses hR

/-- A step of calm operations. -/
lemma safe_calm_bind {α β : Type} {p : Method α} {f : α → Method β} {Q : Stop Api World β}
    (uses : p.Uses IsCalm fun _ => True) (stays : Stays R) (hR : R w h)
    (stop : ∀ stop w h, R w h → Q stop w h)
    (next : ∀ a w h, R w h →
      (deliveryLedger d chain cond).safe (deliveryLedger d chain cond).Alone (f a) Q w h) :
    (deliveryLedger d chain cond).safe (deliveryLedger d chain cond).Alone (p >>= f) Q w h :=
  Machine.safe_bind_of (safe_calm uses stays hR) (fun w h => stop _ w h) (fun a w h => next a w h)
    fun _ w h => stop _ w h

/-- A calm operation that the world does not refuse throws only where operations fail. -/
lemma safe_request {op : Call} (calm : IsCalm op) (total : ∀ w, World.exec op w ≠ none)
    (stays : Stays R) (hR : R w h) :
    (deliveryLedger d chain cond).safe (deliveryLedger d chain cond).Alone (request op)
      (fun stop w h => R w h ∧ ((deliveryLedger d chain cond).IsFaultless →
        ∀ e, stop ≠ some (.error e))) w h := by
  have running : ∀ e : Exception, (none : Option (Except Exception op.Res)) ≠ some (.error e) :=
    fun _ => (Option.some_ne_none _).symm
  refine Machine.safe_await ⟨hR, fun _ => running⟩ fun w₁ o w₂ move reply ok => ?_
  have hR := leads_calm _ calm stays hR w₁ o w₂ move reply ok
  refine ⟨⟨hR, fun _ => running⟩, hR, fun faultless e threw => ?_⟩
  have fine := faultless _ _ _ ok
  cases o with
  | done b => cases threw
  | refused e => exact total _ fine
  | lost b e => exact fine

end

/-! ## Attempts -/

/-- What an update leaves: the webhook is due where it has confirmed the pay-in. -/
def Written (faultless : Prop) (owed : Set Uuid) (id : Uuid) (patch : PayInPatch) :
    Stop Api World (Option PayInRecord)
  | none, w, h => Matched (debts owed id h) w
  | some (.ok none), w, h => Still owed w h
  | some (.ok (some u)), w, h => patch.status = some .confirmed ∧ Due owed id u w h ∨
      patch.status ≠ some .confirmed ∧ Still owed w h
  | some (.error _), w, h => Owes faultless owed id w h

section
variable {d : Deployment} {chain : Chain → Chain → Prop}
  {cond : Hist Api → World → Event Api → Prop} {w : World} {h : Hist Api} {owed : Set Uuid}
  {id : Uuid} {context : RequestContext} {patch : PayInPatch} {guard : PayInUpdateGuard}
  {R : World → Hist Api → Prop}

/-- An update that has been performed. -/
lemma written_of_update (faultless : Prop) {o : Outcome Exception (Option PayInRecord)} (still : Still owed w h)
    (status : ∃ s, patch.status = some s)
    (unconfirmed : ∀ r, w.payins.find? id = some r → guard.holds r = true → r.status ≠ .confirmed)
    (fresh : patch.status ≠ some .confirmed → patch.confirmedAt = some none)
    (performed : o.performed = some (w.updatePayIn id patch guard).1) :
    Matched (debts owed id (h ++ [⟨.payInUpdate id patch guard, o⟩]))
        (w.updatePayIn id patch guard).2 ∧
      Written faultless owed id patch (some (.ok (w.updatePayIn id patch guard).1))
        (w.updatePayIn id patch guard).2 (h ++ [⟨.payInUpdate id patch guard, o⟩]) := by
  rcases wrote_or_calm w id patch guard with
    ⟨r, u, returned, holds, wrote⟩ | ⟨returned, calm⟩
  · have open' := unconfirmed r wrote.before holds
    obtain ⟨s, status⟩ := status
    have left : u.status = s := by
      rw [wrote.row]
      exact congrArg (Option.getD · r.status) status
    by_cases confirms : s = .confirmed
    · subst confirms
      have due : Due owed id u (w.updatePayIn id patch guard).2
          (h ++ [⟨.payInUpdate id patch guard, o⟩]) :=
        ⟨still.matched.confirm wrote open' left, still.matched.unowed wrote open',
          cutOff_append.2 (.inl ⟨status, by simp [performed, returned]⟩),
          Table.key_of_find? wrote.after, u, wrote.after, rfl⟩
      rw [returned]
      exact ⟨due.debts, .inl ⟨status, due⟩⟩
    · have other : patch.status ≠ some .confirmed := fun eq =>
        confirms (Option.some_inj.1 (status.symm.trans eq))
      have blank : u.confirmedAt = none := by
        rw [wrote.row]
        exact congrArg (Option.getD · r.confirmedAt) (fresh other)
      have still : Still owed (w.updatePayIn id patch guard).2
          (h ++ [⟨.payInUpdate id patch guard, o⟩]) := by
        refine ⟨still.matched.leave wrote open' (left ▸ confirms) blank, fun cut => ?_⟩
        rcases cutOff_append.1 cut with confirms | ⟨cut, -⟩
        · exact other confirms.1
        · exact still.uncut cut
      rw [returned]
      exact ⟨still.debts, .inr ⟨other, still⟩⟩
  · have still : Still owed (w.updatePayIn id patch guard).2
        (h ++ [⟨.payInUpdate id patch guard, o⟩]) := by
      refine ⟨still.matched.calm calm, fun cut => ?_⟩
      rcases cutOff_append.1 cut with confirms | ⟨cut, -⟩
      · have written := confirms.2
        simp [performed, returned] at written
      · exact still.uncut cut
    rw [returned]
    exact ⟨still.debts, still⟩

/-- An update of a pay-in that is not confirmed where the guard holds. -/
lemma safe_update (stays : Stays R) (still : ∀ {w h}, R w h → Still owed w h)
    (status : ∃ s, patch.status = some s)
    (unconfirmed : ∀ w h r, R w h → w.payins.find? id = some r → guard.holds r = true →
      r.status ≠ .confirmed)
    (fresh : patch.status ≠ some .confirmed → patch.confirmedAt = some none) (hR : R w h) :
    (deliveryLedger d chain cond).safe (deliveryLedger d chain cond).Alone
      (request (.payInUpdate id patch guard))
      (Written (deliveryLedger d chain cond).IsFaultless owed id patch) w h := by
  refine Machine.safe_await (still hR).debts fun w₁ o w₂ move reply ok => ?_
  have hR := stays.env (calm_alone move) hR
  have performed {o} := written_of_update (deliveryLedger d chain cond).IsFaultless
    (o := o) (still hR) status (fun r => unconfirmed _ _ r hR) fresh
  cases o with
  | done b =>
    cases reply
    exact performed rfl
  | refused e =>
    obtain ⟨-, rfl⟩ := reply
    have still : Still owed w₂ (h ++ [⟨.payInUpdate id patch guard, .refused e⟩]) := by
      refine ⟨(still hR).matched, fun cut => ?_⟩
      rcases cutOff_append.1 cut with confirms | ⟨cut, -⟩
      · cases confirms.2
      · exact (still hR).uncut cut
    exact ⟨still.debts, still.owes⟩
  | lost b e =>
    obtain ⟨run, -⟩ := reply
    cases run
    exact ⟨(performed rfl).1, (performed rfl).1, fun faultless => (faultless _ _ _ ok).elim⟩

/-- The webhook that is due is sent. -/
lemma safe_enqueue {u : PayInRecord} {payload : List (String × Json)} (due : Due owed id u w h)
    (about : payload.lookup "id" = some (.str id)) :
    (deliveryLedger d chain cond).safe (deliveryLedger d chain cond).Alone
      (enqueue u.clientId "payin.confirmed" payload)
      (Ended (deliveryLedger d chain cond).IsFaultless owed id) w h := by
  have client {w h} (due : Due owed id u w h) :
      ∃ r, w.payins.find? id = some r ∧ truthy r.clientId = truthy u.clientId := by
    obtain ⟨r, found, same⟩ := due.row
    exact ⟨r, found, congrArg truthy (congrArg Prod.fst same)⟩
  unfold enqueue
  split
  case h_1 none =>
    obtain ⟨r, found, same⟩ := client due
    have owes : Owes (deliveryLedger d chain cond).IsFaultless owed id w h :=
      ⟨due.debts, fun _ => due.matched.nobody found (same.trans none)⟩
    exact ⟨owes.ended, owes.ended⟩
  case h_2 c some =>
    have told {w h} (due : Due owed id u w h) {o : Outcome Exception Unit}
        (performed : o.performed = Option.some ()) :
        Still owed (w.insertOutbox c "payin.confirmed" payload)
          (h ++ [⟨.outboxInsert c "payin.confirmed" payload, o⟩]) := by
      obtain ⟨r, found, same⟩ := client due
      refine ⟨due.matched.tell due.clear about found (same.trans some), fun cut => ?_⟩
      rcases cutOff_append.1 cut with confirms | ⟨-, untold⟩
      · exact confirms
      · exact untold ⟨rfl, by simp [performed]⟩
    refine ⟨due.ended, fun w₁ o w₂ move reply ok => ?_⟩
    have due := stays_due.env (calm_alone move) due
    cases o with
    | done b =>
      cases reply
      have still := told due (o := .done ()) rfl
      exact ⟨still.owes.ended, still.owes.ended⟩
    | refused e =>
      obtain ⟨-, rfl⟩ := reply
      have owes : Owes (deliveryLedger d chain cond).IsFaultless owed id w₂
          (h ++ [⟨.outboxInsert c "payin.confirmed" payload, .refused e⟩]) := by
        have due : Due owed id u w₂
            (h ++ [⟨.outboxInsert c "payin.confirmed" payload, .refused e⟩]) :=
          due.calm .refl (cutOff_append.2 (.inr ⟨due.cut, fun told => nomatch told.2⟩))
        exact ⟨due.debts, fun faultless => nomatch faultless _ _ _ ok⟩
      exact ⟨owes.ended, owes.ended⟩
    | lost b e =>
      obtain ⟨run, -⟩ := reply
      cases run
      have still := told due (o := .lost () e) rfl
      exact ⟨still.owes.ended, still.owes.ended⟩

/-- What is owed when a part of the call has come to its end. -/
lemma Ended.owes {α : Type} {r : Except Exception α} {faultless : Prop}
    (ended : Ended faultless owed id (some r) w h) : Owes faultless owed id w h :=
  ⟨ended.1, fun f => ended.2 f nofun⟩

/-- The audit of a write that has confirmed the pay-in. -/
lemma safe_auditDue {u : PayInRecord} {type : AuditEventType} {subject : Uuid} {actor : AuditActor}
    {payload : List (String × Json)} {α : Type} {f : Unit → Method α} (due : Due owed id u w h)
    (next : ∀ w h, Due owed id u w h →
      (deliveryLedger d chain cond).safe (deliveryLedger d chain cond).Alone (f ())
        (Ended (deliveryLedger d chain cond).IsFaultless owed id) w h) :
    (deliveryLedger d chain cond).safe (deliveryLedger d chain cond).Alone
      (recordAudit type subject actor payload >>= f)
      (Ended (deliveryLedger d chain cond).IsFaultless owed id) w h :=
  Machine.safe_bind_of (safe_request rfl (fun _ => nofun) stays_due due)
    (fun _ _ post => post.1.ended) (fun _ w h post => next w h post.1)
    fun e _ _ post => ⟨post.1.debts, fun faultless => absurd rfl (post.2 faultless e)⟩

/-- What comes after the webhook leaves what is owed. -/
lemma safe_afterwards {α β : Type} {p : Method α} {f : α → Method β}
    (told : (deliveryLedger d chain cond).safe (deliveryLedger d chain cond).Alone p
      (Ended (deliveryLedger d chain cond).IsFaultless owed id) w h)
    (uses : ∀ a, (f a).Uses IsCalm fun _ => True) :
    (deliveryLedger d chain cond).safe (deliveryLedger d chain cond).Alone (p >>= f)
      (Ended (deliveryLedger d chain cond).IsFaultless owed id) w h :=
  Machine.safe_bind_of told (fun _ _ ended => ⟨ended.1, fun _ ne => absurd rfl ne⟩)
    (fun a _ _ ended => Machine.safe_mono (fun _ _ _ owes => owes.ended)
      (safe_calm (uses a) stays_owes ended.owes))
    fun _ _ _ ended => ended.owes.ended

/-- The row that a call reads: where it is not confirmed, it can be confirmed by this call. -/
lemma safe_requirePayIn (still : Still owed w h) :
    (deliveryLedger d chain cond).safe (deliveryLedger d chain cond).Alone (requirePayIn id context)
      (fun stop w h => Still owed w h ∧ ∀ payin, stop = some (.ok payin) →
        payin.status ≠ .confirmed → Opened owed id w h ∧ payin.confirmedAt = none) w h := by
  refine Machine.safe_bind (Machine.safe_await ⟨still, by simp⟩ fun w₁ o w₂ move reply ok => ?_)
  have after := leads_calm (.payInFindById id context.clientId) rfl stays_still still w₁ o w₂
    move reply ok
  refine ⟨⟨after, by simp⟩, ?_⟩
  cases o with
  | refused e => exact ⟨after, by simp⟩
  | lost b e => exact ⟨after, by simp⟩
  | done b =>
    obtain ⟨rfl, rfl⟩ : w₁.findPayIn id context.clientId = b ∧ w₁ = w₂ := by
      cases reply
      exact ⟨rfl, rfl⟩
    change (deliveryLedger d chain cond).safe _ (Prog.orThrow _ (w₁.findPayIn id context.clientId))
      _ _ _
    cases read : w₁.findPayIn id context.clientId with
    | none => exact ⟨⟨read ▸ after, by simp⟩, read ▸ after, by simp⟩
    | some payin =>
      have found : w₁.payins.find? id = some payin := (Option.filter_eq_some_iff.1 read).1
      refine ⟨⟨read ▸ after, by simp⟩, read ▸ after, ?_⟩
      rintro _ ⟨⟩ unconfirmed
      exact ⟨⟨read ▸ after, payin, found, unconfirmed⟩, after.matched.fresh id payin found unconfirmed⟩

/-- The webhook of a first detection fails where operations fail only. -/
lemma safe_announceDetected {first : Bool} {u updated : PayInRecord} {α : Type} {f : Unit → Method α}
    (due : Due owed id u w h)
    (next : ∀ w h, Due owed id u w h →
      (deliveryLedger d chain cond).safe (deliveryLedger d chain cond).Alone (f ())
        (Ended (deliveryLedger d chain cond).IsFaultless owed id) w h) :
    (deliveryLedger d chain cond).safe (deliveryLedger d chain cond).Alone
      (announceDetected first updated >>= f)
      (Ended (deliveryLedger d chain cond).IsFaultless owed id) w h := by
  unfold announceDetected enqueue
  split
  case isFalse => exact next w h due
  case isTrue =>
    split
    case h_1 => exact next w h due
    case h_2 c some =>
      refine ⟨due.ended, fun w₁ o w₂ move reply ok => ?_⟩
      have due := leads_calm (.outboxInsert c "payin.detected" (detectedPayload updated))
        (show "payin.detected" ≠ "payin.confirmed" by decide) stays_due due w₁ o w₂ move reply ok
      cases o with
      | done b => exact next _ _ due
      | refused e => exact next _ _ due
      | lost b e => exact next _ _ due

/-- What follows the write of a reconciliation. -/
lemma safe_announce {payin u : PayInRecord} {status : PayInStatus} {first : Bool}
    {payload : List (String × Json)} (fresh : payin.confirmedAt = none)
    (written : status = .confirmed ∧ Due owed id u w h ∨ status ≠ .confirmed ∧ Still owed w h) :
    (deliveryLedger d chain cond).safe (deliveryLedger d chain cond).Alone
      (recordAudit .payinReconciled id (toAuditActor context) payload >>= fun _ =>
        announceDetected first u >>= fun _ =>
          announceConfirmed d id context payin (isNewConfirmation payin status) u >>= fun _ =>
            toResponse u)
      (Ended (deliveryLedger d chain cond).IsFaultless owed id) w h := by
  rcases written with ⟨rfl, due⟩ | ⟨other, still⟩
  · have new : isNewConfirmation payin .confirmed = true := by simp [isNewConfirmation, fresh]
    refine safe_auditDue due fun w h due => safe_announceDetected due fun w h due => ?_
    refine safe_afterwards ?_ fun _ => calm_toResponse
    unfold announceConfirmed
    rw [if_pos new]
    have about : (confirmedPayload u).lookup "id" = some (.str id) := by
      rw [← due.key]
      rfl
    refine Machine.safe_bind_of (safe_enqueue due about)
      (fun _ _ ended => ⟨ended.1, fun _ ne => absurd rfl ne⟩) (fun _ w h ended => ?_)
      fun _ _ _ ended => ended.owes.ended
    split
    case isTrue => exact ⟨ended.owes.ended, ended.owes.ended⟩
    case isFalse => exact ⟨ended.owes.ended, ended.owes.ended⟩
  · have old : isNewConfirmation payin status = false := by simp [isNewConfirmation, other]
    refine Machine.safe_mono (fun _ _ _ still => still.owes.ended) (safe_calm ?_ stays_still still)
    refine Prog.uses_bind (Prog.uses_await rfl) fun _ => ?_
    refine Prog.uses_bind calm_announceDetected fun _ => ?_
    refine Prog.uses_bind ?_ fun _ => calm_toResponse
    unfold announceConfirmed
    rw [old]
    exact Prog.uses_pure _

/-- What a reconciliation owes when it stops. -/
theorem safe_reconcilePayIn (still : Still owed w h) :
    (deliveryLedger d chain cond).safe (deliveryLedger d chain cond).Alone (reconcilePayIn d id context)
      (Ended (deliveryLedger d chain cond).IsFaultless owed id) w h := by
  refine Machine.safe_bind_of (safe_requirePayIn still) (fun _ _ post => post.1.owes.ended)
    (fun payin w h post => ?_) fun _ _ _ post => post.1.owes.ended
  split
  case isTrue =>
    exact Machine.safe_mono (fun _ _ _ still => still.owes.ended)
      (safe_calm calm_toResponse stays_still post.1)
  case isFalse unconfirmed =>
    obtain ⟨opened, fresh⟩ := post.2 payin rfl unconfirmed
    have ended {α : Type} (stop : Option (Except Exception α)) (w : World) (h : Hist Api)
        (opened : Opened owed id w h) :
        Ended (deliveryLedger d chain cond).IsFaultless owed id stop w h :=
      opened.toStill.owes.ended
    refine safe_calm_bind (Prog.uses_await rfl) stays_opened opened ended fun latestBlock w h opened => ?_
    refine safe_calm_bind (calm_of_quiet quiet_findPayInTransfers) stays_opened opened ended
      fun new w h opened => ?_
    refine safe_calm_bind (Prog.uses_await rfl) stays_opened opened ended fun now w h opened => ?_
    refine safe_calm_bind (calm_of_quiet quiet_readExpired) stays_opened opened ended
      fun expired w h opened => ?_
    refine Machine.safe_bind_of (safe_update stays_opened (fun opened => opened.toStill) ⟨_, rfl⟩
      (fun w h r opened found _ => ?_) (fun other => ?_) opened) (fun _ _ written => ⟨written, ?_⟩)
      (fun updated w h written => ?_) fun _ _ _ owes => owes.ended
    · obtain ⟨r', found', unconfirmed⟩ := opened.row
      obtain rfl := Option.some_inj.1 (found'.symm.trans found)
      exact unconfirmed
    · change some (if isNewConfirmation payin _ = true then _ else payin.confirmedAt) = some none
      rw [if_neg, fresh]
      intro new
      exact other (congrArg some (of_decide_eq_true (Bool.and_eq_true_iff.1 new).1))
    · exact fun _ ne => absurd rfl ne
    · cases updated with
      | none =>
        exact ⟨written.owes.ended, written.owes.ended⟩
      | some u =>
        refine safe_announce fresh (written.imp (fun due => ?_) fun still => ?_)
        · exact ⟨Option.some_inj.1 due.1, due.2⟩
        · exact ⟨fun eq => still.1 (congrArg some eq), still.2⟩

/-- What a manual acceptance owes when it stops. -/
theorem safe_acceptPayIn {dto : AcceptPayInDto} (still : Still owed w h) :
    (deliveryLedger d chain cond).safe (deliveryLedger d chain cond).Alone (acceptPayIn id dto context)
      (Ended (deliveryLedger d chain cond).IsFaultless owed id) w h := by
  have ended {α : Type} (stop : Option (Except Exception α)) (w : World) (h : Hist Api)
      (still : Still owed w h) : Ended (deliveryLedger d chain cond).IsFaultless owed id stop w h :=
    still.owes.ended
  refine safe_calm_bind (calm_of_quiet quiet_requirePayIn) stays_still still ended
    fun payin w h still => ?_
  refine safe_calm_bind (Prog.uses_await rfl) stays_still still ended fun now w h still => ?_
  refine Machine.safe_bind_of (safe_update stays_still (fun still => still) ⟨_, rfl⟩ (fun w h r _ _ holds => ?_)
    (fun other => absurd rfl other) still) (fun _ _ written => ⟨written, fun _ ne => absurd rfl ne⟩)
    (fun updated w h written => ?_) fun _ _ _ owes => owes.ended
  · intro confirmed
    simp [PayInUpdateGuard.holds, acceptGuard, confirmed] at holds
  · cases updated with
    | none =>
      refine Machine.safe_mono (fun _ _ _ still => still.owes.ended) (safe_calm ?_ stays_still written)
      refine Prog.uses_bind (calm_of_quiet quiet_requirePayIn) fun current => ?_
      dsimp only
      split
      case isTrue => exact calm_toResponse
      case isFalse => exact Prog.uses_throw trivial
    | some u =>
      have due : Due owed _ u w h := (written.resolve_right fun other => other.1 rfl).2
      refine safe_auditDue due fun w h due => safe_afterwards (safe_enqueue due ?_)
        fun _ => calm_toResponse
      rw [← due.key]
      rfl

end

/-! ## Sessions -/

/-- The services without faults. -/
abbrev faultlessLedger (d : Deployment) (chain : Chain → Chain → Prop) : Machine Api World :=
  deliveryLedger d chain fun _ w e => e.Faultless World.exec w

/-- The services with faults of any kind. -/
abbrev faultyLedger (d : Deployment) (chain : Chain → Chain → Prop) : Machine Api World :=
  deliveryLedger d chain fun _ _ _ => True

/-- A call that may confirm the pay-in. -/
inductive Attempt (d : Deployment) (id : Uuid) : Method PayInResponse → Prop where
  | reconcilePayIn {context} : Attempt d id (reconcilePayIn d id context)
  | acceptPayIn {dto context} : Attempt d id (acceptPayIn id dto context)

section
variable {d : Deployment} {chain : Chain → Chain → Prop}
  {cond : Hist Api → World → Event Api → Prop} {w w' : World} {h : Hist Api} {owed : Set Uuid}
  {id : Uuid} {context : RequestContext}

/-- No operation fails in the machine without failures. -/
lemma isFaultless_ledger : (faultlessLedger d chain).IsFaultless := fun _ _ _ ok => ok

/-- A program that confirms nothing. -/
lemma wp_harmless {α : Type} {p : Method α} (uses : p.Uses IsHarmless fun _ => True)
    (matched : Matched owed w) :
    (deliveryLedger d chain cond).wp (deliveryLedger d chain cond).Alone p
      (fun _ w _ => Matched owed w) w h := by
  refine Machine.wp_uses (R := fun w _ => Matched owed w) (fun op w h harmless matched => ?_) uses
    matched
  intro w₁ o w₂ move reply _
  have matched := matched.calm (calm_alone move)
  have performed : ∀ b, World.exec op w₁ = some (b, w₂) → Matched owed w₂ := fun b run => by
    by_cases insert : ∃ r, op = .payInInsert r
    · obtain ⟨r, rfl⟩ := insert
      exact matched.created harmless run
    · refine matched.calm (calm_exec run ?_)
      cases op
      case payInInsert => exact absurd ⟨_, rfl⟩ insert
      all_goals exact harmless
  cases o with
  | done b => exact performed b reply
  | refused e => exact reply.2 ▸ matched
  | lost b e => exact performed b reply.1

/-- What a call owes it owes all the same when its result is dropped. -/
lemma safe_discard {α : Type} {p : Method α}
    (safe : (deliveryLedger d chain cond).safe (deliveryLedger d chain cond).Alone p
      (Ended (deliveryLedger d chain cond).IsFaultless owed id) w h) :
    (deliveryLedger d chain cond).safe (deliveryLedger d chain cond).Alone p.discard
      (Ended (deliveryLedger d chain cond).IsFaultless owed id) w h :=
  Machine.safe_bind_of safe (fun _ _ ended => ⟨ended.1, fun _ ne => absurd rfl ne⟩)
    (fun _ _ _ ended => ⟨ended.owes.ended, ended.owes.ended⟩) fun _ _ _ ended => ended.owes.ended

/-- A session without faults owes no more than before. -/
lemma matched_of_session (session : (faultlessLedger d chain).Session w w')
    (matched : Matched owed w) : Matched owed w' := by
  refine Machine.session_induction (I := Matched owed)
    (fun _ _ move matched => matched.calm (calm_background move))
    (fun p r w w' h entry run matched => ?_) session matched
  have harmless : p.Uses IsHarmless (fun _ => True) → Matched owed w' := fun uses =>
    Machine.wp_sound (Q := fun _ w _ => Matched owed w) run (wp_harmless uses matched)
  have ended {id : Uuid} (safe : (faultlessLedger d chain).safe (faultlessLedger d chain).Alone p
      (Ended (faultlessLedger d chain).IsFaultless owed id) w []) : Matched owed w' :=
    (Machine.safe_sound run.stops safe).2 isFaultless_ledger (Option.some_ne_none _)
  have still : Still owed w [] := ⟨matched, not_cutOff_nil⟩
  have discard {α : Type} {p : Method α} (uses : p.Uses IsHarmless fun _ => True) :
      p.discard.Uses IsHarmless fun _ => True := Prog.uses_bind uses fun _ => Prog.uses_pure _
  cases entry with
  | createPayIn => exact harmless (discard harmless_createPayIn)
  | listPayIns => exact harmless (discard (harmless_of_quiet quiet_listPayIns))
  | getPayIn => exact harmless (discard (harmless_of_quiet quiet_getPayIn))
  | reconcilePayIn => exact ended (safe_discard (safe_reconcilePayIn still))
  | acceptPayIn => exact ended (safe_discard (safe_acceptPayIn still))
  | sweepPayIn => exact harmless (discard (harmless_of_quiet quiet_sweepPayIn))
  | topUpPayIn => exact harmless (discard (harmless_of_quiet quiet_topUpPayIn))
  | topUpAndSweep => exact harmless (discard (harmless_of_quiet quiet_topUpAndSweep))
  | retryPendingSweeps => exact harmless (discard (harmless_of_quiet quiet_retryPendingSweeps))

/-- An attempt on a pay-in fails, at any operation and in any way, or is cut short; before it and after
    it calls are made without faults. Then the client of the pay-in has been told, if it is confirmed,
    just where the attempt did not stop between the write that confirms and the webhook. -/
theorem announced_iff_not_cutOff {c : Chain} {now : Timestamp} {nextUuid : Uuid} {nextBytes32 : Hex}
    {w₀ w₁ w₂ : World} {p : Method PayInResponse} {stop : Option (Except Exception PayInResponse)}
    (before : (faultlessLedger d chain).Session (.fresh c now nextUuid nextBytes32) w₀)
    (call : Attempt d id p)
    (attempt : (faultyLedger d chain).Stops (faultyLedger d chain).Alone p w₀ [] stop w₁ h)
    (after : (faultlessLedger d chain).Session w₁ w₂) {r : PayInRecord} {client : String}
    (found : w₂.payins.find? id = some r) (owner : r.clientId = some client) (named : client ≠ "") :
    (r.status = .confirmed → Announced client id w₂) ↔ ¬CutOff h := by
  have fresh : Matched ∅ (.fresh c now nextUuid nextBytes32) :=
    { told _ _ _ found := nomatch found
      fresh _ _ found := nomatch found
      real _ _ announced := nomatch announced.choose_spec.1
      owing _ mem := absurd mem (Set.notMem_empty _) }
  have still : Still ∅ w₀ [] := ⟨matched_of_session before fresh, not_cutOff_nil⟩
  have ended : Ended (faultyLedger d chain).IsFaultless ∅ id stop w₁ h := by
    refine Machine.safe_sound attempt ?_
    cases call with
    | reconcilePayIn => exact safe_reconcilePayIn still
    | acceptPayIn => exact safe_acceptPayIn still
  have matched := matched_of_session after ended.1
  constructor
  · intro delivered cut
    have owed : id ∈ debts ∅ id h := .inr ⟨rfl, cut⟩
    obtain ⟨r', found', confirmed⟩ := matched.owing id owed
    obtain rfl := Option.some_inj.1 (found'.symm.trans found)
    exact (matched.real client id (delivered confirmed)).1 owed
  · intro uncut confirmed
    rw [debts_of_not uncut] at matched
    refine (matched.told id r client found confirmed ?_).resolve_left (Set.notMem_empty id)
    simp [truthy, owner, Option.filter, named]

end

/-! ## Concrete attempts -/

/-- The services, with scans that a concrete run can evaluate. -/
def quickLedger (cond : Hist Api → World → Event Api → Prop) : Machine Api World :=
  { quick Advances (Entry .sample) cond with env := Background Advances }

/-- The concrete machine is one of the services. -/
lemma quickLedger_eq {cond : Hist Api → World → Event Api → Prop} :
    quickLedger cond = deliveryLedger .sample Advances cond := by
  unfold quickLedger
  rw [quick_eq]

/-- A pay-in is created and paid, reconciled with some fates, and then reconciled again. -/
def interrupted (fates : List (Fate Exception)) (P : Hist Api → World → Bool) : Bool :=
  let M := quickLedger fun _ w e => e.Faultless World.exec w
  let done (_ : Hist Api) (_ : World) (e : Event Api) : Bool := !e.outcome.threw
  (M.session done [.call (sampleCreate .derivedAddress) (.replicate 7 .done),
      .env (arrive [sampleTransfer] [])] .sample).any fun w₀ =>
    ((quickLedger fun _ _ _ => True).play Machine.always (reconcilePayIn .sample World.sampleId .sample)
        fates w₀ []).any fun r =>
      (M.session done [.call sampleReconcile (.replicate 2 .done),
          .call sampleReconcile (.replicate 2 .done)] r.2.1).any fun w₂ => P r.2.2 w₂

/-- A run that the evaluation finds interrupted is a run of the machine. -/
lemma exists_interrupted (fates : List (Fate Exception)) (P : Hist Api → World → Bool)
    (res : interrupted fates P = true) : ∃ w₀ w₁ w₂ r h,
      (faultlessLedger .sample Advances).Session .sample w₀ ∧
      (faultyLedger .sample Advances).Stops (faultyLedger .sample Advances).Alone
        (reconcilePayIn .sample World.sampleId .sample) w₀ [] (some r) w₁ h ∧
      (faultlessLedger .sample Advances).Session w₁ w₂ ∧ P h w₂ = true := by
  simp only [interrupted, quickLedger_eq] at res
  obtain ⟨w₀, before, res⟩ := (Option.any_eq_true _ _).1 res
  obtain ⟨⟨r, w₁, h⟩, attempt, res⟩ := (Option.any_eq_true _ _).1 res
  obtain ⟨w₂, after, holds⟩ := (Option.any_eq_true _ _).1 res
  refine ⟨w₀, w₁, w₂, r, h, ?_, ?_, ?_, holds⟩
  · refine Machine.session_of_eval (fun _ _ _ => Event.faultless_of_not_threw) ?_ before
    simp only [List.forall_mem_cons]
    exact ⟨.createPayIn, fun w => .env (env_arrive w), by simp⟩
  · exact (Machine.runs_of_play (fun _ _ _ _ => trivial) (fun _ _ => .refl) attempt).stops
  · refine Machine.session_of_eval (fun _ _ _ => Event.faultless_of_not_threw) ?_ after
    simp only [List.forall_mem_cons]
    exact ⟨.reconcilePayIn, .reconcilePayIn, by simp⟩

/-- The first pay-in is confirmed for its client. -/
def confirmedFor (w : World) : Bool :=
  (w.payins.find? World.sampleId).any fun r =>
    decide (r.status = .confirmed ∧ r.clientId = some "client")

/-- The client has been told of the first pay-in. -/
def told (w : World) : Bool :=
  w.outbox.any fun e =>
    decide (e.clientId = "client") && e.announces "payin.confirmed" World.sampleId

/-- The evaluation finds just the announcements of the sample pay-in. -/
lemma announced_iff_told {w : World} : Announced "client" World.sampleId w ↔ told w = true := by
  simp [Announced, told]

/-- An attempt that fails after the webhook, and is repeated. -/
theorem announced_of_late_fault : ∃ w₀ w₁ w₂ r h,
    (faultlessLedger .sample Advances).Session .sample w₀ ∧
    (faultyLedger .sample Advances).Stops (faultyLedger .sample Advances).Alone
      (reconcilePayIn .sample World.sampleId .sample) w₀ [] (some r) w₁ h ∧
    (faultlessLedger .sample Advances).Session w₁ w₂ ∧
      (h.countP fun e => e.outcome.threw) = 1 ∧ ¬CutOff h ∧ Announced "client" World.sampleId w₂ := by
  obtain ⟨w₀, w₁, w₂, r, h, before, attempt, after, res⟩ := exists_interrupted
    (.replicate 8 .done ++ [.refused .unknown])
    (fun h w => decide ((h.countP fun e => e.outcome.threw) = 1) && confirmedFor w && told w)
    (by decide +kernel)
  simp only [Bool.and_eq_true, decide_eq_true_eq] at res
  obtain ⟨⟨single, confirmed⟩, told⟩ := res
  obtain ⟨row, found, marked⟩ := (Option.any_eq_true _ _).1 confirmed
  have announced := announced_iff_told.2 told
  exact ⟨w₀, w₁, w₂, r, h, before, attempt, after, single,
    (announced_iff_not_cutOff before .reconcilePayIn attempt after found (of_decide_eq_true marked).2
      (by decide)).1 fun _ => announced, announced⟩

/-- An attempt whose audit fails, and is repeated: the pay-in is confirmed, and its client never
    told. -/
theorem unannounced_of_audit_fault : ∃ w₀ w₁ w₂ r h,
    (faultlessLedger .sample Advances).Session .sample w₀ ∧
    (faultyLedger .sample Advances).Stops (faultyLedger .sample Advances).Alone
      (reconcilePayIn .sample World.sampleId .sample) w₀ [] (some r) w₁ h ∧
    (faultlessLedger .sample Advances).Session w₁ w₂ ∧
      (h.countP fun e => e.outcome.threw) = 1 ∧
        (∃ r, w₂.payins.find? World.sampleId = some r ∧ r.status = .confirmed ∧
          r.clientId = some "client") ∧ ¬Announced "client" World.sampleId w₂ := by
  obtain ⟨w₀, w₁, w₂, r, h, before, attempt, after, res⟩ := exists_interrupted
    (.replicate 5 .done ++ [.refused .unknown])
    (fun h w => decide ((h.countP fun e => e.outcome.threw) = 1) && confirmedFor w && !told w)
    (by decide +kernel)
  simp only [Bool.and_eq_true, decide_eq_true_eq, Bool.not_eq_true'] at res
  obtain ⟨⟨single, confirmed⟩, untold⟩ := res
  obtain ⟨row, found, marked⟩ := (Option.any_eq_true _ _).1 confirmed
  refine ⟨w₀, w₁, w₂, r, h, before, attempt, after, single, ⟨row, found, of_decide_eq_true marked⟩, ?_⟩
  rw [announced_iff_told, untold]
  exact Bool.false_ne_true

end AvaSettle.Payins.Delivery
