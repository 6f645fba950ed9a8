import AvaSettle.Async.Emits
import AvaSettle.Webhooks.Service

/-!
# Acknowledged deliveries

What one delivery may report once the receiver has acknowledged it. The update that books the
acknowledgement is made inside the `try` of the request: where it throws on the last attempt, its
error is taken for an error of the request, and the delivery is reported as failed.
-/

namespace AvaSettle.Webhooks.Delivered
open Async (Prog Hist Event Machine)
open Clients (ClientRecord ClientRow)

/-! ## Events -/

/-- The receiver has answered a POST for a row with a 2xx. -/
def isAcknowledgement (id : Uuid) : Event Api → Bool
  | ⟨.receive row .post, .done (.ok response)⟩ => decide (row = id) && isOk response.status
  | _ => false

/-- The row becomes `failed`. -/
def marksFailed (id : Uuid) : Event Api → Bool
  | ⟨.setStatus row .failed _ _, o⟩ => decide (row = id) && o.performed.isSome
  | _ => false

/-- An unsuccessful entry is written to the delivery log. -/
def logsFailure (id : Uuid) : Event Api → Bool
  | ⟨.insertDelivery row delivery, o⟩ =>
    decide (row = id) && !delivery.success && o.performed.isSome
  | _ => false

/-- The update of the row to `delivered` throws. -/
def isUnbooked (id : Uuid) : Event Api → Bool
  | ⟨.setStatus row .delivered _ _, o⟩ => decide (row = id) && o.threw
  | _ => false

/-- A query of the database fails. -/
def isFailedQuery (e : Event Api) : Bool := e.op.isQuery && e.outcome.threw

/-- The delivery reports nothing but success. -/
def Unfailed (id : Uuid) (h : Hist Api) : Prop :=
  h.any (marksFailed id) = false ∧ h.any (logsFailure id) = false

/-- The attempt is the last one that the configuration allows. -/
def isLastAttempt (s : Setting) (row : OutboxRow) : Prop :=
  max 1 s.webhookRetryAttempts ≤ row.attempts + 1

instance {s : Setting} {row : OutboxRow} : Decidable (isLastAttempt s row) :=
  inferInstanceAs (Decidable (_ ≤ _))

/-! ## What the parts of a delivery emit -/

section
variable {s : Setting} {cond : Hist Api → World → Event Api → Prop}
  {rely : Hist Api → World → World → Prop} {row : OutboxRow} {client : ClientRecord} {url : String}

/-- Nothing is reported, and where the receiver has acknowledged the result says so. -/
structure FetchTrace {α : Type} (id : Uuid) (status : α → Nat) (r : Except Exception α) (h : Hist Api) :
    Prop where
  unfailed : Unfailed id h
  booked : h.any (isUnbooked id) = false
  acknowledged : h.any (isAcknowledgement id) = true → ∃ a, r = .ok a ∧ isOk (status a) = true

/-- A redirect is no acknowledgement. -/
lemma not_isOk_of_redirection {response : Response} {location : String}
    (redirects : redirection response = some location) : isOk response.status = false := by
  unfold redirection at redirects
  split at redirects
  case isTrue mem =>
    simp only [redirectStatuses, List.mem_cons, List.not_mem_nil, or_false] at mem
    unfold isOk
    rw [decide_eq_false_iff_not]
    omega
  case isFalse => cases redirects

/-- A redirect and what follows it. -/
lemma FetchTrace.append {α β : Type} {id : Uuid} {status : α → Nat} {status' : β → Nat} {a : α}
    {r : Except Exception β} {es es' : Hist Api} (first : FetchTrace id status (.ok a) es)
    (declined : isOk (status a) = false) (next : FetchTrace id status' r es') :
    FetchTrace id status' r (es ++ es') where
  unfailed := by simp [Unfailed, first.unfailed.1, first.unfailed.2, next.unfailed.1, next.unfailed.2]
  booked := by simp [first.booked, next.booked]
  acknowledged acked := by
    rw [List.any_append, Bool.or_eq_true] at acked
    rcases acked with acked | acked
    · obtain ⟨a', eq, accepted⟩ := first.acknowledged acked
      cases eq
      cases declined.symm.trans accepted
    · exact next.acknowledged acked

/-- Nothing has been acknowledged where the result is no acceptance. -/
lemma FetchTrace.unacknowledged {α : Type} {id : Uuid} {status : α → Nat} {r : Except Exception α}
    {h : Hist Api} (traced : FetchTrace id status r h)
    (declined : ∀ a, r = .ok a → isOk (status a) = false) : h.any (isAcknowledgement id) = false := by
  cases acked : h.any (isAcknowledgement id) with
  | false => rfl
  | true =>
    obtain ⟨a, eq, accepted⟩ := traced.acknowledged acked
    cases (declined a eq).symm.trans accepted

/-- One request and its answer. -/
lemma emits_exchange {id : Uuid} {req : HttpRequest} :
    (machine s cond).Emits rely (exchange id req) (FetchTrace id Response.status) := by
  apply Machine.emits_calm_bind (fun _ => rfl)
  intro _
  apply Machine.emits_calm_bind (fun _ => rfl)
  intro answer
  apply Machine.emits_ofExcept
  constructor
  · simp [Unfailed, marksFailed, logsFailure]
  · simp [isUnbooked]
  · cases answer with
    | error e => simp [isAcknowledgement]
    | ok response =>
      cases req.method with
      | get => simp [isAcknowledgement]
      | post => simp [isAcknowledgement]

/-- Any number of redirects: only the last answer may be an acknowledgement. -/
lemma emits_follow {id : Uuid} {redirects : Nat} {req : HttpRequest} :
    (machine s cond).Emits rely (follow s id redirects req) (FetchTrace id fun status => status) := by
  have failed {response : Response} {location : String} {es : Hist Api}
      (redirects : redirection response = some location)
      (traced : FetchTrace id Response.status (.ok response) es) :
      FetchTrace (α := Nat) id (fun status => status) (.error fetchFailed) es := by
    have rest : FetchTrace (α := Nat) id (fun status => status) (.error fetchFailed) [] :=
      ⟨⟨rfl, rfl⟩, rfl, fun acked => by cases acked⟩
    rw [← List.append_nil es]
    exact traced.append (not_isOk_of_redirection redirects) rest
  have answered {response : Response} {es : Hist Api}
      (traced : FetchTrace id Response.status (.ok response) es) :
      FetchTrace id (fun status => status) (.ok response.status) es :=
    ⟨traced.unfailed, traced.booked, fun acked => by
      obtain ⟨_, eq, accepted⟩ := traced.acknowledged acked
      cases eq
      exact ⟨_, rfl, accepted⟩⟩
  have errors {e : Exception} {es : Hist Api}
      (traced : FetchTrace (α := Response) id Response.status (.error e) es) :
      FetchTrace (α := Nat) id (fun status => status) (.error e) es :=
    ⟨traced.unfailed, traced.booked, fun acked => by
      obtain ⟨_, eq, -⟩ := traced.acknowledged acked
      cases eq⟩
  induction redirects generalizing req with
  | zero =>
    refine Machine.emits_bind emits_exchange (fun response es traced => ?_) fun _ _ => errors
    cases redirects : redirection response with
    | none => exact Machine.emits_ofExcept (x := .ok _) (by simpa using answered traced)
    | some location => exact Machine.emits_ofExcept (x := .error _) (by simpa using failed redirects traced)
  | succ n ih =>
    refine Machine.emits_bind emits_exchange (fun response es traced => ?_) fun _ _ => errors
    cases redirects : redirection response with
    | none => exact Machine.emits_ofExcept (x := .ok _) (by simpa using answered traced)
    | some location =>
      dsimp only
      cases s.locationUrl req.url location with
      | none =>
        exact Machine.emits_ofExcept (x := .error _) (by simpa using failed redirects traced)
      | some url =>
        exact Machine.emits_mono (fun _ _ next => traced.append (not_isOk_of_redirection redirects) next) ih

/-- All requests that follow one another, with the last answer. -/
lemma emits_fetch {headers : List (String × String)} {body : String} :
    (machine s cond).Emits rely (fetch s row.id url headers body)
      (FetchTrace row.id fun status => status) := by
  apply Machine.emits_calm_bind (fun _ => rfl)
  intro requestID
  apply Machine.emits_mono ?_ emits_follow
  intro r es traced
  constructor
  · simpa [Unfailed, marksFailed, logsFailure] using traced.unfailed
  · simpa [isUnbooked] using traced.booked
  · intro acked
    exact traced.acknowledged (by simpa [isAcknowledgement] using acked)

/-- A delivery that is over is booked; for one that goes on the receiver has not acknowledged the
    request, or the booking has thrown. -/
def TryTrace (id : Uuid) : Except Exception (Option (String × Bool)) → Hist Api → Prop
  | .ok none, h => Unfailed id h ∧ h.any (isUnbooked id) = false
  | .ok (some (_, retryable)), h => Unfailed id h ∧ (h.any (isAcknowledgement id) = false ∨
      h.any (isUnbooked id) = true ∧ 1 ≤ h.countP isFailedQuery ∧ retryable = true)
  | .error _, _ => False

/-- The same of the body of the `try`, whose errors the handler takes for retryable failures. -/
def BodyTrace (id : Uuid) : Except Exception (Option (String × Bool)) → Hist Api → Prop
  | .ok outcome, h => TryTrace id (.ok outcome) h
  | .error error, h => TryTrace id (.ok (some (error.messageOr "Network error", true))) h

/-- The body of the `try`. -/
lemma emits_tryDelivery :
    (machine s cond).Emits rely (tryDelivery s row client url) (TryTrace row.id) := by
  refine Machine.emits_tryCatch (P := BodyTrace row.id) ?_ (fun _ _ post => post) ?_
  · refine Machine.emits_bind emits_fetch (fun status es fetched => ?_) ?_
    · have unfailed := fetched.unfailed
      have booked := fetched.booked
      split
      case isTrue accepted =>
        refine Machine.emits_await_bind (fun o _ answer => ?_) fun o e threw _ => ?_
        · -- the booking is answered: the entry of the log is a success, whatever becomes of it
          cases o with
          | done b =>
            refine Machine.emits_calm_bind (fun _ => rfl) fun deliveredAt => ?_
            refine Machine.emits_bind (P := fun r h => ∃ u o', r = .ok u ∧ h = [⟨_, o'⟩])
              (Machine.emits_awaitOr fun o' => ⟨_, o', rfl, rfl⟩) ?_ ?_
            · rintro u es' ⟨_, o', -, rfl⟩
              refine Machine.emits_pure ?_
              simp_all [BodyTrace, TryTrace, Unfailed, marksFailed, logsFailure, isUnbooked,
                Async.Outcome.threw]
            · rintro e es' ⟨_, o', eq, -⟩
              cases eq
          | refused e => cases answer
          | lost b e => cases answer
        · -- the booking throws, which the handler takes for an error of the request
          have throws := Async.Outcome.threw_of_answer threw
          simp_all [BodyTrace, TryTrace, Unfailed, marksFailed, logsFailure, isUnbooked, isFailedQuery,
            Call.isQuery]
      case isFalse declined =>
        have unacked := fetched.unacknowledged fun a eq => by
          cases eq
          simpa using declined
        apply Machine.emits_pure
        rw [List.append_nil]
        exact ⟨unfailed, .inl unacked⟩
    · intro e es fetched
      exact ⟨fetched.unfailed, .inl (fetched.unacknowledged fun a eq => by cases eq)⟩
  · intro e es post
    refine Machine.emits_pure ?_
    rw [List.append_nil]
    exact post

/-- What follows an attempt reports the failure on the last attempt, as long as no query fails, and
    nothing on an earlier one. -/
def GiveUpTrace (id : Uuid) (last retryable : Bool) (h : Hist Api) : Prop :=
  (h.any (isAcknowledgement id) = false ∧ h.any (isUnbooked id) = false) ∧
    if !retryable || last then h.countP isFailedQuery = 0 → h.any (marksFailed id) = true
    else Unfailed id h

/-- Giving up, or putting the row back. -/
lemma emits_giveUpOrRetry {lastError : String} {retryable : Bool} :
    (machine s cond).Emits rely (giveUpOrRetry s row client url lastError retryable)
      fun _ => GiveUpTrace row.id (isLastAttempt s row) retryable := by
  unfold giveUpOrRetry
  have last : decide (isLastAttempt s row) =
    decide (max 1 s.webhookRetryAttempts ≤ row.attempts + 1) := rfl
  unfold GiveUpTrace
  simp only [last]
  split
  case isTrue done =>
    refine Machine.emits_await_bind (fun o b answer => ?_) fun o e threw _ => ?_
    · cases o with
      | done b =>
        refine Machine.emits_awaitOr fun o' => ?_
        simp [marksFailed, isAcknowledgement, isUnbooked, Async.Outcome.performed]
      | refused e => cases answer
      | lost b e => cases answer
    · have throws := Async.Outcome.threw_of_answer threw
      simp [isFailedQuery, Call.isQuery, throws, isAcknowledgement, isUnbooked]
  case isFalse again =>
    refine Machine.emits_await fun o _ => ?_
    simp [Unfailed, marksFailed, logsFailure, isAcknowledgement, isUnbooked]

/-- A delivery whose receiver has acknowledged the request reports a failure exactly where the booking
    has thrown on the last attempt. -/
def DeliveryTrace (s : Setting) (row : OutboxRow) (h : Hist Api) : Prop :=
  h.any (isAcknowledgement row.id) = true → h.countP isFailedQuery ≤ 1 →
    (Unfailed row.id h ↔ ¬(h.any (isUnbooked row.id) = true ∧ isLastAttempt s row))

/-- An attempt that goes on and what follows it. -/
lemma deliveryTrace_append {lastError : String} {retryable : Bool} {es es' : Hist Api}
    (tried : TryTrace row.id (.ok (some (lastError, retryable))) es)
    (gaveUp : GiveUpTrace row.id (isLastAttempt s row) retryable es') :
    DeliveryTrace s row (es ++ es') := by
  intro acked single
  obtain ⟨⟨silent, booked⟩, reports⟩ := gaveUp
  rw [List.any_append, silent, Bool.or_false] at acked
  rw [List.countP_append] at single
  obtain ⟨unfailed, unacked | ⟨unbooked, failed, rfl⟩⟩ := tried
  case inl => simp [unacked] at acked
  case inr =>
    simp only [Unfailed, List.any_append, unfailed.1, unfailed.2, unbooked, Bool.true_or,
      Bool.false_or, true_and]
    by_cases last : isLastAttempt s row
    · -- the one failure that is allowed was the booking, so the row is marked
      have marked : es'.any (marksFailed row.id) = true := by
        simp only [last, decide_true, Bool.or_true, if_true] at reports
        exact reports (by omega)
      simp [marked, last]
    · have quiet : Unfailed row.id es' := by simpa [last] using reports
      simp [quiet.1, quiet.2, last]

/-- A delivery to an endpoint. -/
lemma emits_deliverTo :
    (machine s cond).Emits rely (deliverTo s row client url) fun _ => DeliveryTrace s row := by
  refine Machine.emits_bind emits_tryDelivery (fun outcome es tried => ?_) fun _ _ post => post.elim
  cases outcome with
  | none =>
    refine Machine.emits_pure fun _ _ => ?_
    rw [List.append_nil]
    simp [tried.1, tried.2]
  | some failure =>
    exact Machine.emits_mono (fun _ es' gaveUp => deliveryTrace_append tried gaveUp)
      emits_giveUpOrRetry

/-- A delivery without a request. -/
lemma deliveryTrace_of_unasked {h : Hist Api} (silent : h.any (isAcknowledgement row.id) = false) :
    DeliveryTrace s row h := by
  intro acked
  rw [silent] at acked
  cases acked

/-- Loading the client is no part of what a delivery reports. -/
lemma deliveryTrace_cons {id : Uuid} {o} {h : Hist Api} (delivery : DeliveryTrace s row h) :
    DeliveryTrace s row (⟨.findClient id, o⟩ :: h) := by
  intro acked single
  have fewer : h.countP isFailedQuery ≤ 1 :=
    le_trans (List.countP_mono_left fun _ _ holds => holds)
      (le_trans (List.Sublist.countP_le (List.sublist_cons_self _ h)) single)
  have same := delivery (by simpa [isAcknowledgement] using acked) fewer
  simpa [Unfailed, marksFailed, logsFailure, isUnbooked] using same

/-- A delivery. -/
lemma emits_deliverOnce :
    (machine s cond).Emits rely (deliverOnce s row) fun _ => DeliveryTrace s row := by
  refine Machine.emits_bind (P := fun r (h : Hist Api) =>
      ∃ r' o, r = .ok r' ∧ h = [⟨Call.findClient row.clientId, o⟩])
    (Machine.emits_mono (fun r h post => ?_) (Machine.emits_settle
      (P := fun _ (h : Hist Api) => ∃ o, h = [⟨Call.findClient row.clientId, o⟩])
      (Machine.emits_await fun o _ => ⟨o, rfl⟩))) ?_ ?_
  · obtain ⟨r', eq, o, loaded⟩ := post
    exact ⟨r', o, eq, loaded⟩
  · rintro found es ⟨-, o, -, rfl⟩
    cases found with
    | error e =>
      refine Machine.emits_await fun o' _ => deliveryTrace_of_unasked ?_
      simp [isAcknowledgement]
    | ok client =>
      cases endpoint : endpointOf client with
      | none =>
        simp only [endpoint]
        refine Machine.emits_await fun o' _ => deliveryTrace_of_unasked ?_
        simp [isAcknowledgement]
      | some target =>
        simp only [endpoint]
        exact Machine.emits_mono (fun _ _ delivery => deliveryTrace_cons delivery) emits_deliverTo
  · rintro e es ⟨_, -, eq, -⟩
    cases eq

/-- An acknowledged delivery in which at most one query fails reports no failure, neither in the row nor
    in the log, exactly where it is not the booking of the last attempt that fails. -/
theorem unfailed_iff {w w' : World} {r : Except Exception Unit} {h : Hist Api}
    (run : (machine s).Runs rely (deliverOnce s row) w [] r w' h)
    (acked : h.any (isAcknowledgement row.id) = true) (single : h.countP isFailedQuery ≤ 1) :
    Unfailed row.id h ↔ ¬(h.any (isUnbooked row.id) = true ∧ isLastAttempt s row) :=
  Machine.of_emits emits_deliverOnce run acked single

end

/-! ## Concrete deliveries -/

/-- Three attempts, and a receiver that needs no signature. -/
def sampleSetting : Setting := ⟨3, fun _ => "\x7b\x7d", fun _ _ => "", fun _ _ => none⟩

/-- The row of the outbox on its third attempt. -/
def sampleRow : OutboxRow := ⟨"row", "client", "payin.confirmed", .obj [], 2, 2⟩

/-- The third attempt has been claimed, and the receiver answers with a 200. -/
def sampleWorld : World where
  clients := ⟨[.sample], Clients.ClientRow.nodup_sample⟩
  outbox := ⟨[⟨"row", "client", "payin.confirmed", .obj [], .delivering, 2, 0, none, 0, 0⟩], by simp⟩
  deliveries := []
  now := 0
  nextUuid := "request"
  locked := []
  receiver := .ok ⟨200, none⟩
  claims := ["row", "row", "row"]
  sent := ["row", "row"]
  answers := [("row", .ok ⟨503, none⟩), ("row", .ok ⟨503, none⟩)]

/-- A delivery on its own, with the fates of its operations. -/
def delivery (fates : List (Async.Fate Exception)) :
    Option (Except Exception Unit × World × Hist Api) :=
  (machine sampleSetting).play (fun _ _ _ => true) (deliverOnce sampleSetting sampleRow) fates
    sampleWorld []

/-- A delivery that is evaluated is a run. -/
lemma runs_of_delivery (fates : List (Async.Fate Exception)) {r w' h}
    (res : delivery fates = some (r, w', h)) :
    (machine sampleSetting).Runs (fun _ _ _ => True) (deliverOnce sampleSetting sampleRow)
      sampleWorld [] r w' h :=
  Machine.runs_of_play (fun _ _ _ _ => trivial) (fun _ _ => trivial) res

/-- The booking of the last attempt fails, and nothing else. -/
def unbookedFates : List (Async.Fate Exception) :=
  [.done, .done, .done, .done, .refused (.error "Connection terminated"), .done, .done]

/-- The booking of the last attempt fails, and the delivery reports a failure. -/
theorem unfailed_iff_unbooked : ∃ h : Hist Api, h.any (isUnbooked sampleRow.id) = true ∧
    (Unfailed sampleRow.id h ↔
      ¬(h.any (isUnbooked sampleRow.id) = true ∧ isLastAttempt sampleSetting sampleRow)) := by
  have run := runs_of_delivery unbookedFates rfl
  exact ⟨_, rfl, unfailed_iff run rfl (by decide)⟩

/-- The booking of the last attempt fails, and the acknowledged row is marked as failed. -/
theorem acknowledged_reported : ¬∀ (s : Setting) (row : OutboxRow) (w w' : World)
    (r : Except Exception Unit) (h : Hist Api),
    (machine s).Runs (fun _ _ _ => True) (deliverOnce s row) w [] r w' h →
      h.any (isAcknowledgement row.id) = true → h.countP isFailedQuery ≤ 1 → Unfailed row.id h := by
  intro claim
  have run := runs_of_delivery unbookedFates rfl
  have unfailed := claim _ _ _ _ _ _ run rfl (by decide)
  exact absurd unfailed.1 (by decide)

end AvaSettle.Webhooks.Delivered
