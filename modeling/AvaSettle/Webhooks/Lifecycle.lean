import AvaSettle.Async.Observed
import AvaSettle.Async.Origin
import AvaSettle.Webhooks.Outbox

/-!
# The lifecycle of an outbox row

Dispatchers, on any number of instances, work on one outbox; no query fails, and no row is recovered
while its delivery may still go on. Then every row counts its requests, has one request at a time, stops
at the limit, and says in the end what its last answer was. The delivery log has one entry for a row
that has been delivered or has failed, and none for any other.
-/

namespace AvaSettle.Webhooks.Lifecycle
open Async
open Data (Table)
open Clients (ClientRecord)

/-! ## Runs in time -/

/-- No query fails, and a recovery finds no row that has been in delivery for longer than the time-out. -/
def InTime (_ : Hist Api) (w : World) (e : Event Api) : Prop :=
  (e.op.isQuery = true → e.outcome.threw = false) ∧
    (e.op = .recoverStuck → ∀ r ∈ w.outbox.rows, r.isStuck w.now = false)

/-- The receiver has answered a POST with a redirect. -/
def redirects : Event Api → Bool
  | ⟨.receive _ .post, .done (.ok response)⟩ => (redirection response).isSome
  | _ => false

/-- In time, and no receiver answers a POST with a redirect. -/
structure Direct (h : Hist Api) (w : World) (e : Event Api) : Prop where
  inTime : InTime h w e
  direct : redirects e = false

/-- The number of attempts that a row is allowed. -/
abbrev limitOf (s : Setting) : Nat := max 1 s.webhookRetryAttempts

/-- The row is settled as delivered or failed. -/
def settles (id : Uuid) : Event Api → Bool
  | ⟨.setStatus row .delivered _ _, o⟩ => decide (row = id) && o.performed.isSome
  | ⟨.setStatus row .failed _ _, o⟩ => decide (row = id) && o.performed.isSome
  | _ => false

/-- The row is skipped. -/
def skips (id : Uuid) : Event Api → Bool
  | ⟨.setStatus row .skipped _ _, o⟩ => decide (row = id) && o.performed.isSome
  | _ => false

/-- The call has claimed the row and has just found its client missing, inactive or without a URL. -/
def Unreachable (id : Uuid) (h : Hist Api) : Prop :=
  ∃ row client, Claimed row h ∧ row.id = id ∧ endpointOf client = none ∧
    h.getLast? = some ⟨.findClient row.clientId, .done client⟩

/-- A row is skipped only where its client has no endpoint. -/
def Good (h : Hist Api) : Prop :=
  ∀ before e after id, h = before ++ e :: after → skips id e = true → Unreachable id before

section
variable {s : Setting} {own : Tokens} {row : OutboxRow} {rows : List OutboxRow} {h : Hist Api}
  {e : Event Api} {a : Tokens} {w w' : World} {id : Uuid} {unlogged : Option Uuid}

/-- A call that has done nothing is good. -/
lemma good_nil : Good [] := by
  intro before e after id eq
  cases before <;> cases eq

/-- A history stays good in which a skip has found no endpoint. -/
lemma Good.snoc (good : Good h) (skip : ∀ id, skips id e = true → Unreachable id h) :
    Good (h ++ [e]) := by
  intro before e' after id eq skipped
  rcases List.eq_nil_or_concat after with rfl | ⟨after', last, rfl⟩
  · obtain ⟨rfl, same⟩ := List.append_inj' eq rfl
    cases same
    exact skip id skipped
  · rw [List.concat_eq_append, ← List.cons_append, ← List.append_assoc] at eq
    obtain ⟨rfl, -⟩ := List.append_inj' eq rfl
    exact good before e' after' id rfl skipped

/-! ## The logic -/

/-- What the dispatchers maintain. -/
def spec (s : Setting) : Spec (machine s Direct) Tokens where
  inv := Inv (limitOf s)
  le := Later
  good := Good
  good_nil := good_nil
  le_refl _ := Later.refl
  le_trans := Later.trans
  env {w w' _} inv move := by
    have same : ∀ k, Untouched w w' k := fun k =>
      ⟨by rw [move.outbox], by simp only [track, move.sent, move.answers, move.deliveries]⟩
    exact ⟨inv.of_untouched same, .of_untouched same⟩

/-- What a dispatcher knows: its tokens, the rows that it has claimed, and that what it has settled is in
    the log, except for one row. -/
structure At (own : Tokens) (unlogged : Option Uuid) (rows : List OutboxRow) (a : Tokens) (w : World)
    (h : Hist Api) : Prop where
  share : a = own
  good : Good h
  known : ∀ row ∈ rows, Claimed row h
  booked : ∀ id, h.any (settles id) = true → some id ≠ unlogged → Booked w id

/-- What a dispatcher knows stays true. -/
lemma At.later (later : Later w w') (at_ : At own unlogged rows a w h) :
    At own unlogged rows a w' h :=
  ⟨at_.share, at_.good, at_.known, fun id settled other => (at_.booked id settled other).later later⟩

/-- An event that is neither a settlement nor a skip. -/
def Calm (e : Event Api) : Prop := ∀ id, settles id e = false ∧ skips id e = false

/-- It stays true after an event that neither settles nor skips. -/
lemma At.calm {g : Tokens} (calm : Calm e) (at_ : At own unlogged rows a w h) :
    At g unlogged rows g w (h ++ [e]) where
  share := rfl
  good := at_.good.snoc fun id skipped => by
    rw [(calm id).2] at skipped
    cases skipped
  known row mem := (at_.known row mem).append
  booked id settled other := by
    rw [List.any_append, List.any_cons, (calm id).1] at settled
    exact at_.booked id (by simpa using settled) other

/-- An operation that is let happen is performed and answered. -/
lemma done_of_allowed {c : Call} {o : Outcome Exception c.Res}
    (reply : (machine s Direct).Reply c w o w') (ok : Direct h w ⟨c, o⟩) :
    ∃ b, o = .done b ∧ World.exec c w = some (b, w') := by
  have quiet (raises : Call.raises c = fun _ => false) : o.threw = false := by
    cases o with
    | done b => rfl
    | refused e =>
      have threw : Call.raises c e = true := reply.1
      rw [raises] at threw
      cases threw
    | lost b e =>
      have threw : Call.raises c e = true := reply.2
      rw [raises] at threw
      cases threw
  have answered : o.threw = false := by
    by_cases query : c.isQuery = true
    · exact ok.inTime.1 query
    · exact quiet (funext fun e => by simp [Call.raises, query])
  cases o with
  | done b => exact ⟨b, rfl, reply⟩
  | refused e => cases answered
  | lost b e => cases answered

/-- The rule of an operation: how it moves the world and the tokens. -/
lemma op_move {c : Call} {g : c.Res → Tokens} {R : c.Res → World → Prop}
    (good : ∀ b, Good (h ++ [⟨c, .done b⟩]))
    (move : ∀ w₁ f b w₂, Inv (limitOf s) w₁ (a + f) → Direct h w₁ ⟨c, .done b⟩ →
      World.exec c w₁ = some (b, w₂) →
      Inv (limitOf s) w₂ (g b + f) ∧ Later w₁ w₂ ∧ R b w₂) :
    (spec s).op c (fun o a' w' h' => ∃ b, o = .done b ∧ a' = g b ∧ Later w w' ∧ R b w' ∧
      h' = h ++ [⟨c, .done b⟩]) a w h := by
  intro w₁ f o w₂ le inv reply ok
  obtain ⟨b, rfl, run⟩ := done_of_allowed (h := h) reply ok
  obtain ⟨inv', later, post⟩ := move w₁ f b w₂ inv ok run
  exact ⟨good b, g b, inv', later, b, rfl, rfl, le.trans later, post, rfl⟩

/-- The rule of an operation that is neither a settlement nor a skip. -/
lemma op_calm {c : Call} {g : c.Res → Tokens} (calm : ∀ b, Calm ⟨c, .done b⟩)
    (at_ : At own unlogged rows a w h)
    (move : ∀ w₁ f b w₂, Inv (limitOf s) w₁ (own + f) → Direct h w₁ ⟨c, .done b⟩ →
      World.exec c w₁ = some (b, w₂) → Inv (limitOf s) w₂ (g b + f) ∧ Later w₁ w₂) :
    (spec s).op c (fun o a' w' h' => ∃ b, o = .done b ∧ At (g b) unlogged rows a' w' h' ∧
      h' = h ++ [⟨c, .done b⟩]) a w h := by
  obtain rfl := at_.share
  refine Spec.op_mono ?_ (op_move (R := fun _ _ => True)
    (fun b => (at_.calm (g := a) (calm b)).good) fun w₁ f b w₂ inv ok run =>
      ⟨(move w₁ f b w₂ inv ok run).1, (move w₁ f b w₂ inv ok run).2, trivial⟩)
  rintro o a' w' h' ⟨b, rfl, rfl, later, -, rfl⟩
  exact ⟨b, rfl, (at_.calm (calm b)).later later, rfl⟩

/-- An operation that reads. -/
lemma op_read {c : Call} (calm : ∀ b, Calm ⟨c, .done b⟩)
    (same : ∀ w b w', World.exec c w = some (b, w') → w' = w) (at_ : At own unlogged rows a w h) :
    (spec s).op c (fun o a' w' h' => ∃ b, o = .done b ∧ At own unlogged rows a' w' h' ∧
      h' = h ++ [⟨c, .done b⟩]) a w h :=
  op_calm (g := fun _ => own) calm at_ fun w₁ f b w₂ inv _ run => by
    obtain rfl := same w₁ b w₂ run
    exact ⟨inv, .refl⟩

/-- What is awaited is answered. -/
lemma wp_request {c : Call} {K : c.Res → Tokens → World → Hist Api → Prop}
    (hop : (spec s).op c (fun o a w h => ∃ b, o = .done b ∧ K b a w h) a w h) :
    (spec s).wp (request c) (fun r a w h => ∃ b, r = .ok b ∧ K b a w h) a w h := by
  refine Spec.wp_await (Spec.op_mono ?_ hop)
  rintro o a w h ⟨b, rfl, post⟩
  exact ⟨b, rfl, post⟩

/-- The rule of sequencing for programs that do not throw. -/
lemma wp_then {α β : Type} {p : Method α} {f : α → Method β}
    {K : α → Tokens → World → Hist Api → Prop} {Q : Post Api World Tokens β}
    (hp : (spec s).wp p (fun r a w h => ∃ b, r = .ok b ∧ K b a w h) a w h)
    (next : ∀ b a w h, K b a w h → (spec s).wp (f b) Q a w h) : (spec s).wp (p >>= f) Q a w h := by
  refine Spec.wp_bind_of hp ?_ ?_
  · rintro b a w h ⟨b', eq, post⟩
    cases eq
    exact next b a w h post
  · rintro e a w h ⟨b', eq, -⟩
    cases eq

end

/-! ## The programs -/

/-- A program of a dispatcher that comes to its end, and what it knows then. -/
def Done {α : Type} (own : Tokens) (rows : List OutboxRow) : Post Api World Tokens α :=
  fun r a w h => ∃ b, r = .ok b ∧ At own none rows a w h

section
variable {s : Setting} {own : Tokens} {row : OutboxRow} {rows : List OutboxRow} {h : Hist Api}
  {a : Tokens} {w : World} {id : Uuid} {n : Nat} {client : ClientRecord} {url : String}

/-- The outcome of a program as a value. -/
lemma wp_settled {α : Type} {p : Method α} {K : α → Tokens → World → Hist Api → Prop}
    (hp : (spec s).wp p (fun r a w h => ∃ b, r = .ok b ∧ K b a w h) a w h) :
    (spec s).wp p.settle (fun r a w h => ∃ b, r = .ok (.ok b) ∧ K b a w h) a w h := by
  refine Spec.wp_tryCatch (wp_then hp fun b a w h post => ?_)
  exact ⟨b, rfl, post⟩

/-- The answer to a POST, which is no redirect. -/
lemma op_receive (at_ : At ({⟨id, n, .sent⟩} + own) none rows a w h) :
    (spec s).op (.receive id .post) (fun o a' w' h' => ∃ answer, o = .done answer ∧
      redirects ⟨.receive id .post, .done answer⟩ = false ∧
        At ({⟨id, n, .answered answer⟩} + own) none rows a' w' h') a w h := by
  obtain rfl := at_.share
  have calm (answer : Answer) : Calm ⟨.receive id .post, .done answer⟩ := fun _ => ⟨rfl, rfl⟩
  refine Spec.op_mono ?_ (op_move (g := fun answer => {⟨id, n, .answered answer⟩} + own)
    (R := fun answer _ => redirects ⟨.receive id .post, .done answer⟩ = false)
    (fun answer => (at_.calm (g := own) (calm answer)).good) ?_)
  · rintro o a' w' h' ⟨answer, rfl, rfl, later, direct, rfl⟩
    exact ⟨answer, rfl, direct, (at_.calm (calm answer)).later later⟩
  · intro w f answer w' inv ok run
    obtain ⟨rfl, rfl⟩ := Prod.mk.inj (Option.some.inj run)
    rw [add_assoc] at inv ⊢
    exact ⟨inv.receive.1, inv.receive.2, ok.direct⟩

/-- A POST is answered, and the answer is no redirect. -/
lemma wp_exchange {req : HttpRequest} (post : req.method = .post)
    (at_ : At ({⟨id, n, .claimed⟩} + own) none rows a w h) :
    (spec s).wp (exchange id req) (fun answer a w h =>
      (∀ response, answer = .ok response → redirection response = none) ∧
        At ({⟨id, n, .answered answer⟩} + own) none rows a w h) a w h := by
  refine wp_then (wp_request (op_calm (g := fun _ => {⟨id, n, .sent⟩} + own)
    (fun _ _ => ⟨rfl, rfl⟩) at_ ?_)) ?_
  · intro w f b w' inv _ run
    obtain rfl := (Prod.mk.inj (Option.some.inj run)).2
    rw [add_assoc] at inv ⊢
    rw [post]
    exact inv.send
  intro _ a w h ⟨at_, _⟩
  rw [post]
  refine wp_then (wp_request (op_receive at_)) fun answer a w h ⟨direct, at_⟩ => ?_
  refine Spec.wp_ofExcept.2 ⟨fun response eq => ?_, at_⟩
  subst eq
  simpa [redirects] using direct

/-- The first response is the last one. -/
lemma wp_follow {redirects : Nat} {req : HttpRequest} (post : req.method = .post)
    (at_ : At ({⟨id, n, .claimed⟩} + own) none rows a w h) :
    (spec s).wp (follow s id redirects req) (fun r a w h => ∃ answer : Answer,
      r = answer.map Response.status ∧ At ({⟨id, n, .answered answer⟩} + own) none rows a w h)
      a w h := by
  cases redirects with
  | zero =>
    refine Spec.wp_bind_of (wp_exchange post at_) (fun response a w h answered => ?_)
      fun e a w h answered => ⟨.error e, rfl, answered.2⟩
    rw [answered.1 response rfl]
    exact ⟨.ok response, rfl, answered.2⟩
  | succ m =>
    refine Spec.wp_bind_of (wp_exchange post at_) (fun response a w h answered => ?_)
      fun e a w h answered => ⟨.error e, rfl, answered.2⟩
    rw [answered.1 response rfl]
    exact ⟨.ok response, rfl, answered.2⟩

/-- The one request is answered. -/
lemma wp_fetch {headers : List (String × String)} {body : String}
    (at_ : At ({⟨id, n, .claimed⟩} + own) none rows a w h) :
    (spec s).wp (fetch s id url headers body) (fun r a w h => ∃ answer : Answer,
      r = answer.map Response.status ∧ At ({⟨id, n, .answered answer⟩} + own) none rows a w h)
      a w h := by
  refine wp_then (wp_request (op_read (fun _ _ => ⟨rfl, rfl⟩) ?_ at_)) ?_
  · intro w b w' run
    exact (Prod.mk.inj (Option.some.inj run)).2.symm
  intro requestID a w h ⟨at_, _⟩
  exact wp_follow rfl at_

/-- The outcome of a row is booked. -/
lemma wp_setStatus {status : OutboxStatus} {answer : Answer} {lastError : Option String}
    (outcome : status = .delivered ∧ isAccepted answer = true ∨
      status = .failed ∧ Exhausts (limitOf s) n answer)
    (at_ : At ({⟨id, n, .answered answer⟩} + own) none rows a w h) :
    (spec s).wp (setStatus id status (n + 1) lastError) (fun r a w h => ∃ b, r = .ok b ∧
      At ({⟨id, n, .settled⟩} + own) (some id) rows a w h) a w h := by
  have unskipped : ∀ k o, skips k ⟨.setStatus id status (n + 1) lastError, o⟩ = false := by
    rcases outcome with ⟨rfl, -⟩ | ⟨rfl, -⟩ <;> exact fun _ _ => rfl
  have elsewhere : ∀ k o, k ≠ id →
      settles k ⟨.setStatus id status (n + 1) lastError, o⟩ = false := by
    intro k o ne
    rcases outcome with ⟨rfl, -⟩ | ⟨rfl, -⟩ <;> simp [settles, Ne.symm ne]
  obtain rfl := at_.share
  refine wp_request (Spec.op_mono ?_ (op_move (g := fun _ => {⟨id, n, .settled⟩} + own)
    (R := fun _ _ => True) (fun b => at_.good.snoc fun k skipped => ?_) ?_))
  · rintro o a' w' h' ⟨b, rfl, share, later, -, rfl⟩
    refine ⟨b, rfl, share, at_.good.snoc fun k skipped => ?_, fun row mem => (at_.known row mem).append,
      fun k settled other => ?_⟩
    · rw [unskipped] at skipped
      cases skipped
    · have ne : k ≠ id := fun eq => other (congrArg some eq)
      rw [List.any_append, List.any_cons, elsewhere k _ ne] at settled
      exact (at_.booked k (by simpa using settled) nofun).later later
  · rw [unskipped] at skipped
    cases skipped
  · intro w f b w' inv _ run
    obtain rfl := (Prod.mk.inj (Option.some.inj run)).2
    rw [add_assoc] at inv ⊢
    exact ⟨(inv.settle outcome).1, (inv.settle outcome).2, trivial⟩

/-- The outcome of a row is entered in the log. -/
lemma wp_recordDelivery {delivery : Delivery}
    (at_ : At ({⟨id, n, .settled⟩} + own) (some id) rows a w h) :
    (spec s).wp (recordDelivery id delivery) (Done own rows) a w h := by
  obtain rfl := at_.share
  have calm : ∀ b, Calm ⟨.insertDelivery id delivery, .done b⟩ := fun _ _ => ⟨rfl, rfl⟩
  refine Spec.op_mono ?_ (op_move (g := fun _ => own) (R := fun _ w => Booked w id)
    (fun b => (at_.calm (g := own) (calm b)).good) ?_)
  · rintro o a' w' h' ⟨b, rfl, share, later, booked, rfl⟩
    have at' := at_.calm (g := own) (calm b)
    refine ⟨_, rfl, share, at'.good, at'.known, fun k settled _ => ?_⟩
    by_cases eq : k = id
    · exact eq ▸ booked
    · exact (at'.booked k settled fun same => eq (Option.some.inj same)).later later
  · intro w f b w' inv _ run
    obtain rfl := (Prod.mk.inj (Option.some.inj run)).2
    rw [add_assoc] at inv
    exact inv.log

/-- The row is skipped. -/
lemma wp_skip {lastError : Option String} (unreachable : Unreachable id h)
    (at_ : At ({⟨id, n, .claimed⟩} + own) none rows a w h) :
    (spec s).wp (setStatus id .skipped n lastError) (Done own rows) a w h := by
  obtain rfl := at_.share
  have good : ∀ b, Good (h ++ [⟨.setStatus id .skipped n lastError, .done b⟩]) := fun b =>
    at_.good.snoc fun k skipped => by
      simp only [skips, Bool.and_eq_true, decide_eq_true_eq] at skipped
      exact skipped.1 ▸ unreachable
  refine wp_request (Spec.op_mono ?_ (op_move (g := fun _ => own) (R := fun _ _ => True) good ?_))
  · rintro o a' w' h' ⟨b, rfl, share, later, -, rfl⟩
    refine ⟨b, rfl, share, good b, fun row mem => (at_.known row mem).append, fun k settled other => ?_⟩
    rw [List.any_append, List.any_cons] at settled
    exact (at_.booked k (by simpa [settles] using settled) other).later later
  · intro w f b w' inv _ run
    obtain rfl := (Prod.mk.inj (Option.some.inj run)).2
    rw [add_assoc] at inv
    exact ⟨inv.skip.1, inv.skip.2, trivial⟩

/-- The row waits for its next attempt. -/
lemma wp_reschedule {answer : Answer} {lastError : String} (again : isRetryable answer = true)
    (room : row.attempts + 1 < limitOf s)
    (at_ : At ({⟨row.id, row.attempts, .answered answer⟩} + own) none rows a w h) :
    (spec s).wp (reschedule row (row.attempts + 1) lastError) (Done own rows) a w h := by
  refine Spec.wp_mono ?_ (wp_request (op_calm (g := fun _ => own) (fun _ _ => ⟨rfl, rfl⟩) at_ ?_))
  · rintro r a w h ⟨b, rfl, at_, -⟩
    exact ⟨b, rfl, at_⟩
  · intro w f b w' inv _ run
    obtain rfl := (Prod.mk.inj (Option.some.inj run)).2
    rw [add_assoc] at inv
    exact inv.reschedule again room

/-- What an attempt leaves: a row that is done, or one whose answer is not an acceptance. -/
def Attempted (own : Tokens) (row : OutboxRow) (rows : List OutboxRow) :
    Post Api World Tokens (Option (String × Bool))
  | .ok none, a, w, h => At own none rows a w h
  | .ok (some (_, retryable)), a, w, h => ∃ answer, isAccepted answer = false ∧
      retryable = isRetryable answer ∧
      At ({⟨row.id, row.attempts, .answered answer⟩} + own) none rows a w h
  | .error _, _, _, _ => False

/-- An attempt is booked, or its answer is not an acceptance. -/
lemma wp_tryDelivery (at_ : At ({⟨row.id, row.attempts, .claimed⟩} + own) none rows a w h) :
    (spec s).wp (tryDelivery s row client url) (Attempted own row rows) a w h := by
  refine Spec.wp_tryCatch (Spec.wp_bind_of (wp_fetch at_) ?_ ?_)
  · rintro status a w h ⟨answer, eq, at_⟩
    cases answer with
    | error e => cases eq
    | ok response =>
    cases eq
    split
    case isTrue accepted =>
      have accepted' : isAccepted (.ok response) = true := accepted
      refine wp_then (wp_setStatus (.inl ⟨rfl, accepted'⟩) at_) fun _ a w h at_ => ?_
      refine wp_then (wp_request (op_read (fun _ _ => ⟨rfl, rfl⟩) ?_ at_)) ?_
      · intro w b w' run
        exact (Prod.mk.inj (Option.some.inj run)).2.symm
      intro deliveredAt a w h ⟨at_, _⟩
      refine wp_then (wp_recordDelivery at_) fun _ a w h at_ => ?_
      exact at_
    case isFalse declined =>
      exact ⟨.ok response, by simpa [isAccepted] using declined, rfl, at_⟩
  · rintro error a w h ⟨answer, eq, at_⟩
    cases answer with
    | error e => exact ⟨.error e, rfl, rfl, at_⟩
    | ok response => cases eq

/-- A row whose answer is not an acceptance is given up or put back. -/
lemma wp_giveUpOrRetry {answer : Answer} {lastError : String} (declined : isAccepted answer = false)
    (at_ : At ({⟨row.id, row.attempts, .answered answer⟩} + own) none rows a w h) :
    (spec s).wp (giveUpOrRetry s row client url lastError (isRetryable answer)) (Done own rows)
      a w h := by
  unfold giveUpOrRetry
  dsimp only
  split
  case isTrue last =>
    have exhausts : Exhausts (limitOf s) row.attempts answer := ⟨declined, by simpa using last⟩
    exact wp_then (wp_setStatus (.inr ⟨rfl, exhausts⟩) at_) fun _ a w h at_ => wp_recordDelivery at_
  case isFalse another =>
    simp only [Bool.or_eq_true, not_or, Bool.not_eq_true, Bool.not_eq_false', decide_eq_false_iff_not,
      not_le] at another
    exact wp_reschedule another.1 another.2 at_

/-- A delivery to an endpoint is done with its row. -/
lemma wp_deliverTo (at_ : At ({⟨row.id, row.attempts, .claimed⟩} + own) none rows a w h) :
    (spec s).wp (deliverTo s row client url) (Done own rows) a w h := by
  refine Spec.wp_bind_of (wp_tryDelivery at_) ?_ fun _ _ _ _ impossible => impossible.elim
  intro outcome a w h post
  cases outcome with
  | none => exact ⟨(), rfl, post⟩
  | some failure =>
    obtain ⟨answer, declined, again, at_⟩ := post
    simp only [again]
    exact wp_giveUpOrRetry declined at_

/-- A delivery is done with its row. -/
lemma wp_deliverOnce (mem : row ∈ rows)
    (at_ : At ({⟨row.id, row.attempts, .claimed⟩} + own) none rows a w h) :
    (spec s).wp (deliverOnce s row) (Done own rows) a w h := by
  refine Spec.wp_bind_of (wp_settled (wp_request (op_read (fun _ _ => ⟨rfl, rfl⟩) ?_ at_))) ?_ ?_
  · intro w b w' run
    exact (Prod.mk.inj (Option.some.inj run)).2.symm
  · rintro found a w h ⟨client, eq, at_, ended⟩
    cases eq
    cases endpoint : endpointOf client with
    | none =>
      simp only [endpoint]
      refine wp_skip ⟨row, client, at_.known row mem, rfl, endpoint, ?_⟩ at_
      rw [ended]
      exact List.getLast?_concat
    | some target =>
      simp only [endpoint]
      exact wp_deliverTo at_
  · rintro e a w h ⟨client, eq, -⟩
    cases eq

/-- Every row of a claim is worked off. -/
lemma wp_deliverAll {claimed : List OutboxRow} (known : ∀ row ∈ claimed, row ∈ rows)
    (at_ : At (tokensOf claimed + own) none rows a w h) :
    (spec s).wp (Prog.forEach (deliverOnce s) claimed) (Done own rows) a w h := by
  induction claimed generalizing a w h with
  | nil => exact ⟨(), rfl, by simpa [tokensOf] using at_⟩
  | cons row claimed ih =>
    have split : tokensOf (row :: claimed) + own =
        {⟨row.id, row.attempts, .claimed⟩} + (tokensOf claimed + own) := by
      rw [← add_assoc, Multiset.singleton_add]
      rfl
    rw [split] at at_
    exact wp_then (wp_deliverOnce (known row List.mem_cons_self) at_) fun _ a w h at_ =>
      ih (fun row mem => known row (List.mem_cons_of_mem _ mem)) at_

/-- A dispatcher is done with all rows that it has claimed. -/
lemma wp_dispatchDueEvents {batchSize : Nat} (at_ : At 0 none [] a w h) :
    (spec s).wp (dispatchDueEvents s batchSize) (fun r a w h => ∃ n rows, r = .ok n ∧
      At 0 none rows a w h) a w h := by
  refine wp_then (wp_request (op_calm (g := fun _ => 0) (fun _ _ => ⟨rfl, rfl⟩) at_ ?_)) ?_
  · intro w f b w' inv ok run
    obtain rfl := (Prod.mk.inj (Option.some.inj run)).2
    have same : ∀ k, Untouched w _ k := fun k => untouched_recover (ok.inTime.2 rfl)
    exact ⟨inv.of_untouched same, .of_untouched same⟩
  intro _ a w h ⟨at_, _⟩
  refine wp_then (wp_request (op_calm (g := fun claimed => tokensOf claimed + 0)
    (fun _ _ => ⟨rfl, rfl⟩) at_ ?_)) ?_
  · intro w f b w' inv _ run
    obtain ⟨rfl, rfl⟩ := Prod.mk.inj (Option.some.inj run)
    rw [zero_add] at inv
    rw [add_zero]
    exact ⟨inv.claim, later_claimDue⟩
  intro claimed a w h ⟨at_, ended⟩
  have at' : At (tokensOf claimed + 0) none claimed a w h :=
    ⟨at_.share, at_.good, fun row mem => ⟨batchSize, claimed, by simp [ended], mem⟩, at_.booked⟩
  refine wp_then (wp_deliverAll (fun _ mem => mem) at') fun _ a w h at_ => ?_
  exact ⟨claimed.length, claimed, rfl, at_⟩

/-- A webhook that is enqueued changes nothing of the others. -/
lemma wp_enqueue {clientId : Option String} {event : String} {payload : List (String × Json)}
    (at_ : At 0 none [] a w h) :
    (spec s).wp (enqueue clientId event payload) (Done 0 []) a w h := by
  unfold enqueue
  split
  case h_1 => exact ⟨(), rfl, at_⟩
  case h_2 clientId _ =>
    refine wp_then (wp_request (op_read (fun _ _ => ⟨rfl, rfl⟩) ?_ at_)) ?_
    · intro w b w' run
      exact (Prod.mk.inj (Option.some.inj run)).2.symm
    intro timestamp a w h ⟨at_, _⟩
    refine Spec.op_mono ?_ (op_calm (g := fun _ => 0) (fun _ _ => ⟨rfl, rfl⟩) at_ ?_)
    · rintro o a w h ⟨b, rfl, at_, -⟩
      exact ⟨b, rfl, at_⟩
    · intro w f b w' inv _ run
      exact inv.insert (lt_of_lt_of_le Nat.zero_lt_one (le_max_left _ _)) run

/-- A call that has not begun. -/
lemma at_nil : At 0 none [] 0 w [] :=
  ⟨rfl, good_nil, fun _ mem => absurd mem List.not_mem_nil, fun _ settled => by cases settled⟩

/-- Every call of the dispatchers and of the services keeps the outbox. -/
theorem spec_sound : (spec s).Sound := by
  intro p entry w
  cases entry with
  | enqueue => exact Spec.wp_mono (fun _ _ _ _ _ => trivial) (wp_enqueue at_nil)
  | dispatch =>
    refine Spec.wp_bind_of (wp_dispatchDueEvents at_nil) (fun _ _ _ _ _ => trivial)
      fun _ _ _ _ _ => trivial

end

/-! ## The record of a row in a run -/

/-- What the record of a row says in any state, where `limit` attempts are allowed. -/
structure Exact (limit : Nat) (w : World) (r : OutboxRecord) : Prop where
  /-- There are no more requests than the limit. -/
  limited : (track w r.id).sent ≤ limit
  /-- There are never two requests at once. -/
  alone : (track w r.id).answers.length ≤ (track w r.id).sent ∧
    (track w r.id).sent ≤ (track w r.id).answers.length + 1
  /-- Every answer that another request has followed asked for it. -/
  retried : ∀ a ∈ (track w r.id).answers.dropLast, isRetryable a = true
  /-- A row that is not in delivery counts its requests, and all have been answered. -/
  counted : r.status ≠ .delivering →
    r.attempts = (track w r.id).sent ∧ (track w r.id).answers.length = (track w r.id).sent
  delivered : r.status ≠ .delivering →
    (r.status = .delivered ↔ ∃ a ∈ (track w r.id).answers.getLast?, isAccepted a = true)
  failed : r.status ≠ .delivering →
    (r.status = .failed ↔ ∃ a ∈ (track w r.id).answers.getLast?,
      isAccepted a = false ∧ (isRetryable a = false ∨ (track w r.id).sent = limit))
  /-- Only a row that has been delivered or has failed is in the log, and only once. -/
  logged : (track w r.id).logged ≤ 1 ∧
    (r.status ≠ .delivered → r.status ≠ .failed → (track w r.id).logged = 0)

section
variable {limit n : Nat} {w w' : World} {a : Tokens} {r : OutboxRecord} {k : Uuid}

/-- The record of a row that waits. -/
lemma Waits.exact (waits : Waits limit r (track w r.id)) (status : r.status = .pending ∨
    r.status = .skipped) : Exact limit w r where
  limited := by
    rw [waits.sent]
    exact waits.tried.room.le
  alone := by
    rw [waits.sent, waits.tried.length]
    exact ⟨le_rfl, Nat.le_succ _⟩
  retried b mem := waits.tried.retryable b (List.dropLast_subset _ mem)
  counted _ := ⟨waits.sent.symm, waits.tried.length.trans waits.sent.symm⟩
  delivered _ := by
    refine ⟨fun delivered => ?_, fun ⟨b, last, accepted⟩ => ?_⟩
    · rcases status with status | status <;> cases status.symm.trans delivered
    · have again := waits.tried.retryable b (List.mem_of_mem_getLast? last)
      cases (not_accepted_of_retryable again).symm.trans accepted
  failed _ := by
    refine ⟨fun failed => ?_, fun ⟨b, last, _, exhausted⟩ => ?_⟩
    · rcases status with status | status <;> cases status.symm.trans failed
    · have again := waits.tried.retryable b (List.mem_of_mem_getLast? last)
      have room := waits.tried.room
      rw [waits.sent] at exhausted
      rcases exhausted with fatal | full
      · cases again.symm.trans fatal
      · omega
  logged := by
    rw [waits.unlogged]
    exact ⟨Nat.zero_le _, fun _ _ => rfl⟩

/-- A row whose last answer is `b`. -/
lemma Ends.exact {b : Answer} (ends : Ends limit n b r (track w r.id))
    (outcome : r.status = .delivered ∧ isAccepted b = true ∨
      r.status = .failed ∧ Exhausts limit n b) : Exact limit w r := by
  obtain ⟨earlier, answers, tried⟩ := ends.answers
  have last : (track w r.id).answers.getLast? = some b := by
    rw [answers]
    exact List.getLast?_concat
  have length : (track w r.id).answers.length = n + 1 := by
    rw [answers, List.length_append, tried.length]
    rfl
  have room := tried.room
  have full : limit ≤ n + 1 ↔ (track w r.id).sent = limit := by
    rw [ends.sent]
    omega
  refine ⟨by rw [ends.sent]; exact room, by rw [ends.sent, length]; omega, ?_, fun _ => ?_, fun _ => ?_,
    fun _ => ?_, ends.logged, fun undelivered unfailed => ?_⟩
  · rw [answers, List.dropLast_concat]
    exact tried.retryable
  · exact ⟨ends.attempts.trans ends.sent.symm, length.trans ends.sent.symm⟩
  · rw [last]
    rcases outcome with ⟨status, accepted⟩ | ⟨status, declined, -⟩
    · simp [status, accepted]
    · simp [status, declined]
  · rw [last]
    rcases outcome with ⟨status, accepted⟩ | ⟨status, declined, exhausted⟩
    · simp [status, accepted]
    · simpa [status, declined, ← full] using exhausted
  · rcases outcome with ⟨status, -⟩ | ⟨status, -⟩
    · exact absurd status undelivered
    · exact absurd status unfailed

/-- A row in delivery. -/
lemma exact_of_holds {p : Phase} (holds : p.Holds limit n r (track w r.id))
    (delivering : r.status = .delivering) : Exact limit w r := by
  have base (limited : (track w r.id).sent ≤ limit)
      (alone : (track w r.id).answers.length ≤ (track w r.id).sent ∧
        (track w r.id).sent ≤ (track w r.id).answers.length + 1)
      (retried : ∀ a ∈ (track w r.id).answers.dropLast, isRetryable a = true)
      (unlogged : (track w r.id).logged = 0) : Exact limit w r :=
    ⟨limited, alone, retried, fun other => absurd delivering other,
      fun other => absurd delivering other, fun other => absurd delivering other,
      by rw [unlogged]; exact Nat.zero_le _, fun _ _ => unlogged⟩
  cases p with
  | claimed =>
    obtain ⟨-, -, sent, tried, unlogged⟩ := holds
    have length := tried.length
    have room := tried.room
    exact base (by omega) (by omega) (fun b mem => tried.retryable b (List.dropLast_subset _ mem))
      unlogged
  | sent =>
    obtain ⟨-, -, sent, tried, unlogged⟩ := holds
    have length := tried.length
    have room := tried.room
    exact base (by omega) (by omega) (fun b mem => tried.retryable b (List.dropLast_subset _ mem))
      unlogged
  | answered b =>
    obtain ⟨-, -, sent, ⟨earlier, answers, tried⟩, unlogged⟩ := holds
    have length : (track w r.id).answers.length = n + 1 := by
      rw [answers, List.length_append, tried.length]
      rfl
    have room := tried.room
    refine base (by omega) (by omega) ?_ unlogged
    rw [answers, List.dropLast_concat]
    exact tried.retryable
  | settled =>
    obtain ⟨settled, -⟩ := holds
    rcases settled with settled | settled <;> cases settled.symm.trans delivering

/-- The record of every row is exact. -/
lemma Inv.exact (inv : Inv limit w a) (mem : r ∈ w.outbox.rows) : Exact limit w r := by
  have found := Table.find?_of_mem mem
  have rests := inv.rests r.id r found
  cases status : r.status with
  | pending =>
    simp only [Rests, status] at rests
    exact rests.exact (.inl status)
  | skipped =>
    simp only [Rests, status] at rests
    exact rests.exact (.inr status)
  | delivered =>
    simp only [Rests, status] at rests
    obtain ⟨n, b, ends, accepted⟩ := rests
    exact ends.exact (.inl ⟨status, accepted⟩)
  | failed =>
    simp only [Rests, status] at rests
    obtain ⟨n, b, ends, exhausts⟩ := rests
    exact ends.exact (.inr ⟨status, exhausts⟩)
  | delivering =>
    obtain ⟨t, held, key⟩ := inv.owned r.id r found status
    obtain ⟨r', found', holds⟩ := inv.held t held
    rw [key] at found' holds
    cases found.symm.trans found'
    exact exact_of_holds holds status

end

/-- The row has the status. -/
def HasStatus (id : Uuid) (status : OutboxStatus) (w : World) : Prop :=
  ∃ r, w.outbox.find? id = some r ∧ r.status = status

/-- A world in which nothing has been enqueued. -/
structure Unused (w : World) : Prop where
  outbox : w.outbox.rows = []
  sent : w.sent = []
  answers : w.answers = []
  deliveries : w.deliveries = []

/-- An outbox that has not been used. -/
lemma Unused.inv {limit : Nat} {w : World} (unused : Unused w) : Inv limit w 0 where
  nodup := Multiset.nodup_zero
  held _ mem := absurd mem (Multiset.notMem_zero _)
  owned k r found := by
    have mem := Table.mem_of_find? found
    rw [unused.outbox] at mem
    cases mem
  rests k r found := by
    have mem := Table.mem_of_find? found
    rw [unused.outbox] at mem
    cases mem
  unseen k _ := by simp [track, unused.sent, unused.answers, unused.deliveries]

/-- Two attempts, and a receiver that needs no signature. -/
def sampleSetting : Setting := ⟨2, fun _ => "", fun _ _ => "", fun _ location => some location⟩

/-- A client with an endpoint, and a receiver that is not ready yet. -/
def sampleWorld : World where
  clients := ⟨[.sample], Clients.ClientRow.nodup_sample⟩
  outbox := .empty
  deliveries := []
  now := 0
  nextUuid := "row"
  locked := []
  receiver := .ok ⟨503, none⟩
  claims := []
  sent := []
  answers := []

/-- A minute passes, and the receiver is ready. -/
def recover (w : World) : World :=
  { w with
    now := w.now + 60000
    receiver := .ok ⟨200, none⟩ }

/-- The operation is let happen in time. -/
def inTime (_ : Hist Api) (w : World) (e : Event Api) : Bool :=
  (!e.op.isQuery || !e.outcome.threw) && w.outbox.rows.all fun r => !r.isStuck w.now

/-- The receiver moves its endpoint for good, and the new endpoint accepts what is posted to it. -/
def moved : World → World := fun w => { w with receiver := .ok ⟨308, some "https://new.example"⟩ }

end AvaSettle.Webhooks.Lifecycle
