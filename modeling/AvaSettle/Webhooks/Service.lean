import AvaSettle.Async.Settled
import AvaSettle.Webhooks.World

/-!
# WebhookService

Enqueueing an event and draining the outbox. The acknowledged delivery is booked inside the `try` of
the request, as in the source, so that its handler also sees the errors of the booking.
-/

namespace AvaSettle.Webhooks
open Async (Prog Hist Event Machine)
open Clients (ClientRecord ClientStatus)

/-- What the dispatcher reads and does not await: the configuration and the library functions. -/
structure Setting where
  /-- `configuration.webhookRetryAttempts`. -/
  webhookRetryAttempts : Nat
  /-- `JSON.stringify`. -/
  stringify : Json → String
  /-- `createHmac('sha256', secret).update(body).digest('hex')`. -/
  hmacSha256 : String → String → String
  /-- Where a redirect leads from a URL: `new URL(location, url)`, where `fetch` goes on to it. -/
  locationUrl : String → String → Option String

/-- `RETRY_DELAYS_MS`. -/
def retryDelaysMs : List Nat := [1000, 5000, 30000]

/-- `isRetryableStatus`. -/
def isRetryableStatus (status : Nat) : Bool := status == 429 || decide (500 ≤ status)

/-- `response.ok`. -/
def isOk (status : Nat) : Bool := decide (200 ≤ status ∧ status ≤ 299)

/-- `WebhookService.enqueue`. -/
def enqueue (clientId : Option String) (event : String) (payload : List (String × Json)) :
    Method Unit :=
  match truthy clientId with
  | none => return ()
  | some clientId => do
    let timestamp ← request .clock
    Prog.awaitOr (S := Api) (.insertOutbox clientId event
      (("event", .str event) :: ("timestamp", .num timestamp) :: payload)) id ()

/-! ## fetch

The runtime's `fetch` follows redirects, twenty at most; the service sets no other `redirect` mode. -/

/-- The statuses of a redirect. -/
def redirectStatuses : List Nat := [301, 302, 303, 307, 308]

/-- The redirects that are followed. -/
def maxRedirects : Nat := 20

/-- The headers that a request loses together with its body. -/
def requestBodyHeaders : List String :=
  ["content-encoding", "content-language", "content-location", "content-type"]

/-- The `Location` of a redirect. -/
def redirection (response : Response) : Option String :=
  if response.status ∈ redirectStatuses then response.location else none

/-- The request that a redirect asks for: some make a POST a GET, the others repeat it. -/
def HttpRequest.redirected (req : HttpRequest) (status : Nat) (url : String) : HttpRequest :=
  if (status = 301 ∨ status = 302) ∧ req.method = .post ∨ status = 303 ∧ req.method ≠ .get then
    { method := .get
      url
      headers := req.headers.filter fun h => decide (h.1 ∉ requestBodyHeaders)
      body := none }
  else { req with url }

/-- The error of `fetch`, for a redirect that leads nowhere or is one too many. -/
def fetchFailed : Exception := .error "fetch failed"

/-- A request and its answer. -/
def exchange (row : Uuid) (req : HttpRequest) : Method Response := do
  request (.send row req)
  let response ← request (.receive row req.method)
  Prog.ofExcept response

/-- A request, and at most so many more that redirects ask for. -/
def follow (s : Setting) (row : Uuid) : Nat → HttpRequest → Method Nat
  | 0, req => do
    let response ← exchange row req
    match redirection response with
    | none => return response.status
    | some _ => throw fetchFailed
  | redirects + 1, req => do
    let response ← exchange row req
    match redirection response with
    | none => return response.status
    | some location =>
      match s.locationUrl req.url location with
      | none => throw fetchFailed
      | some url => follow s row redirects (req.redirected response.status url)

/-- `OutboundHttpLogger.fetch`, for the delivery of an outbox row. -/
def fetch (s : Setting) (row : Uuid) (url : String) (headers : List (String × String))
    (body : String) : Method Nat := do
  let requestID ← request .randomUUID
  follow s row maxRedirects {
    method := .post
    url
    headers := headers ++ [("x-request-id", requestID)]
    body := some body }

/-! ## The service -/

/-- `reschedule`. -/
def reschedule (row : OutboxRow) (attempts : Nat) (lastError : String) : Method Unit :=
  let delayMs := retryDelaysMs.getD (min (attempts - 1) (retryDelaysMs.length - 1)) 0
  request (.reschedule row.id attempts lastError delayMs)

/-- `setStatus`. -/
def setStatus (id : Uuid) (status : OutboxStatus) (attempts : Nat) (lastError : Option String) :
    Method Unit :=
  request (.setStatus id status attempts lastError)

/-- `recordDelivery`: a failure is logged and swallowed. -/
def recordDelivery (row : Uuid) (delivery : Delivery) : Method Unit :=
  Prog.awaitOr (S := Api) (.insertDelivery row delivery) id ()

/-- The headers of a delivery. -/
def headersOf (s : Setting) (client : ClientRecord) (body : String) : List (String × String) :=
  [("content-type", "application/json"), ("user-agent", "AvaSettle-Webhook/1.0")] ++
    match truthy client.webhookSecret with
    | none => []
    | some secret => [("x-avasettle-signature", s!"sha256={s.hmacSha256 secret body}")]

/-- The endpoint of a client that is there and active. -/
def endpointOf (client : Option ClientRecord) : Option (ClientRecord × String) :=
  match client with
  | none => none
  | some client =>
    if client.status ≠ .active then none
    else (truthy client.webhookUrl).map fun url => (client, url)

/-- The `try` of a delivery: nothing where it has returned, and otherwise the error and whether to try
    again. -/
def tryDelivery (s : Setting) (row : OutboxRow) (client : ClientRecord) (url : String) :
    Method (Option (String × Bool)) :=
  let body := s.stringify row.payload
  let attempts := row.attempts + 1
  Prog.tryCatch (do
      let status ← fetch s row.id url (headersOf s client body) body
      if isOk status then
        setStatus row.id .delivered attempts none
        let deliveredAt ← request .clock
        recordDelivery row.id {
          clientId := client.id
          event := row.event
          url
          payload := row.payload
          success := true
          attempts
          lastError := none
          deliveredAt := some deliveredAt }
        return none
      else return some (s!"HTTP {status}", isRetryableStatus status))
    fun error => return some (error.messageOr "Network error", true)

/-- What follows an attempt that did not succeed. -/
def giveUpOrRetry (s : Setting) (row : OutboxRow) (client : ClientRecord) (url lastError : String)
    (retryable : Bool) : Method Unit :=
  let attempts := row.attempts + 1
  let maxAttempts := max 1 s.webhookRetryAttempts
  if !retryable || decide (maxAttempts ≤ attempts) then do
    setStatus row.id .failed attempts (some lastError)
    recordDelivery row.id {
      clientId := client.id
      event := row.event
      url
      payload := row.payload
      success := false
      attempts
      lastError := some lastError
      deliveredAt := none }
  else reschedule row attempts lastError

/-- The delivery to an endpoint. -/
def deliverTo (s : Setting) (row : OutboxRow) (client : ClientRecord) (url : String) :
    Method Unit := do
  match ← tryDelivery s row client url with
  | none => return ()
  | some (lastError, retryable) => giveUpOrRetry s row client url lastError retryable

/-- `deliverOnce`. -/
def deliverOnce (s : Setting) (row : OutboxRow) : Method Unit := do
  match ← Prog.settle (request (.findClient row.clientId)) with
  | .error error =>
    reschedule row (row.attempts + 1) (error.messageOr "Failed to load client")
  | .ok client =>
    match endpointOf client with
    | none =>
      setStatus row.id .skipped row.attempts (some "Client has no active webhook endpoint.")
    | some (client, url) => deliverTo s row client url

/-- `dispatchDueEvents`. -/
def dispatchDueEvents (s : Setting) (batchSize : Nat := 10) : Method Nat := do
  request .recoverStuck
  let claimed ← request (.claimDue batchSize)
  Prog.forEach (deliverOnce s) claimed
  return claimed.length

/-- The calls that the services and the dispatchers make. -/
inductive Entry (s : Setting) : Method Unit → Prop where
  | enqueue {clientId event payload} : Entry s (enqueue clientId event payload)
  | dispatch {batchSize} : Entry s (Prog.discard (dispatchDueEvents s batchSize))

/-- The dispatchers over their world, with the operations in `cond`. -/
def machine (s : Setting) (cond : Hist Api → World → Event Api → Prop := fun _ _ _ => True) :
    Machine Api World where
  exec := World.exec
  raises := Call.raises
  env := World.Env
  entry := Entry s
  allowed := cond

/-- The call has claimed the row. -/
def Claimed (row : OutboxRow) (h : Hist Api) : Prop :=
  ∃ n rows, (⟨.claimDue n, .done rows⟩ : Event Api) ∈ h ∧ row ∈ rows

/-- What has been claimed stays so. -/
lemma Claimed.append {row : OutboxRow} {h es : Hist Api} (claimed : Claimed row h) :
    Claimed row (h ++ es) := by
  obtain ⟨n, rows, mem, row⟩ := claimed
  exact ⟨n, rows, List.mem_append_left _ mem, row⟩

end AvaSettle.Webhooks
