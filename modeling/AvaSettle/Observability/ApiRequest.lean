import AvaSettle.Observability.DataSanitizer
import Mathlib.Data.List.DropRight
import Mathlib.Data.List.Forall2

/-!
# ApiRequestMiddleware

Every request is logged with an entry. Bodies are sanitized, but the headers and the query are written as they
are, with the credentials in them. So the entries of two requests that differ in credentials only are equal
just when the queries are and the text of the headers from the first to the last credential is.
-/

namespace AvaSettle.Observability
open Data (JsString JsonValue codeUnits stringify quote decimal)

/-! ## The middleware -/

/-- The value of a header. -/
inductive HeaderField : Type where
  | undefined
  | one (s : JsString)
  | many (l : List JsString)

/-- What the middleware reads of a request. -/
structure HttpRequest (N : Type) where
  method : JsString
  path : JsString
  ip : Option JsString
  /-- `req.socket?.remoteAddress`. -/
  socketAddress : Option JsString
  /-- `Object.entries(req.headers)`. -/
  headers : List (JsString × HeaderField)
  /-- The entries of `req.query`, in which there are no numbers. -/
  query : List (JsString × JsonValue Empty)
  /-- `req.body`, unless it is undefined. -/
  body : Option (JsonValue N)

/-- The user that a guard sets. -/
structure User where
  id : Option JsString
  sub : Option JsString

/-- How a request is answered: the trace, the two dates, what the guard sets, and the response, with the
    arguments of `res.json` in order. -/
structure Answer (N : Type) where
  traceId : JsString
  spanId : JsString
  requestIDInternal : JsString
  requestID : JsString
  inDate : JsString
  outDate : JsString
  statusCode : Nat
  user : Option User
  json : List (Option (JsonValue N))

/-- The method of the logger. -/
inductive Level : Type where
  | error
  | warn
  | log
  deriving DecidableEq

/-- The texts of numbers. -/
abbrev NumberTexts (N : Type) := N → JsString

/-- `replace(/^::ffff:/, '')`. -/
def stripMapped (s : JsString) : JsString :=
  if (codeUnits "::ffff:").isPrefixOf s then s.drop 7 else s

/-- The value of a header in the text: `Array.isArray(v) ? v.join(',') : String(v ?? '')`. -/
def HeaderField.text : HeaderField → JsString
  | .undefined => []
  | .one s => s
  | .many l => [','.toNat].intercalate l

/-- `[k:v]`. -/
def headerText (e : JsString × HeaderField) : JsString :=
  '['.toNat :: e.1 ++ ':'.toNat :: e.2.text ++ [']'.toNat]

section
variable {N : Type} (S : Strings) (F : Numbers N) (text : NumberTexts N)

/-- `Object.keys(value).length` is not zero, for an object or an array. -/
def hasKeys : JsonValue N → Bool
  | .array items => !items.isEmpty
  | .object fields => !fields.isEmpty
  | _ => false

/-- The body of the request in the entry, unless the sanitizer throws. -/
def requestBody : Option (JsonValue N) → Option (Option JsString)
  | none => some none
  | some (.string s) => if s.isEmpty then some none else (sanitizeQueryString S s).map some
  | some body => if hasKeys body then some (some (stringify text (sanitizeJson S F body))) else some none

/-- The body of the response in the entry: the last that `res.json` is called with. -/
def responseBody (json : List (Option (JsonValue N))) : Option JsString :=
  json.foldl (fun captured body => match body with
    | none => captured
    | some .null => captured
    | some body => some (stringify text (sanitizeJson S F body))) none

/-- `user?.id ?? user?.sub ?? undefined`. -/
def User.name (user : Option User) : Option JsString := user.bind fun u => u.id <|> u.sub

/-- An entry that is only there with a value. -/
def optional (key : String) (value : Option JsString) : List (JsString × JsonValue Nat) :=
  value.toList.map fun s => (codeUnits key, .string s)

/-- An entry with a text. -/
def field (key : String) (s : JsString) : JsString × JsonValue Nat := (codeUnits key, .string s)

/-- `queryParameters`. -/
def queryParameters (query : List (JsString × JsonValue Empty)) : Option JsString :=
  if query.isEmpty then none else some (stringify Empty.elim (.object query))

/-- `headers`. -/
def headersText (headers : List (JsString × HeaderField)) : JsString := headers.flatMap headerText

/-- `remoteAddress`. -/
def remoteAddress (req : HttpRequest N) : JsString :=
  stripMapped ((req.ip <|> req.socketAddress).getD [])

/-- The entry of a request with the given body. -/
def entry (req : HttpRequest N) (ans : Answer N) (body : Option JsString) : JsonValue Nat :=
  .object ([field "traceId" ans.traceId, field "spanId" ans.spanId,
      field "requestIDInternal" ans.requestIDInternal, field "requestID" ans.requestID,
      field "method" req.method, field "path" req.path, (codeUnits "status", .number ans.statusCode),
      field "inDate" ans.inDate, field "outDate" ans.outDate] ++
    optional "user" (User.name ans.user) ++ [field "headers" (headersText req.headers)] ++
    optional "queryParameters" (queryParameters req.query) ++ optional "request" body ++
    optional "response" (responseBody S F text ans.json) ++ [field "remoteAddress" (remoteAddress req)])

/-- `level`. -/
def level (statusCode : Nat) : Level :=
  if 500 ≤ statusCode then .error else if 400 ≤ statusCode then .warn else .log

/-- `use`: what is logged of a request. If the sanitizer throws, the handler is not registered. -/
def use (req : HttpRequest N) (ans : Answer N) : Option (Level × JsString) :=
  (requestBody S F text req.body).map fun body =>
    (level ans.statusCode, stringify decimal (entry S F text req ans body))

end

/-! ## Requests with other credentials -/

/-- The headers that an API key is read from. -/
def credentialHeaders : List JsString := [codeUnits "x-avasettle-api-key", codeUnits "authorization"]

/-- The header may hold an API key. -/
def isCredential (e : JsString × HeaderField) : Bool := credentialHeaders.contains e.1

/-- The entries are the same, except for the values under some keys. -/
def SameBut {α : Type} (secret : JsString → Bool) (l l' : List (JsString × α)) : Prop :=
  List.Forall₂ (fun e e' => e.1 = e'.1 ∧ (secret e.1 = false → e.2 = e'.2)) l l'

/-- The requests are equal except for credentials. -/
structure CredentialsOnly {N : Type} (S : Strings) (req req' : HttpRequest N) : Prop where
  headers : SameBut credentialHeaders.contains req.headers req'.headers
  query : SameBut (isWiped S) req.query req'.query
  rest : req' = { req with headers := req'.headers, query := req'.query }

/-- The text of the headers from the first to the last one with a credential. -/
def secretText (headers : List (JsString × HeaderField)) : JsString :=
  headersText ((headers.dropWhile fun e => !isCredential e).rdropWhile fun e => !isCredential e)

variable {N : Type} {S : Strings} {F : Numbers N} {text : NumberTexts N} {req req' : HttpRequest N}
  {ans : Answer N} {h h' : List (JsString × HeaderField)} {body : Option JsString}

/-- The headers before the first credential are the same. -/
lemma SameBut.dropWhile (same : SameBut credentialHeaders.contains h h') : ∃ before,
    h = before ++ h.dropWhile (fun e => !isCredential e) ∧
    h' = before ++ h'.dropWhile (fun e => !isCredential e) ∧
    SameBut credentialHeaders.contains (h.dropWhile fun e => !isCredential e)
      (h'.dropWhile fun e => !isCredential e) := by
  induction same with
  | nil => exact ⟨[], rfl, rfl, .nil⟩
  | @cons e e' h h' first same ih =>
    obtain ⟨key, value⟩ := e
    obtain ⟨key', value'⟩ := e'
    obtain ⟨rfl, plain⟩ := first
    cases secret : credentialHeaders.contains key with
    | true =>
      have found (v : HeaderField) : isCredential (key, v) = true := secret
      rw [List.dropWhile_cons_of_neg (by simp [found]), List.dropWhile_cons_of_neg (by simp [found])]
      exact ⟨[], rfl, rfl, .cons ⟨rfl, plain⟩ same⟩
    | false =>
      cases plain secret
      obtain ⟨before, eq, eq', later⟩ := ih
      have other : isCredential (key, value) = false := secret
      rw [List.dropWhile_cons_of_pos (by simp [other]), List.dropWhile_cons_of_pos (by simp [other])]
      exact ⟨(key, value) :: before, congrArg _ eq, congrArg _ eq', later⟩

/-- Headers that differ in secrets only do so in reverse. -/
lemma SameBut.reverse {secret : JsString → Bool} (same : SameBut secret h h') :
    SameBut secret h.reverse h'.reverse :=
  List.forall₂_reverse_iff.2 same

/-- The texts of the headers are equal just when they are from the first to the last credential. -/
lemma headersText_eq_iff (same : SameBut credentialHeaders.contains h h') :
    headersText h = headersText h' ↔ secretText h = secretText h' := by
  obtain ⟨before, eq, eq', inner⟩ := same.dropWhile
  obtain ⟨after, tail, tail', -⟩ := inner.reverse.dropWhile
  rw [List.reverse_eq_iff, List.reverse_append] at tail tail'
  have cut : headersText h = headersText before ++ (secretText h ++ headersText after.reverse) := by
    rw [secretText, List.rdropWhile, headersText, headersText, headersText, headersText,
      ← List.flatMap_append, ← List.flatMap_append, ← tail, ← eq]
  have cut' : headersText h' = headersText before ++ (secretText h' ++ headersText after.reverse) := by
    rw [secretText, List.rdropWhile, headersText, headersText, headersText, headersText,
      ← List.flatMap_append, ← List.flatMap_append, ← tail', ← eq']
  rw [cut, cut', List.append_cancel_left_eq, List.append_cancel_right_eq]

/-- Queries are determined by their parameters. -/
lemma queryParameters_injective : Function.Injective queryParameters := by
  intro q q' eq
  unfold queryParameters at eq
  cases q with
  | nil =>
    cases q' with
    | nil => rfl
    | cons _ _ => cases eq
  | cons _ _ =>
    cases q' with
    | nil => cases eq
    | cons _ _ =>
      exact JsonValue.object.inj (Data.stringify_injective Data.numberText_empty (Option.some.inj eq))

/-- An optional field is determined by its text. -/
lemma optional_injective {key : String} {v v' : Option JsString} (eq : optional key v = optional key v') :
    v = v' := by
  cases v <;> cases v' <;> cases eq <;> rfl

/-- The entries are equal just when the headers and the queries are. -/
lemma entry_eq_iff {query : List (JsString × JsonValue Empty)} :
    entry S F text req ans body = entry S F text { req with headers := h, query := query } ans body ↔
      headersText req.headers = headersText h ∧ req.query = query := by
  constructor
  · intro eq
    have fields := JsonValue.object.inj eq
    simp only [List.append_assoc, List.append_cancel_left_eq, remoteAddress, List.cons_append,
      List.nil_append, List.cons.injEq, true_and] at fields
    obtain ⟨headers, rest⟩ := fields
    obtain ⟨parameters, -⟩ := List.append_inj' rest rfl
    exact ⟨JsonValue.string.inj (Prod.mk.inj headers).2, queryParameters_injective (optional_injective parameters)⟩
  · rintro ⟨same, rfl⟩
    simp only [entry, same, remoteAddress]

/-- What is logged of requests that differ in credentials only is equal just when nothing is logged, or the
    queries are equal and so are the texts from the first to the last header with a credential. -/
theorem log_eq_iff (S : Strings) (F : Numbers N) (text : NumberTexts N) (ans : Answer N)
    (only : CredentialsOnly S req req') :
    use S F text req ans = use S F text req' ans ↔
      requestBody S F text req.body = none ∨
        req.query = req'.query ∧ secretText req.headers = secretText req'.headers := by
  rw [← headersText_eq_iff only.headers, use, use]
  have bodies : req'.body = req.body := by rw [only.rest]
  rw [bodies]
  cases requestBody S F text req.body with
  | none => exact iff_of_true rfl (.inl rfl)
  | some body =>
    simp only [Option.map_some, Option.some.injEq, Prod.mk.injEq, true_and, reduceCtorEq, false_or]
    rw [(Data.stringify_injective Data.numberText_decimal).eq_iff, only.rest, entry_eq_iff, and_comm]

/-- A request with one header and no query. -/
def withHeader (key : String) (value : HeaderField) : HttpRequest Nat where
  method := codeUnits "GET"
  path := codeUnits "/v1/payouts"
  ip := none
  socketAddress := none
  headers := [(codeUnits key, value)]
  query := []
  body := none

/-- A response without a body. -/
def answered (statusCode : Nat) : Answer Nat :=
  ⟨[], [], [], [], [], [], statusCode, none, []⟩

/-- The requests differ in a credential only. -/
lemma withHeader_only {value value' : HeaderField} :
    CredentialsOnly asciiStrings (withHeader "authorization" value) (withHeader "authorization" value') :=
  by
  have credential : credentialHeaders.contains (codeUnits "authorization") = true := by decide
  exact ⟨.cons ⟨rfl, fun plain => by cases credential.symm.trans plain⟩ .nil, .nil, rfl⟩

/-- A value and the list of it are logged alike. -/
theorem log_eq_of_text :
    CredentialsOnly asciiStrings (withHeader "authorization" (.one [97]))
        (withHeader "authorization" (.many [[97]])) ∧
      use asciiStrings wholeNumbers decimal (withHeader "authorization" (.one [97])) (answered 200) =
        use asciiStrings wholeNumbers decimal (withHeader "authorization" (.many [[97]])) (answered 200) :=
  ⟨withHeader_only, (log_eq_iff asciiStrings wholeNumbers decimal (answered 200) withHeader_only).2
    (.inr ⟨rfl, by decide⟩)⟩

/-- The value of the header `authorization` is logged. -/
theorem authorization_logged :
    CredentialsOnly asciiStrings (withHeader "authorization" (.one (codeUnits "Bearer a")))
        (withHeader "authorization" (.one (codeUnits "Bearer b"))) ∧
      use asciiStrings wholeNumbers decimal (withHeader "authorization" (.one (codeUnits "Bearer a")))
          (answered 200) ≠
        use asciiStrings wholeNumbers decimal (withHeader "authorization" (.one (codeUnits "Bearer b")))
          (answered 200) := by
  refine ⟨withHeader_only, fun eq => ?_⟩
  have lines := (Prod.mk.inj (Option.some.inj eq)).2
  have headers := (entry_eq_iff.1 ((Data.stringify_injective Data.numberText_decimal) lines)).1
  revert headers
  decide

/-- Where no credential has a bracket in it, the texts of all headers are equal just when those from the first
    to the last credential are. -/
theorem secretText_eq_iff (same : SameBut credentialHeaders.contains h h')
    (noBracket : ∀ e ∈ h, isCredential e = true → ']'.toNat ∉ e.2.text)
    (noBracket' : ∀ e ∈ h', isCredential e = true → ']'.toNat ∉ e.2.text) :
    secretText h = secretText h' ↔ h.map (·.2.text) = h'.map (·.2.text) := by
  rw [← headersText_eq_iff same]
  constructor
  · intro eq
    induction same with
    | nil => rfl
    | @cons e e' h h' first same ih =>
      obtain ⟨key, value⟩ := e
      obtain ⟨key', value'⟩ := e'
      obtain ⟨rfl, plain⟩ := first
      obtain ⟨own, others⟩ := List.forall_mem_cons.1 noBracket
      obtain ⟨own', others'⟩ := List.forall_mem_cons.1 noBracket'
      have line : value.text ++ ']'.toNat :: headersText h = value'.text ++ ']'.toNat :: headersText h' := by
        simpa [headersText, headerText] using eq
      have both : value.text = value'.text ∧ headersText h = headersText h' := by
        cases secret : credentialHeaders.contains key with
        | true => exact Data.eq_of_append_first (own secret) (own' secret) line
        | false =>
          cases plain secret
          exact ⟨rfl, (List.cons.inj (List.append_cancel_left line)).2⟩
      simp only [List.map_cons, both.1, ih others others' both.2]
  · intro eq
    clear noBracket noBracket'
    induction same with
    | nil => rfl
    | @cons e e' h h' first same ih =>
      obtain ⟨value, rest⟩ := List.cons.inj eq
      have shown : headerText e = headerText e' := by
        unfold headerText
        rw [first.1, show e.2.text = e'.2.text from value]
      have later := ih rest
      rw [headersText, headersText] at later ⊢
      rw [List.flatMap_cons, List.flatMap_cons, later, shown]

end AvaSettle.Observability
