import AvaSettle.Data.Json
import AvaSettle.Data.Lists

/-!
# Data sanitizer

What is masked in structured logs: the values under wiped keys are replaced, strings under protected keys
are masked in part. The result does not depend on what is stored under wiped keys, except where an array or
an object is stored under a protected key: that is passed on as it is.

The entries of an object are in the order of `Object.entries`, and have distinct keys. Of the result the
entries of its own count: it goes to `JSON.stringify`, which does not see its prototype.
-/

namespace AvaSettle.Observability
open Data (JsString JsonValue codeUnits)

/-- The functions on strings that the sanitizer calls, and `process.env`. -/
structure Strings where
  toLowerCase : JsString → JsString
  trim : JsString → JsString
  /-- It throws on what is not well encoded. -/
  decodeURIComponent : JsString → Option JsString
  env : String → Option JsString

/-- The numbers of JSON values, with `Number.isInteger` and `toFixed`. -/
structure Numbers (N : Type) where
  isInteger : N → Bool
  toFixed : N → Nat → JsString

/-! ## Keys -/

/-- `DEFAULT_WIPED_KEYS`. -/
def defaultWipedKeys : List String :=
  ["password", "accesstoken", "clave", "pass", "certificatepassword", "certificate", "secret",
    "newpassword", "connection-string", "access_token", "apikey", "authorization", "file",
    "databinario", "base64", "contract", "client_secret"]

/-- `DEFAULT_PROTECTED_KEYS`. -/
def defaultProtectedKeys : List String :=
  ["td", "nrotarjeta", "track1", "track2", "cvc", "cvv2", "numero", "card_number", "security_code",
    "number", "numerotarjeta"]

section
variable (S : Strings)

/-- `extraKeys`. -/
def extraKeys (envVar : String) : List JsString :=
  ((((S.env envVar).getD []).splitOn ','.toNat).map fun k => S.toLowerCase (S.trim k)).filter (· ≠ [])

/-- `wipedKeys`. -/
def wipedKeys : List JsString :=
  defaultWipedKeys.map codeUnits ++
    (extraKeys S "LOGGING_WIPED_KEYS" ++ extraKeys S "MIDD_LOG_SENSITIVE_JSON_KEYS")

/-- `protectedKeys`. -/
def protectedKeys : List JsString :=
  defaultProtectedKeys.map codeUnits ++ extraKeys S "LOGGING_PROTECTED_KEYS"

/-- `wiped.has(key.toLowerCase())`. -/
def isWiped (key : JsString) : Bool := (wipedKeys S).contains (S.toLowerCase key)

/-- `protected_.has(key.toLowerCase())`. -/
def isProtected (key : JsString) : Bool := (protectedKeys S).contains (S.toLowerCase key)

end

/-! ## Masking -/

/-- A separator of a magnetic stripe. -/
def isSeparator (u : Nat) : Bool := u = '='.toNat || u = '^'.toNat || u = 'D'.toNat

/-- `protect`: the first six and the last four units of the main block stay. A separator in front does not
    count. -/
def protect (value : JsString) : JsString :=
  if value.length ≤ 6 then value
  else
    let sepIdx := (value.findIdx? isSeparator).getD 0
    let mainBlock := if 0 < sepIdx then value.take sepIdx else value
    let suffix := if 0 < sepIdx then value.drop sepIdx else []
    if mainBlock.length ≤ 10 then value
    else mainBlock.take 6 ++ List.replicate (mainBlock.length - 10) '_'.toNat ++
      mainBlock.drop (mainBlock.length - 4) ++ suffix

variable {N : Type}

/-- The key of the setter of the prototype. -/
def protoKey : JsString := codeUnits "__proto__"

/-- `result[key] = value` for a new key: an entry, except that `__proto__` sets the prototype. -/
def assigned (key : JsString) (value : JsonValue N) : List (JsString × JsonValue N) :=
  if key = protoKey then [] else [(key, value)]

/-- What is assigned under a protected key. -/
def protectValue : JsonValue N → JsonValue N
  | .string s => .string (protect s)
  | value => value

section
variable (S : Strings) (F : Numbers N)

mutual

/-- `sanitizeJson`. -/
def sanitizeJson : JsonValue N → JsonValue N
  | .null => .null
  | .bool b => .bool b
  | .number n => if F.isInteger n then .number n else .string (F.toFixed n 2)
  | .string s => .string s
  | .array items => .array (sanitizeItems items)
  | .object fields => .object (sanitizeFields fields)

/-- The items of an array. -/
def sanitizeItems : List (JsonValue N) → List (JsonValue N)
  | [] => []
  | item :: items => sanitizeJson item :: sanitizeItems items

/-- The entries of an object. -/
def sanitizeFields : List (JsString × JsonValue N) → List (JsString × JsonValue N)
  | [] => []
  | (key, value) :: fields =>
    assigned key
      (if isWiped S key then .string (codeUnits "[WIPED]")
        else if isProtected S key then protectValue value
        else sanitizeJson value) ++ sanitizeFields fields

end

/-- The match in a piece without `&`: a key, which is not empty, and what follows the `=`. -/
def sanitizePiece (piece : JsString) : Option JsString :=
  let lead := piece.takeWhile (· = '='.toNat)
  let rest := piece.dropWhile (· = '='.toNat)
  let key := rest.takeWhile (· ≠ '='.toNat)
  let value := rest.drop (key.length + 1)
  if key.length = rest.length then some piece
  else if isWiped S key then some (lead ++ key ++ codeUnits "=[WIPED]")
  else if isProtected S key then
    (S.decodeURIComponent value).map fun value => lead ++ key ++ '='.toNat :: protect value
  else some piece

/-- `sanitizeQueryString`, unless it throws. -/
def sanitizeQueryString (input : JsString) : Option JsString :=
  ((input.splitOn '&'.toNat).mapM (sanitizePiece S)).map ['&'.toNat].intercalate

mutual

/-- The value without what is stored under wiped keys. -/
def erase : JsonValue N → JsonValue N
  | .null => .null
  | .bool b => .bool b
  | .number n => .number n
  | .string s => .string s
  | .array items => .array (eraseItems items)
  | .object fields => .object (eraseFields fields)

/-- The items without what is stored under wiped keys. -/
def eraseItems : List (JsonValue N) → List (JsonValue N)
  | [] => []
  | item :: items => erase item :: eraseItems items

/-- The entries, without values under wiped keys. -/
def eraseFields : List (JsString × JsonValue N) → List (JsString × JsonValue N)
  | [] => []
  | (key, value) :: fields => (key, if isWiped S key then .null else erase value) :: eraseFields fields

end

/-- What is passed on under a protected key. -/
def exposedValue : JsonValue N → List (JsonValue N)
  | .string _ => []
  | value => [value]

mutual

/-- The values that are stored under protected keys and are not strings, outside of what is wiped or
    stored under another protected key. -/
def exposed : JsonValue N → List (JsonValue N)
  | .array items => exposedItems items
  | .object fields => exposedFields fields
  | _ => []

/-- Those of the items. -/
def exposedItems : List (JsonValue N) → List (JsonValue N)
  | [] => []
  | item :: items => exposed item ++ exposedItems items

/-- Those of the entries. -/
def exposedFields : List (JsString × JsonValue N) → List (JsonValue N)
  | [] => []
  | (key, value) :: fields =>
    (if key = protoKey || isWiped S key then []
      else if isProtected S key then exposedValue value
      else exposed value) ++ exposedFields fields

end

/-! ## What the result depends on -/

variable {S F}

/-- Strings are equal when they are equal up to wiped keys. -/
lemma eq_of_erase_string {s : JsString} {v' : JsonValue N} (eq : erase S (.string s) = erase S v') :
    v' = .string s := by
  cases v' <;> cases eq
  rfl

/-- The value under a protected key is determined by what is exposed of it. -/
lemma protectValue_eq_iff {v v' : JsonValue N} (eq : erase S v = erase S v') :
    protectValue v = protectValue v' ↔ exposedValue v = exposedValue v' := by
  cases v with
  | string s =>
    cases eq_of_erase_string eq
    exact iff_of_true rfl rfl
  | _ => cases v' <;> first | cases eq; done | simp [protectValue, exposedValue]

/-- Values that are equal once secrets are erased expose as many values. -/
lemma length_exposedValue {v v' : JsonValue N} (eq : erase S v = erase S v') :
    (exposedValue v).length = (exposedValue v').length := by
  cases v <;> cases v' <;> first | rfl | cases eq

/-- Fields that are equal once secrets are erased have the keys in common. -/
lemma eraseFields_cons {key key' : JsString} {v v' : JsonValue N} {fields fields' : List (JsString × JsonValue N)}
    (eq : eraseFields S ((key, v) :: fields) = eraseFields S ((key', v') :: fields')) :
    key = key' ∧ (isWiped S key = false → erase S v = erase S v') ∧
      eraseFields S fields = eraseFields S fields' := by
  obtain ⟨entry, rest⟩ := List.cons.inj eq
  obtain ⟨rfl, values⟩ := Prod.mk.inj entry
  refine ⟨rfl, fun kept => ?_, rest⟩
  simpa [kept] using values

mutual

/-- As much is exposed of values that are equal up to wiped keys. -/
lemma length_exposed : ∀ v v' : JsonValue N, erase S v = erase S v' →
    (exposed S v).length = (exposed S v').length
  | .array items, v', eq => by
    cases v' with
    | array items' => exact length_exposedItems items items' (JsonValue.array.inj eq)
    | _ => cases eq
  | .object fields, v', eq => by
    cases v' with
    | object fields' => exact length_exposedFields fields fields' (JsonValue.object.inj eq)
    | _ => cases eq
  | .null, v', eq => by cases v' <;> first | rfl | cases eq
  | .bool b, v', eq => by cases v' <;> first | rfl | cases eq
  | .number n, v', eq => by cases v' <;> first | rfl | cases eq
  | .string s, v', eq => by cases v' <;> first | rfl | cases eq

/-- Items that are equal once secrets are erased expose as many values. -/
lemma length_exposedItems : ∀ l l' : List (JsonValue N), eraseItems S l = eraseItems S l' →
    (exposedItems S l).length = (exposedItems S l').length
  | [], [], _ => rfl
  | [], _ :: _, eq => nomatch eq
  | _ :: _, [], eq => nomatch eq
  | v :: l, v' :: l', eq => by
    obtain ⟨first, rest⟩ := List.cons.inj eq
    rw [exposedItems, exposedItems, List.length_append, List.length_append, length_exposed v v' first,
      length_exposedItems l l' rest]

/-- Fields that are equal once secrets are erased expose as many values. -/
lemma length_exposedFields : ∀ l l' : List (JsString × JsonValue N), eraseFields S l = eraseFields S l' →
    (exposedFields S l).length = (exposedFields S l').length
  | [], [], _ => rfl
  | [], _ :: _, eq => nomatch eq
  | _ :: _, [], eq => nomatch eq
  | (key, v) :: l, (key', v') :: l', eq => by
    obtain ⟨rfl, values, rest⟩ := eraseFields_cons eq
    rw [exposedFields, exposedFields, List.length_append, List.length_append, length_exposedFields l l' rest]
    congr 1
    cases hidden : decide (key = protoKey) || isWiped S key with
    | true => rfl
    | false =>
      have kept := (Bool.or_eq_false_iff.1 hidden).2
      cases protected' : isProtected S key with
      | true => exact length_exposedValue (values kept)
      | false => exact length_exposed v v' (values kept)

end

mutual

/-- The results are equal just when what is passed on under protected keys is. -/
lemma sanitizeJson_iff : ∀ v v' : JsonValue N, erase S v = erase S v' →
    (sanitizeJson S F v = sanitizeJson S F v' ↔ exposed S v = exposed S v')
  | .array items, v', eq => by
    cases v' with
    | array items' =>
      rw [sanitizeJson, sanitizeJson, JsonValue.array.injEq]
      exact sanitizeItems_iff items items' (JsonValue.array.inj eq)
    | _ => cases eq
  | .object fields, v', eq => by
    cases v' with
    | object fields' =>
      rw [sanitizeJson, sanitizeJson, JsonValue.object.injEq]
      exact sanitizeFields_iff fields fields' (JsonValue.object.inj eq)
    | _ => cases eq
  | .null, v', eq => by cases v' <;> first | exact iff_of_true rfl rfl | cases eq
  | .bool b, v', eq => by
    cases v' <;> cases eq
    exact iff_of_true rfl rfl
  | .number n, v', eq => by
    cases v' <;> cases eq
    exact iff_of_true rfl rfl
  | .string s, v', eq => by
    cases v' <;> cases eq
    exact iff_of_true rfl rfl

/-- Items that are equal once secrets are erased are logged alike just when they expose the same values.
    -/
lemma sanitizeItems_iff : ∀ l l' : List (JsonValue N), eraseItems S l = eraseItems S l' →
    (sanitizeItems S F l = sanitizeItems S F l' ↔ exposedItems S l = exposedItems S l')
  | [], [], _ => iff_of_true rfl rfl
  | [], _ :: _, eq => nomatch eq
  | _ :: _, [], eq => nomatch eq
  | v :: l, v' :: l', eq => by
    obtain ⟨first, rest⟩ := List.cons.inj eq
    rw [sanitizeItems, sanitizeItems, List.cons.injEq, exposedItems, exposedItems,
      Data.append_iff (length_exposed v v' first), sanitizeJson_iff v v' first, sanitizeItems_iff l l' rest]

/-- Fields that are equal once secrets are erased are logged alike just when they expose the same values.
    -/
lemma sanitizeFields_iff : ∀ l l' : List (JsString × JsonValue N), eraseFields S l = eraseFields S l' →
    (sanitizeFields S F l = sanitizeFields S F l' ↔ exposedFields S l = exposedFields S l')
  | [], [], _ => iff_of_true rfl rfl
  | [], _ :: _, eq => nomatch eq
  | _ :: _, [], eq => nomatch eq
  | (key, v) :: l, (key', v') :: l', eq => by
    obtain ⟨rfl, values, rest⟩ := eraseFields_cons eq
    have later := sanitizeFields_iff l l' rest
    rw [sanitizeFields, sanitizeFields, exposedFields, exposedFields]
    by_cases proto : key = protoKey
    · simpa [assigned, proto] using later
    · simp only [assigned, proto, if_false, decide_false, Bool.false_or, List.cons_append, List.nil_append,
        List.cons.injEq, Prod.mk.injEq, true_and, later]
      cases wiped : isWiped S key with
      | true => exact and_iff_right rfl
      | false =>
        have erased := values wiped
        cases protected' : isProtected S key with
        | true =>
          simp only [Bool.false_eq_true, if_false, if_true]
          rw [Data.append_iff (length_exposedValue erased), protectValue_eq_iff erased]
        | false =>
          simp only [Bool.false_eq_true, if_false]
          rw [Data.append_iff (length_exposed v v' erased), sanitizeJson_iff v v' erased]

end

/-- The sanitized values of two that are equal up to wiped keys are equal just when so are the values that
    are no strings and are stored under protected keys. -/
theorem sanitizeJson_eq_iff (S : Strings) (F : Numbers N) (v v' : JsonValue N) (eq : erase S v = erase S v') :
    sanitizeJson S F v = sanitizeJson S F v' ↔ exposed S v = exposed S v' :=
  sanitizeJson_iff v v' eq

/-- ASCII letters in lower case, and an empty environment. -/
def asciiStrings : Strings where
  toLowerCase s := s.map fun u => if 65 ≤ u && u ≤ 90 then u + 32 else u
  trim s := s
  decodeURIComponent s := some s
  env _ := none

/-- Whole numbers. -/
def wholeNumbers : Numbers Nat where
  isInteger _ := true
  toFixed _ _ := []

/-- An object with one entry. -/
def single (key : String) (value : JsonValue Nat) : JsonValue Nat := .object [(codeUnits key, value)]

/-- Two passwords, in objects of an array. -/
theorem passwords_wiped :
    erase asciiStrings (.array [single "Password" (.string [97])]) =
        erase asciiStrings (.array [single "Password" (.string [98])]) ∧
      sanitizeJson asciiStrings wholeNumbers (.array [single "Password" (.string [97])]) =
        sanitizeJson asciiStrings wholeNumbers (.array [single "Password" (.string [98])]) := by
  have eq : erase asciiStrings (.array [single "Password" (.string [97])]) =
      erase asciiStrings (.array [single "Password" (.string [98])]) := by rfl
  exact ⟨eq, (sanitizeJson_eq_iff asciiStrings wholeNumbers _ _ eq).2 rfl⟩

/-- A password in an object that is stored under a protected key. -/
theorem password_under_protected_key :
    erase asciiStrings (single "number" (single "password" (.string [97]))) =
        erase asciiStrings (single "number" (single "password" (.string [98]))) ∧
      sanitizeJson asciiStrings wholeNumbers (single "number" (single "password" (.string [97]))) ≠
        sanitizeJson asciiStrings wholeNumbers (single "number" (single "password" (.string [98]))) := by
  refine ⟨by rfl, fun eq => ?_⟩
  cases eq

end

end AvaSettle.Observability
