import AvaSettle.Data.Utf16
import Mathlib.Tactic.SplitIfs

/-!
# JSON

JSON values and the texts that `JSON.stringify` makes of them. Strings are lists of UTF-16 code units, and an
object is the list of its entries in order. The text of a value determines the value, also when more text
follows, as long as that does not go on with a number.
-/

namespace AvaSettle.Data

/-- A string, by its code units. -/
abbrev JsString := List Nat

/-- A JSON value, over a type of numbers. -/
inductive JsonValue (N : Type) : Type where
  | null
  | bool (b : Bool)
  | number (n : N)
  | string (s : JsString)
  | array (items : List (JsonValue N))
  | object (fields : List (JsString × JsonValue N))

/-! ## Strings -/

/-- A hexadecimal digit, in lower case. -/
def hexDigit (d : Nat) : Nat := if d < 10 then '0'.toNat + d else 'a'.toNat + (d - 10)

/-- The value of a hexadecimal digit. -/
def hexValue (u : Nat) : Nat := if u < 'a'.toNat then u - '0'.toNat else u - 'a'.toNat + 10

/-- The first unit of a pair. -/
def isHighSurrogate (u : Nat) : Bool := 0xD800 ≤ u && u ≤ 0xDBFF

/-- The second unit of a pair. -/
def isLowSurrogate (u : Nat) : Bool := 0xDC00 ≤ u && u ≤ 0xDFFF

/-- The letter that is written for a unit after a backslash. -/
def shortEscape (u : Nat) : Option Nat :=
  if u = 8 then some 'b'.toNat
  else if u = 9 then some 't'.toNat
  else if u = 10 then some 'n'.toNat
  else if u = 12 then some 'f'.toNat
  else if u = 13 then some 'r'.toNat
  else if u = '"'.toNat then some '"'.toNat
  else if u = '\\'.toNat then some '\\'.toNat
  else none

/-- The unit that a letter after a backslash is written for. -/
def unescape (u : Nat) : Nat :=
  if u = 'b'.toNat then 8
  else if u = 't'.toNat then 9
  else if u = 'n'.toNat then 10
  else if u = 'f'.toNat then 12
  else if u = 'r'.toNat then 13
  else u

/-- A unit that is no part of a pair, in a quoted string. -/
def quoteUnit (u : Nat) : JsString :=
  match shortEscape u with
  | some e => ['\\'.toNat, e]
  | none =>
    if u < 0x20 || isHighSurrogate u || isLowSurrogate u then
      ['\\'.toNat, 'u'.toNat, hexDigit (u / 0x1000), hexDigit (u / 0x100 % 0x10), hexDigit (u / 0x10 % 0x10),
        hexDigit (u % 0x10)]
    else [u]

/-- The units of a string, in a quoted string. -/
def quoteUnits : JsString → JsString
  | [] => []
  | [u] => quoteUnit u
  | u :: v :: s =>
    if isHighSurrogate u && isLowSurrogate v then u :: v :: quoteUnits s
    else quoteUnit u ++ quoteUnits (v :: s)

/-- A quoted string. -/
def quote (s : JsString) : JsString := '"'.toNat :: (quoteUnits s ++ ['"'.toNat])

/-- Reads up to the closing quote. -/
def unquote : JsString → Option (JsString × JsString)
  | [] => none
  | u :: s =>
    if u = '"'.toNat then some ([], s)
    else if u = '\\'.toNat then
      match s with
      | [] => none
      | e :: s =>
        if e = 'u'.toNat then
          match s with
          | a :: b :: c :: d :: s =>
            (unquote s).map fun p =>
              ((hexValue a * 0x1000 + hexValue b * 0x100 + hexValue c * 0x10 + hexValue d) :: p.1, p.2)
          | _ => none
        else (unquote s).map fun p => (unescape e :: p.1, p.2)
    else (unquote s).map fun p => (u :: p.1, p.2)

variable {u v e : Nat} {s s' r r' : JsString}

/-- A hexadecimal digit is read back. -/
lemma hexValue_hexDigit {d : Nat} (lt : d < 16) : hexValue (hexDigit d) = d := by
  unfold hexValue hexDigit
  simp only [Char.reduceToNat]
  split_ifs <;> omega

/-- A short escape is read back. -/
lemma unescape_of_shortEscape (short : shortEscape u = some e) : e ≠ 'u'.toNat ∧ unescape e = u := by
  unfold shortEscape at short
  split_ifs at short with b t n f r quote backslash
  all_goals
    cases short
    subst u
    decide

/-- The quotation mark and the backslash are escaped. -/
lemma ne_of_shortEscape (short : shortEscape u = none) : u ≠ '"'.toNat ∧ u ≠ '\\'.toNat := by
  constructor
  · rintro rfl
    revert short
    decide
  · rintro rfl
    revert short
    decide

/-- A plain unit is read as it is. -/
lemma unquote_unit (quote : u ≠ '"'.toNat) (backslash : u ≠ '\\'.toNat) :
    unquote (u :: s) = (unquote s).map fun p => (u :: p.1, p.2) := by
  rw [unquote.eq_def]
  simp only [if_neg quote, if_neg backslash]

/-- A unit is read back from how it is quoted. -/
lemma unquote_quoteUnit : unquote (quoteUnit u ++ s) = (unquote s).map fun p => (u :: p.1, p.2) := by
  unfold quoteUnit
  cases short : shortEscape u with
  | some e =>
    obtain ⟨noHex, eq⟩ := unescape_of_shortEscape short
    simp only [List.cons_append, List.nil_append]
    rw [unquote.eq_def]
    simp only [if_neg noHex, eq]
    rfl
  | none =>
    obtain ⟨quote, backslash⟩ := ne_of_shortEscape short
    split_ifs with escaped
    · have lt : u < 0x10000 := by
        simp only [isHighSurrogate, isLowSurrogate, Bool.or_eq_true, Bool.and_eq_true,
          decide_eq_true_eq] at escaped
        omega
      have digits : hexValue (hexDigit (u / 0x1000)) * 0x1000 + hexValue (hexDigit (u / 0x100 % 0x10)) * 0x100 +
          hexValue (hexDigit (u / 0x10 % 0x10)) * 0x10 + hexValue (hexDigit (u % 0x10)) = u := by
        rw [hexValue_hexDigit (by omega), hexValue_hexDigit (by omega), hexValue_hexDigit (by omega),
          hexValue_hexDigit (by omega)]
        omega
      simp only [List.cons_append, List.nil_append]
      rw [unquote.eq_def]
      simp only [digits]
      rfl
    · exact unquote_unit quote backslash

/-- What is quoted is read back, whatever follows. -/
lemma unquote_quoteUnits : unquote (quoteUnits s ++ '"'.toNat :: r) = some (s, r) := by
  have close : unquote ('"'.toNat :: r) = some ([], r) := by
    rw [unquote.eq_def]
    exact if_pos rfl
  induction s using quoteUnits.induct with
  | case1 => exact close
  | case2 u =>
    rw [quoteUnits, unquote_quoteUnit, close]
    rfl
  | case3 u v s pair ih =>
    have units : u ≠ '"'.toNat ∧ u ≠ '\\'.toNat ∧ v ≠ '"'.toNat ∧ v ≠ '\\'.toNat := by
      simp only [isHighSurrogate, isLowSurrogate, Bool.and_eq_true, decide_eq_true_eq] at pair
      simp only [Char.reduceToNat]
      omega
    obtain ⟨quote, backslash, quote', backslash'⟩ := units
    rw [quoteUnits, if_pos pair, List.cons_append, List.cons_append, unquote_unit quote backslash,
      unquote_unit quote' backslash', ih]
    rfl
  | case4 u v s alone ih =>
    rw [quoteUnits, if_neg alone, List.append_assoc, unquote_quoteUnit, ih]
    rfl

/-- A quoted string ends by itself. -/
lemma quote_append (eq : quote s ++ r = quote s' ++ r') : s = s' ∧ r = r' := by
  rw [quote, quote, List.cons_append, List.cons_append, List.append_assoc, List.append_assoc] at eq
  have rest := (List.cons.inj eq).2
  have read : some (s, r) = some (s', r') := by
    rw [← unquote_quoteUnits, ← unquote_quoteUnits]
    exact congrArg unquote rest
  exact Prod.mk.inj (Option.some.inj read)

/-! ## Values -/

variable {N : Type}

section
variable (text : N → JsString)

mutual

/-- `JSON.stringify`, over the texts of numbers. -/
def stringify : JsonValue N → JsString
  | .null => codeUnits "null"
  | .bool b => codeUnits (if b then "true" else "false")
  | .number n => text n
  | .string s => quote s
  | .array items => '['.toNat :: stringifyItems [] items
  | .object fields => '\x7b'.toNat :: stringifyFields [] fields

/-- The items after a separator, and the bracket. Items are separated by commas. -/
def stringifyItems (sep : JsString) : List (JsonValue N) → JsString
  | [] => [']'.toNat]
  | item :: items => sep ++ stringify item ++ stringifyItems [','.toNat] items

/-- The entries after a separator, and the brace. -/
def stringifyFields (sep : JsString) : List (JsString × JsonValue N) → JsString
  | [] => ['\x7d'.toNat]
  | (key, value) :: fields =>
    sep ++ quote key ++ ':'.toNat :: stringify value ++ stringifyFields [','.toNat] fields

end

end

/-- What may follow the text of a value. -/
def Ends (r : JsString) : Prop := ∀ u t, r = u :: t → u = ','.toNat ∨ u = ']'.toNat ∨ u = '\x7d'.toNat

/-- The texts of numbers start with a digit or a sign, and determine the number. -/
structure NumberText (text : N → JsString) : Prop where
  starts (n : N) : ∃ u t, text n = u :: t ∧ (u = '-'.toNat ∨ '0'.toNat ≤ u ∧ u ≤ '9'.toNat)
  ends {n n' : N} {r r' : JsString} (eq : text n ++ r = text n' ++ r') (after : Ends r) (after' : Ends r') :
    n = n' ∧ r = r'

variable {text : N → JsString}

/-- A number ends before a comma and before a closing bracket. -/
lemma ends_cons {c : Nat} (c_mem : c = ','.toNat ∨ c = ']'.toNat ∨ c = '\x7d'.toNat) : Ends (c :: r) := by
  intro u t eq
  rw [← (List.cons.inj eq).1]
  exact c_mem

/-- A number ends before the rest of the items. -/
lemma ends_items {l : List (JsonValue N)} : Ends (stringifyItems text [','.toNat] l ++ r) := by
  cases l with
  | nil => exact ends_cons (.inr (.inl rfl))
  | cons item items => exact ends_cons (.inl rfl)

/-- A number ends before the rest of the fields. -/
lemma ends_fields {l : List (JsString × JsonValue N)} : Ends (stringifyFields text [','.toNat] l ++ r) := by
  cases l with
  | nil => exact ends_cons (.inr (.inr rfl))
  | cons field fields => exact ends_cons (.inl rfl)

/-- The kinds of values, and the closing brackets. -/
inductive Kind : Type where
  | null
  | bool
  | string
  | array
  | object
  | close
  | number

/-- The kind that a text begins with. -/
def kind (u : Nat) : Kind :=
  if u = 'n'.toNat then .null
  else if u = 't'.toNat || u = 'f'.toNat then .bool
  else if u = '"'.toNat then .string
  else if u = '['.toNat then .array
  else if u = '\x7b'.toNat then .object
  else if u = ']'.toNat || u = '\x7d'.toNat then .close
  else .number

/-- The kind of a value. -/
def JsonValue.kind : JsonValue N → Kind
  | .null => .null
  | .bool _ => .bool
  | .string _ => .string
  | .array _ => .array
  | .object _ => .object
  | .number _ => .number

/-- The first unit of a text says of which kind the value is. -/
lemma head_stringify (numbers : NumberText text) (v : JsonValue N) :
    ∃ u t, stringify text v = u :: t ∧ kind u = v.kind := by
  cases v with
  | null => exact ⟨_, _, rfl, rfl⟩
  | bool b =>
    cases b with
    | true => exact ⟨_, _, rfl, rfl⟩
    | false => exact ⟨_, _, rfl, rfl⟩
  | string s => exact ⟨_, _, rfl, rfl⟩
  | array items => exact ⟨_, _, rfl, rfl⟩
  | object fields => exact ⟨_, _, rfl, rfl⟩
  | number n =>
    obtain ⟨u, t, eq, starts⟩ := numbers.starts n
    refine ⟨u, t, eq, ?_⟩
    simp only [Char.reduceToNat] at starts
    simp only [kind, JsonValue.kind, Char.reduceToNat, Bool.or_eq_true, decide_eq_true_eq]
    split_ifs <;> first | rfl | omega

/-- The texts of values begin alike only for values of one kind. -/
lemma kind_eq (numbers : NumberText text) {v v' : JsonValue N}
    (eq : stringify text v ++ r = stringify text v' ++ r') : v.kind = v'.kind := by
  obtain ⟨u, t, text', first⟩ := head_stringify numbers v
  obtain ⟨u', t', text'', first'⟩ := head_stringify numbers v'
  rw [text', text''] at eq
  rw [← first, ← first', (List.cons.inj eq).1]

/-- No text of a value begins with a closing bracket. -/
lemma close_ne (numbers : NumberText text) {c : Nat} (closing : kind c = .close) {sep t : JsString}
    (sep_mem : sep = [] ∨ sep = [','.toNat]) (v : JsonValue N) : c :: r ≠ sep ++ stringify text v ++ t := by
  intro eq
  rcases sep_mem with rfl | rfl
  · obtain ⟨u, t', text', first⟩ := head_stringify numbers v
    rw [List.nil_append, text'] at eq
    rw [(List.cons.inj eq).1, first] at closing
    cases v <;> cases closing
  · rw [(List.cons.inj eq).1] at closing
    cases closing

mutual

/-- The text of a value determines the value and what follows. -/
lemma stringify_append (numbers : NumberText text) : ∀ (v v' : JsonValue N) {r r' : JsString},
    stringify text v ++ r = stringify text v' ++ r' → Ends r → Ends r' → v = v' ∧ r = r'
  | .null, v', r, r', eq, _, _ => by
    have same := kind_eq numbers eq
    cases v' with
    | null => exact ⟨rfl, List.append_cancel_left eq⟩
    | _ => cases same
  | .bool b, v', r, r', eq, _, _ => by
    have same := kind_eq numbers eq
    cases v' with
    | bool b' =>
      cases b <;> cases b'
      · exact ⟨rfl, List.append_cancel_left eq⟩
      · cases eq
      · cases eq
      · exact ⟨rfl, List.append_cancel_left eq⟩
    | _ => cases same
  | .number n, v', r, r', eq, after, after' => by
    have same := kind_eq numbers eq
    cases v' with
    | number n' =>
      obtain ⟨rfl, rest⟩ := numbers.ends eq after after'
      exact ⟨rfl, rest⟩
    | _ => cases same
  | .string s, v', r, r', eq, _, _ => by
    have same := kind_eq numbers eq
    cases v' with
    | string s' =>
      obtain ⟨rfl, rest⟩ := quote_append eq
      exact ⟨rfl, rest⟩
    | _ => cases same
  | .array items, v', r, r', eq, _, _ => by
    have same := kind_eq numbers eq
    cases v' with
    | array items' =>
      obtain ⟨rfl, rest⟩ := stringifyItems_append numbers items items' (.inl rfl) (List.cons.inj eq).2
      exact ⟨rfl, rest⟩
    | _ => cases same
  | .object fields, v', r, r', eq, _, _ => by
    have same := kind_eq numbers eq
    cases v' with
    | object fields' =>
      obtain ⟨rfl, rest⟩ := stringifyFields_append numbers fields fields' (.inl rfl) (List.cons.inj eq).2
      exact ⟨rfl, rest⟩
    | _ => cases same

/-- Items are determined by their text, whatever follows it. -/
lemma stringifyItems_append (numbers : NumberText text) : ∀ (l l' : List (JsonValue N)) {sep r r' : JsString},
    sep = [] ∨ sep = [','.toNat] →
    stringifyItems text sep l ++ r = stringifyItems text sep l' ++ r' → l = l' ∧ r = r'
  | [], [], _, _, _, _, eq => ⟨rfl, List.append_cancel_left eq⟩
  | [], v' :: l', sep, r, r', sep_mem, eq => by
    rw [stringifyItems, stringifyItems, List.append_assoc (_ ++ _)] at eq
    exact absurd eq (close_ne numbers rfl sep_mem v')
  | v :: l, [], sep, r, r', sep_mem, eq => by
    rw [stringifyItems, stringifyItems, List.append_assoc (_ ++ _)] at eq
    exact absurd eq.symm (close_ne numbers rfl sep_mem v)
  | v :: l, v' :: l', sep, r, r', sep_mem, eq => by
    rw [stringifyItems, stringifyItems] at eq
    simp only [List.append_assoc, List.append_cancel_left_eq] at eq
    obtain ⟨rfl, rest⟩ := stringify_append numbers v v' eq ends_items ends_items
    obtain ⟨rfl, last⟩ := stringifyItems_append numbers l l' (.inr rfl) rest
    exact ⟨rfl, last⟩

/-- Fields are determined by their text, whatever follows it. -/
lemma stringifyFields_append (numbers : NumberText text) : ∀ (l l' : List (JsString × JsonValue N))
    {sep r r' : JsString}, sep = [] ∨ sep = [','.toNat] →
    stringifyFields text sep l ++ r = stringifyFields text sep l' ++ r' → l = l' ∧ r = r'
  | [], [], _, _, _, _, eq => ⟨rfl, List.append_cancel_left eq⟩
  | [], (key', v') :: l', sep, r, r', sep_mem, eq => by
    rcases sep_mem with rfl | rfl
    · cases eq
    · cases eq
  | (key, v) :: l, [], sep, r, r', sep_mem, eq => by
    rcases sep_mem with rfl | rfl
    · cases eq
    · cases eq
  | (key, v) :: l, (key', v') :: l', sep, r, r', sep_mem, eq => by
    rw [stringifyFields, stringifyFields] at eq
    simp only [List.append_assoc, List.append_cancel_left_eq] at eq
    obtain ⟨rfl, value⟩ := quote_append eq
    obtain ⟨rfl, rest⟩ := stringify_append numbers v v' (List.cons.inj value).2 ends_fields ends_fields
    obtain ⟨rfl, last⟩ := stringifyFields_append numbers l l' (.inr rfl) rest
    exact ⟨rfl, last⟩

end

/-- The text of a value determines the value. -/
theorem stringify_injective (numbers : NumberText text) : Function.Injective (stringify text) := by
  intro v v' eq
  have after : Ends [] := nofun
  exact (stringify_append numbers v v' (congrArg (· ++ []) eq) after after).1

/-! ## Numbers -/

/-- The decimal digits of a number. -/
def decimal (n : Nat) : JsString := (Nat.toDigits 10 n).map Char.toNat

/-- A decimal numeral is made of digits. -/
lemma digit_of_mem_decimal {n : Nat} (mem : u ∈ decimal n) : '0'.toNat ≤ u ∧ u ≤ '9'.toNat := by
  obtain ⟨c, inside, rfl⟩ := List.mem_map.1 mem
  have digit := Nat.isDigit_of_mem_toDigits (by decide) (by decide) inside
  simp only [Char.isDigit, ge_iff_le, Bool.and_eq_true, decide_eq_true_eq, UInt32.le_iff_toNat_le] at digit
  exact digit

/-- The digits of a numeral are cut off before what ends it. -/
lemma takeWhile_decimal {n : Nat} (after : Ends r) :
    (decimal n ++ r).takeWhile (fun u => '0'.toNat ≤ u && u ≤ '9'.toNat) = decimal n := by
  rw [List.takeWhile_append_of_pos fun u mem => by simpa using digit_of_mem_decimal mem]
  cases r with
  | nil => exact List.append_nil _
  | cons u t =>
    have stop : ('0'.toNat ≤ u && u ≤ '9'.toNat) = false := by
      rcases after u t rfl with rfl | rfl | rfl <;> rfl
    rw [List.takeWhile_cons_of_neg (by rw [stop]; exact Bool.false_ne_true), List.append_nil]

/-- Numbers are determined by their numerals. -/
lemma decimal_injective {n n' : Nat} (eq : decimal n = decimal n') : n = n' := by
  have digits := List.map_injective_iff.2 (fun c c' same => Char.toNat_inj.1 same) eq
  rw [← Nat.ofDigitChars_ten_toDigits (n := n), digits, Nat.ofDigitChars_ten_toDigits]

/-- Natural numbers are written with their digits. -/
theorem numberText_decimal : NumberText decimal where
  starts n := by
    cases text' : decimal n with
    | nil => simp [decimal] at text'
    | cons u t => exact ⟨u, t, rfl, .inr (digit_of_mem_decimal (text' ▸ List.mem_cons_self))⟩
  ends eq after after' := by
    have digits := congrArg (List.takeWhile fun u => '0'.toNat ≤ u && u ≤ '9'.toNat) eq
    rw [takeWhile_decimal after, takeWhile_decimal after'] at digits
    exact ⟨decimal_injective digits, List.append_cancel_left (digits ▸ eq)⟩

/-- There are no numbers. -/
theorem numberText_empty : NumberText (Empty.elim : Empty → JsString) where
  starts n := n.elim
  ends {n} := n.elim

end AvaSettle.Data
