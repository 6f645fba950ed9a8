import AvaSettle.Database.Meaning
import AvaSettle.Database.PostgresMapper

/-!
# The statements of the record ledgers

The texts that insert and find records are read back as statements: the columns and the placeholders stand in
the order of the table, so an insertion writes to each column the value at its position, and the row that
is returned or found later shows it there.
-/

namespace AvaSettle.Database
open Sql (Row Schema Placeholder Token Insert Select Comparison clash names lex lex_append_of_closes
  lex_append_of_opens lex_separated lex_word)

variable {J V R : Type}

/-! ## The texts -/

/-- The placeholders of the columns, after the first `n`: those of JSON columns are cast. -/
def placeholdersFrom : Nat → List (String × SqlType) → List Placeholder
  | _, [] => []
  | n, (_, type) :: columns => ⟨n + 1, type = .jsonb⟩ :: placeholdersFrom (n + 1) columns

/-- The columns and the placeholders of a ledger are in the order of its table. -/
structure RecordLedger.Lined (l : RecordLedger J R) : Prop where
  table : l.ledger.table = l.schema.table
  columns : l.ledger.lines.flatten = l.schema.names
  placeholders : lex l.placeholders =
    [Token.mark ','].intercalate ((placeholdersFrom 0 l.schema.columns).map Placeholder.tokens)
  distinct : l.schema.names.Nodup
  noFrom : "FROM" ∉ l.schema.names
  required : ∀ c ∈ l.schema.required, c ∈ l.schema.names
  unique : l.schema.unique = [["id"], ["client_id", "external_id"]]
  id : l.schema.columns[0]? = some ("id", .uuid) ∧ ∀ js p, (l.toValues js p)[0]? = some (l.id p)
  clientId : l.schema.columns[1]? = some ("client_id", .uuid) ∧ ∀ js p, (l.toValues js p)[1]? = some (l.clientId p)
  externalId : l.schema.columns[2]? = some ("external_id", .text) ∧
    ∀ js p, (l.toValues js p)[2]? = some (l.externalId p)

/-- The placeholders of a pay-in stand in the order of its columns. -/
lemma lex_payInPlaceholders : lex payInPlaceholders =
    [Token.mark ','].intercalate ((placeholdersFrom 0 payInSchema.columns).map Placeholder.tokens) := by
  decide +kernel

/-- The placeholders of a payout stand in the order of its columns. -/
lemma lex_payoutPlaceholders : lex payoutPlaceholders =
    [Token.mark ','].intercalate ((placeholdersFrom 0 payoutSchema.columns).map Placeholder.tokens) := by
  decide +kernel

/-- The columns of the pay-ins differ. -/
lemma payInSchema_names : payInSchema.names.Nodup ∧ "FROM" ∉ payInSchema.names ∧
    ∀ c ∈ payInSchema.required, c ∈ payInSchema.names := by
  decide +kernel

/-- The columns of the payouts differ. -/
lemma payoutSchema_names : payoutSchema.names.Nodup ∧ "FROM" ∉ payoutSchema.names ∧
    ∀ c ∈ payoutSchema.required, c ∈ payoutSchema.names := by
  decide +kernel

/-- The ledger of the pay-ins is in the order of its table. -/
lemma payInLedger_lined : (payInLedger J).Lined where
  table := rfl
  columns := rfl
  placeholders := lex_payInPlaceholders
  distinct := payInSchema_names.1
  noFrom := payInSchema_names.2.1
  required := payInSchema_names.2.2
  unique := rfl
  id := ⟨rfl, fun _ _ => rfl⟩
  clientId := ⟨rfl, fun _ _ => rfl⟩
  externalId := ⟨rfl, fun _ _ => rfl⟩

/-- The ledger of the payouts is in the order of its table. -/
lemma payoutLedger_lined : (payoutLedger J).Lined where
  table := rfl
  columns := rfl
  placeholders := lex_payoutPlaceholders
  distinct := payoutSchema_names.1
  noFrom := payoutSchema_names.2.1
  required := payoutSchema_names.2.2
  unique := rfl
  id := ⟨rfl, fun _ _ => rfl⟩
  clientId := ⟨rfl, fun _ _ => rfl⟩
  externalId := ⟨rfl, fun _ _ => rfl⟩

/-- The statement that `createOrGetExisting` issues. -/
def RecordLedger.insertion (l : RecordLedger J R) : Insert where
  table := l.ledger.table
  columns := l.schema.names
  values := placeholdersFrom 0 l.schema.columns
  conflict := ["client_id", "external_id"]
  returning := l.schema.names

/-- A selection with the columns of the ledger. -/
def RecordLedger.selection (l : RecordLedger J R) (tests : List Comparison) : Select where
  columns := l.schema.names
  table := l.ledger.table
  tests := tests

variable {l : RecordLedger J R}

/-- The text of the columns is read as their names. -/
lemma lex_columns (lined : l.Lined) : lex (columnList l.ledger.lines) = names l.schema.names := by
  rw [lex_columnList fun line => l.ledger.word_of_line, lined.columns]
  rfl

/-- The separator ends the words on both sides. -/
def Separates (s : String) : Prop := Sql.Opens s ∧ Sql.Closes s ∧ s ≠ ""

instance (s : String) : Decidable (Separates s) := inferInstanceAs (Decidable (_ ∧ _ ∧ _))

/-- A text with separators is read piece by piece. -/
lemma lex_pieces {a b c d t x y z : String} (start : Sql.Closes a) (sepb : Separates b) (sepc : Separates c)
    (sepd : Separates d) : lex (a ++ t ++ b ++ x ++ c ++ y ++ d ++ z) =
      lex a ++ lex t ++ lex b ++ lex x ++ lex c ++ lex y ++ lex d ++ lex z := by
  rw [lex_separated sepd.1 sepd.2.1 sepd.2.2, lex_separated sepc.1 sepc.2.1 sepc.2.2,
    lex_separated sepb.1 sepb.2.1 sepb.2.2, lex_append_of_closes start]

/-- The text of an insertion is read as its tokens. -/
lemma lex_insertText (lined : l.Lined) : lex l.insertText = l.insertion.tokens := by
  have insert : lex "INSERT INTO " = [.word "INSERT", .word "INTO"] := by decide
  have bracket : lex " (" = [.mark '('] := by decide
  have values : lex ")\n       VALUES (\n         " = [.mark ')', .word "VALUES", .mark '('] := by decide +kernel
  have conflict :
      lex "\n       )\n       ON CONFLICT (client_id, external_id) DO NOTHING\n       RETURNING " =
        [.mark ')', .word "ON", .word "CONFLICT", .mark '('] ++ names ["client_id", "external_id"] ++
          [.mark ')', .word "DO", .word "NOTHING", .word "RETURNING"] := by decide +kernel
  refine (lex_pieces (by decide) (by decide) (by decide +kernel) (by decide +kernel)).trans ?_
  simp [insert, bracket, values, conflict, lex_word l.ledger.tableWord.1, lex_columns lined, lined.placeholders,
    Insert.tokens, RecordLedger.insertion]

/-- The text of a selection by id is read as its tokens. -/
lemma lex_findByIdText (lined : l.Lined) (withClient : Bool) : lex (l.findByIdText withClient) =
    (l.selection (.eq "id" 1 :: if withClient then [.eq "client_id" 2] else [])).tokens := by
  have select : lex "SELECT " = [.word "SELECT"] := by decide
  have from' : lex " FROM " = [.word "FROM"] := by decide
  have «where» : lex "\n       WHERE id = $1 " = .word "WHERE" :: (Comparison.eq "id" 1).tokens := by decide
  have client : lex "AND client_id = $2" = .word "AND" :: (Comparison.eq "client_id" 2).tokens := by decide
  rw [RecordLedger.findByIdText, lex_separated (by decide) (by decide) (by decide),
    lex_separated (by decide) (by decide) (by decide), lex_append_of_closes (by decide), select, from', «where»,
    lex_word l.ledger.tableWord.1, lex_columns lined]
  cases withClient with
  | true =>
    rw [if_pos rfl, if_pos rfl, client]
    simp [Select.tokens, RecordLedger.selection]
  | false =>
    have nothing : lex "" = [] := rfl
    rw [if_neg Bool.false_ne_true, if_neg Bool.false_ne_true, nothing]
    simp [Select.tokens, RecordLedger.selection]

/-- The text of a selection by external id is read as its tokens. -/
lemma lex_findByExternalIdText (lined : l.Lined) : lex l.findByExternalIdText =
    (l.selection [.eq "external_id" 1, .notDistinct "client_id" 2]).tokens := by
  have select : lex "SELECT " = [.word "SELECT"] := by decide
  have from' : lex " FROM " = [.word "FROM"] := by decide
  have «where» : lex "\n       WHERE external_id = $1 AND client_id IS NOT DISTINCT FROM $2" =
      .word "WHERE" :: (Comparison.eq "external_id" 1).tokens ++ .word "AND" ::
        (Comparison.notDistinct "client_id" 2).tokens := by decide +kernel
  rw [RecordLedger.findByExternalIdText, lex_append_of_opens (by decide),
    lex_separated (by decide) (by decide) (by decide), lex_append_of_closes (by decide), select, from', «where»,
    lex_word l.ledger.tableWord.1, lex_columns lined]
  simp [Select.tokens, RecordLedger.selection]

/-- A table has columns. -/
lemma names_ne_nil (lined : l.Lined) : l.schema.names ≠ [] := by
  rw [← lined.columns]
  obtain ⟨line, mem⟩ := List.exists_mem_of_ne_nil _ l.ledger.returned.1
  intro nil
  exact (l.ledger.returned.2 line mem).1 (List.flatten_eq_nil_iff.1 nil line mem)

/-! ## The inserted row -/

/-- The row that is read from the values. -/
def storedRow (pg : Postgres J V) (columns : List (String × SqlType)) (values : List (JsValue J)) : Row V :=
  fun c => ((columns.zip values).find? fun e => e.1.1 == c).bind fun e => (pg.input e.1.2 e.2).join

/-- The server accepts a value for a column and shows another. -/
def Postgres.Accepts (pg : Postgres J V) (schema : Schema SqlType) (c : String × SqlType)
    (x : JsValue J × JsValue J) : Prop :=
  ∃ v, pg.input c.2 x.1 = some v ∧ pg.show c.2 v = x.2 ∧ (c.1 ∈ schema.required → v.isSome)

section
variable {pg : Postgres J V} {columns : List (String × SqlType)} {values shown : List (JsValue J)}
  {c : String} {type : SqlType} {x : JsValue J} {v : Option V} {k n : Nat}

/-- The column at a position holds the value at that position. -/
lemma storedRow_at (distinct : (columns.map Prod.fst).Nodup) (column : columns[k]? = some (c, type))
    (value : values[k]? = some x) (read : pg.input type x = some v) : storedRow pg columns values c = v := by
  induction columns generalizing values k with
  | nil => cases column
  | cons e columns ih =>
    obtain ⟨free, distinct⟩ := List.nodup_cons.1 distinct
    cases values with
    | nil => cases value
    | cons y values =>
      cases k with
      | zero =>
        cases column
        cases value
        simp [storedRow, read]
      | succ k =>
        have inside : c ∈ columns.map Prod.fst := List.mem_map.2 ⟨_, List.mem_of_getElem? column, rfl⟩
        have other : e.1 ≠ c := fun eq => free (eq ▸ inside)
        have later := ih distinct column value
        simpa [storedRow, other] using later

/-- Nothing stands outside the columns. -/
lemma storedRow_off (off : c ∉ columns.map Prod.fst) : storedRow pg columns values c = none := by
  have missing : (columns.zip values).find? (fun e => e.1.1 == c) = none := by
    rw [List.find?_eq_none]
    intro e mem same
    exact off (List.mem_map.2 ⟨e.1, (List.of_mem_zip mem).1, eq_of_beq same⟩)
  rw [storedRow, missing]
  rfl

/-- A column has the type at its position. -/
lemma type_at (distinct : (columns.map Prod.fst).Nodup) (column : columns[k]? = some (c, type)) :
    columns.lookup c = some type := by
  induction columns generalizing k with
  | nil => cases column
  | cons e columns ih =>
    obtain ⟨name, type'⟩ := e
    obtain ⟨free, distinct⟩ := List.nodup_cons.1 distinct
    cases k with
    | zero =>
      cases column
      exact List.lookup_cons_self
    | succ k =>
      have inside : c ∈ columns.map Prod.fst := List.mem_map.2 ⟨_, List.mem_of_getElem? column, rfl⟩
      have other : c ≠ name := fun eq => free (eq ▸ inside)
      rw [List.lookup_cons, beq_false_of_ne other]
      exact ih distinct column

/-- Every placeholder stands at the position of its column. -/
lemma mem_zip_placeholders {q : String × Placeholder}
    (mem : q ∈ (columns.map Prod.fst).zip (placeholdersFrom n columns)) :
    ∃ k type, columns[k]? = some (q.1, type) ∧ q.2 = ⟨n + k + 1, type = .jsonb⟩ := by
  induction columns generalizing n with
  | nil => cases mem
  | cons e columns ih =>
    obtain ⟨name, type⟩ := e
    rcases List.mem_cons.1 mem with rfl | mem
    · exact ⟨0, type, rfl, rfl⟩
    · obtain ⟨k, type, column, placeholder⟩ := ih mem
      exact ⟨k + 1, type, column, placeholder.trans (by rw [Nat.add_right_comm n 1 k, Nat.add_assoc n k 1])⟩

/-- The placeholders are numbered in order. -/
lemma placeholdersFrom_numbers :
    (placeholdersFrom n columns).map Placeholder.number = List.range' (n + 1) columns.length := by
  induction columns generalizing n with
  | nil => rfl
  | cons e columns ih =>
    obtain ⟨name, type⟩ := e
    simp [placeholdersFrom, ih, List.range'_succ]

end

section
variable [DecidableEq V] {pg : Postgres J V} {js : Script J} {p : R} {shown : List (JsValue J)}
  {clients : List V} {rows : List (Row V)}

/-- The row of a record. -/
def RecordLedger.row (l : RecordLedger J R) (js : Script J) (pg : Postgres J V) (p : R) : Row V :=
  storedRow pg l.schema.columns (l.toValues js p)

/-- Every value of a record is accepted, and shown as the given one. -/
def RecordLedger.Accepted (l : RecordLedger J R) (js : Script J) (pg : Postgres J V) (p : R)
    (shown : List (JsValue J)) : Prop :=
  (l.toValues js p).length = shown.length ∧
    List.Forall₂ (pg.Accepts l.schema) l.schema.columns ((l.toValues js p).zip shown)

omit [DecidableEq V] in
/-- The value at a position is accepted for its column. -/
lemma accepted_at (accepted : l.Accepted js pg p shown) {k : Nat} {c : String} {type : SqlType}
    (column : l.schema.columns[k]? = some (c, type)) : ∃ x y v, (l.toValues js p)[k]? = some x ∧
      shown[k]? = some y ∧ pg.input type x = some v ∧ pg.show type v = y ∧
        (c ∈ l.schema.required → v.isSome) := by
  obtain ⟨long, cells⟩ := accepted
  have lt : k < l.schema.columns.length := (List.getElem?_eq_some_iff.1 column).1
  have lt' : k < ((l.toValues js p).zip shown).length := cells.length_eq ▸ lt
  have cell := cells.get lt lt'
  rw [List.get_eq_getElem, List.get_eq_getElem, (List.getElem?_eq_some_iff.1 column).2, List.getElem_zip] at cell
  obtain ⟨v, read, same, required⟩ := cell
  rw [List.length_zip] at lt'
  exact ⟨_, _, v, List.getElem?_eq_getElem (by omega), List.getElem?_eq_getElem (by omega), read, same, required⟩

/-- The statement fits the table and the values of a record. -/
lemma insertion_fits (lined : l.Lined) (long : (l.toValues js p).length = l.schema.columns.length) :
    l.insertion.Fits l.schema (l.toValues js p) := by
  have numbers : (placeholdersFrom 0 l.schema.columns).map Placeholder.number =
      List.range' 1 l.schema.columns.length := placeholdersFrom_numbers
  refine ⟨lined.table, lined.distinct, fun c mem => mem, fun c mem => mem, ?_, ?_, ?_, ?_, fun c mem => mem⟩
  · have lengths := congrArg List.length numbers
    simpa [RecordLedger.insertion, Schema.names] using lengths
  · intro q mem
    have number : q.number ∈ List.range' 1 l.schema.columns.length := numbers ▸ List.mem_map_of_mem mem
    rw [List.mem_range'_1] at number
    omega
  · intro n lt
    rw [RecordLedger.insertion, numbers, List.mem_range'_1]
    omega
  · rw [lined.unique]
    exact List.mem_cons_of_mem _ List.mem_cons_self

omit [DecidableEq V] in
/-- The row holds the value at a position in its column. -/
lemma row_at (lined : l.Lined) {k : Nat} {c : String} {type : SqlType} {x : JsValue J} {v : Option V}
    (column : l.schema.columns[k]? = some (c, type)) (value : (l.toValues js p)[k]? = some x)
    (read : pg.input type x = some v) : l.row js pg p c = v :=
  storedRow_at lined.distinct column value read

omit [DecidableEq V] in
/-- A column at a position is one of the table. -/
lemma mem_names {k : Nat} {c : String} {type : SqlType} (column : l.schema.columns[k]? = some (c, type)) :
    c ∈ l.schema.names :=
  List.mem_map.2 ⟨_, List.mem_of_getElem? column, rfl⟩

omit [DecidableEq V] in
/-- A column of the table stands at a position. -/
lemma exists_column {c : String} (mem : c ∈ l.schema.names) :
    ∃ (k : Nat) (type : SqlType), l.schema.columns[k]? = some (c, type) := by
  obtain ⟨e, inside, rfl⟩ := List.mem_map.1 mem
  obtain ⟨k, at'⟩ := List.mem_iff_getElem?.1 inside
  exact ⟨k, e.2, at'⟩

omit [DecidableEq V] in
/-- What is paired with the columns is found by them. -/
lemma lookup_names {f : String → Option V} {names : List String} {c : String} (mem : c ∈ names) :
    (names.map fun c => (c, f c)).lookup c = some (f c) := by
  induction names with
  | nil => cases mem
  | cons c' names ih =>
    by_cases same : c = c'
    · subst same
      exact List.lookup_cons_self
    · rw [List.map_cons, List.lookup_cons, beq_false_of_ne same]
      exact ih ((List.mem_cons.1 mem).resolve_left same)

omit [DecidableEq V] in
/-- What the driver shows in the columns of the row of a record. -/
lemma fetch_at (lined : l.Lined) (accepted : l.Accepted js pg p shown) {k : Nat} {c : String} {type : SqlType}
    {y : JsValue J} (column : l.schema.columns[k]? = some (c, type)) (value : shown[k]? = some y) :
    pg.fetch l.schema (l.schema.names.map fun c => (c, l.row js pg p c)) c = y := by
  obtain ⟨x, y', v, sent, seen, read, same, -⟩ := accepted_at accepted column
  have row := row_at lined column sent read
  have type := type_at lined.distinct column
  rw [Postgres.fetch, lookup_names (mem_names column), Schema.type, type, row]
  exact same.trans (Option.some.inj (seen.symm.trans value))

/-- The insertion of a record adds its row. -/
lemma insertion_exec (lined : l.Lined) (accepted : l.Accepted js pg p shown)
    (known : ((l.row js pg p "client_id").all (· ∈ clients)) = true)
    (fresh : ∀ cs ∈ l.schema.unique, ∀ r ∈ rows, clash cs (l.row js pg p) r = false) :
    l.insertion.exec l.schema pg.reading (l.toValues js p) (fun row => (row "client_id").all (· ∈ clients)) rows =
      some (rows ++ [l.row js pg p], [l.schema.names.map fun c => (c, l.row js pg p c)]) := by
  have long : (l.toValues js p).length = l.schema.columns.length := by
    have lengths := accepted.2.length_eq
    rw [List.length_zip, ← accepted.1, Nat.min_self] at lengths
    exact lengths.symm
  apply Insert.exec_of_read (insertion_fits lined long)
  · intro q mem
    obtain ⟨k, type, column, placeholder⟩ := mem_zip_placeholders mem
    obtain ⟨x, y, v, sent, -, read, -⟩ := accepted_at accepted column
    have typed : l.schema.type q.1 = some type := type_at lined.distinct column
    rw [typed, Option.bind_some, row_at lined column sent read, placeholder, Placeholder.value]
    have value : (l.toValues js p)[0 + k + 1 - 1]?.bind (pg.reading.input type) = some v := by
      simpa [sent, Postgres.reading] using read
    have cast : ¬ ((decide (type = .jsonb) && decide (type ≠ SqlType.jsonb)) = true) := by
      cases type <;> decide
    exact (if_neg cast).trans value
  · exact fun c off => storedRow_off off
  · intro c mem
    obtain ⟨k, type, column⟩ := exists_column (lined.required c mem)
    obtain ⟨x, y, v, sent, -, read, -, required⟩ := accepted_at accepted column
    rw [row_at lined column sent read]
    exact required mem
  · exact known
  · exact fresh

end

end AvaSettle.Database
