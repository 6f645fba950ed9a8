import AvaSettle.Sql.Lexer

/-!
# Updates with positional parameters

The statement `UPDATE … SET … WHERE … RETURNING …` whose values are placeholders: how its tokens are read,
and what it does to a table with typed columns for the values that are bound to the placeholders. How the
server reads a bound value, as one of a type or as a list of such values, is a parameter; a value that it
does not read is an error, and so is `NULL` in a column that is declared not null.
-/

namespace AvaSettle.Sql

/-! ## Statements -/

/-- What a column is set to. -/
inductive Source : Type where
  | param (n : Nat) (json : Bool)
  | now
  deriving DecidableEq, Repr

/-- `column = source`. -/
structure Assignment where
  column : String
  source : Source
  deriving DecidableEq, Repr

/-- A conjunct of the condition: `column = $n` or `column = ANY($n)`. -/
inductive Test : Type where
  | eq (column : String) (n : Nat)
  | any (column : String) (n : Nat)
  deriving DecidableEq, Repr

/-- An update of the rows of a table. -/
structure Update where
  table : String
  sets : List Assignment
  tests : List Test
  returning : List String
  deriving DecidableEq, Repr

/-- The placeholders of a source. -/
def Source.placeholders : Source → List Nat
  | .param n _ => [n]
  | .now => []

/-- The column a conjunct tests. -/
def Test.column : Test → String
  | .eq column _ => column
  | .any column _ => column

/-- The placeholder of a conjunct. -/
def Test.placeholder : Test → Nat
  | .eq _ n => n
  | .any _ n => n

/-- The placeholders of a statement, in the order of its text. -/
def Update.placeholders (u : Update) : List Nat :=
  u.sets.flatMap (fun a => a.source.placeholders) ++ u.tests.map Test.placeholder

/-- The columns that a statement names. -/
def Update.columns (u : Update) : List String :=
  u.sets.map Assignment.column ++ u.tests.map Test.column ++ u.returning

/-! ## Tokens -/

/-- The words that part a statement. -/
def reserved : List String := ["SET", "WHERE", "AND", "RETURNING"]

/-- The tokens of a source. -/
def Source.tokens : Source → List Token
  | .param n false => [.mark '$', .word (n.repr)]
  | .param n true => [.mark '$', .word (n.repr), .mark ':', .mark ':', .word "jsonb"]
  | .now => [.word "now", .mark '(', .mark ')']

/-- The tokens of an assignment. -/
def Assignment.tokens (a : Assignment) : List Token := .word a.column :: .mark '=' :: a.source.tokens

/-- The tokens of a conjunct. -/
def Test.tokens : Test → List Token
  | .eq column n => [.word column, .mark '=', .mark '$', .word (n.repr)]
  | .any column n =>
    [.word column, .mark '=', .word "ANY", .mark '(', .mark '$', .word (n.repr), .mark ')']

/-- The tokens of a statement. -/
def Update.tokens (u : Update) : List Token :=
  [.word "UPDATE", .word u.table] ++ .word "SET" :: [Token.mark ','].intercalate (u.sets.map Assignment.tokens) ++
    .word "WHERE" :: [Token.word "AND"].intercalate (u.tests.map Test.tokens) ++
    .word "RETURNING" :: [Token.mark ','].intercalate (u.returning.map fun c => [.word c])

/-- Reads a source. -/
def parseSource : List Token → Option Source
  | [.mark '$', .word n] => (numeral n).map fun n => .param n false
  | [.mark '$', .word n, .mark ':', .mark ':', .word type] =>
    if type = "jsonb" then (numeral n).map fun n => .param n true else none
  | [.word f, .mark '(', .mark ')'] => if f = "now" then some .now else none
  | _ => none

/-- Reads an assignment. -/
def parseAssignment : List Token → Option Assignment
  | .word column :: .mark '=' :: source => (parseSource source).map fun source => ⟨column, source⟩
  | _ => none

/-- Reads a conjunct. -/
def parseTest : List Token → Option Test
  | [.word column, .mark '=', .mark '$', .word n] => (numeral n).map fun n => .eq column n
  | [.word column, .mark '=', .word f, .mark '(', .mark '$', .word n, .mark ')'] =>
    if f = "ANY" then (numeral n).map fun n => .any column n else none
  | _ => none

/-- Reads the name of a column. -/
def parseColumn : List Token → Option String
  | [.word column] => some column
  | _ => none

/-- What stands before and after the first occurrence of a token. -/
def cut (t : Token) : List Token → Option (List Token × List Token)
  | [] => none
  | x :: xs => if x = t then some ([], xs) else (cut t xs).map fun p => (x :: p.1, p.2)

/-- Reads a statement. -/
def parse (ts : List Token) : Option Update := do
  let (head, ts) ← cut (.word "SET") ts
  let (sets, ts) ← cut (.word "WHERE") ts
  let (tests, columns) ← cut (.word "RETURNING") ts
  let [.word verb, .word table] := head | none
  if verb = "UPDATE" then
    some {
      table
      sets := ← (sets.splitOn (.mark ',')).mapM parseAssignment
      tests := ← (tests.splitOn (.word "AND")).mapM parseTest
      returning := ← (columns.splitOn (.mark ',')).mapM parseColumn }
  else none

/-! ## Tables -/

/-- A row: what stands in its columns, where `none` is `NULL`. -/
abbrev Row (V : Type) := String → Option V

/-- What a table is declared with: its columns with their types, the columns that are not null, and the
    groups of columns that are unique. -/
structure Schema (T : Type) where
  table : String
  columns : List (String × T)
  required : List String
  unique : List (List String)

/-- How a server reads a bound value as one of a type, where the value may be `NULL`. `none` is an error. -/
structure Reading (T P V : Type) where
  jsonb : T
  input : T → P → Option (Option V)

/-- The type of a column. -/
def Schema.type {T : Type} (s : Schema T) (column : String) : Option T := s.columns.lookup column

/-- The names of the columns. -/
def Schema.names {T : Type} (s : Schema T) : List String := s.columns.map Prod.fst

/-- The rows agree in columns none of which is null. -/
def clash {V : Type} [DecidableEq V] (columns : List String) (row row' : Row V) : Bool :=
  columns.all fun c => (row c).isSome && decide (row c = row' c)

/-- The rows satisfy the declaration: none of them lacks a required column, and no two of them clash in
    unique columns. -/
structure Schema.Valid {T V : Type} [DecidableEq V] (s : Schema T) (rows : List (Row V)) : Prop where
  filled : ∀ row ∈ rows, ∀ c ∈ s.required, (row c).isSome
  distinct : ∀ cs ∈ s.unique, rows.Pairwise fun row row' => clash cs row row' = false

instance {T V : Type} [DecidableEq V] (s : Schema T) (rows : List (Row V)) : Decidable (s.Valid rows) :=
  decidable_of_iff ((∀ row ∈ rows, ∀ c ∈ s.required, (row c).isSome) ∧
    ∀ cs ∈ s.unique, rows.Pairwise fun row row' => clash cs row row' = false)
    ⟨fun ⟨filled, distinct⟩ => ⟨filled, distinct⟩, fun ⟨filled, distinct⟩ => ⟨filled, distinct⟩⟩

/-- A table: the rows satisfy its declaration. -/
structure Table (T V : Type) [DecidableEq V] where
  schema : Schema T
  rows : List (Row V)
  valid : schema.Valid rows

/-! ## Meaning -/

/-- How a server reads the bound values, also as lists of values of a type, and its clock. -/
structure Server (T P V : Type) extends Reading T P V where
  elements : T → P → Option (List (Option V))
  clock : T
  now : V

section
variable {T P V : Type} [DecidableEq T] [DecidableEq V]

/-- The value of a source for a column of a type. A JSON text or the time is a value of its own type only. -/
def Source.value (s : Server T P V) (values : List P) (type : T) : Source → Option (Option V)
  | .param n json => if json && type ≠ s.jsonb then none else values[n - 1]?.bind (s.input type)
  | .now => if type = s.clock then some (some s.now) else none

/-- The value of an assignment for its column, unless the server reports an error. -/
def Assignment.cell (schema : Schema T) (s : Server T P V) (values : List P) (a : Assignment) :
    Option (Option V) :=
  (schema.type a.column).bind fun type => a.source.value s values type

/-- The values that a conjunct compares its column with, unless the server reports an error. -/
def Test.operand (schema : Schema T) (s : Server T P V) (values : List P) : Test → Option (List (Option V))
  | .eq column n => (schema.type column).bind fun type =>
    (values[n - 1]?.bind (s.input type)).map fun v => [v]
  | .any column n => (schema.type column).bind fun type => values[n - 1]?.bind (s.elements type)

/-- The row satisfies a conjunct: a comparison with `NULL` is not true. -/
def Test.holds (schema : Schema T) (s : Server T P V) (values : List P) (row : Row V) (e : Test) : Bool :=
  (row e.column).any fun v => (e.operand schema s values).any fun vs => decide (some v ∈ vs)

namespace Update
variable (u : Update) (s : Server T P V) (values : List P) (t : Table T V) (row : Row V)

/-- The row satisfies the condition. -/
def selects : Bool := u.tests.all fun test => test.holds t.schema s values row

/-- The row after the assignments. -/
def write : Row V := fun column =>
  match u.sets.find? fun a => a.column == column with
  | some a => (a.cell t.schema s values).join
  | none => row column

/-- The row after the statement. -/
def apply : Row V := if u.selects s values t row then u.write s values t row else row

/-- The statement fits the table and the bound values: it names columns of the table, sets none twice,
    and has a value for every placeholder and a placeholder for every value. -/
def Fits : Prop :=
  u.table = t.schema.table ∧ (∀ c ∈ u.columns, c ∈ t.schema.names) ∧ (u.sets.map Assignment.column).Nodup ∧
    (∀ n ∈ u.placeholders, 1 ≤ n ∧ n ≤ values.length) ∧ ∀ n < values.length, n + 1 ∈ u.placeholders

instance : Decidable (u.Fits values t) := inferInstanceAs (Decidable (_ ∧ _ ∧ _ ∧ _ ∧ _))

/-- The server reads every bound value as one of the type of its column. -/
def Reads : Prop :=
  (∀ a ∈ u.sets, (a.cell t.schema s values).isSome) ∧ ∀ e ∈ u.tests, (e.operand t.schema s values).isSome

instance : Decidable (u.Reads s values t) := inferInstanceAs (Decidable (_ ∧ _))

/-- No selected row loses the value of a required column. -/
def Fills : Prop :=
  ∀ row ∈ t.rows, u.selects s values t row → ∀ a ∈ u.sets, a.column ∈ t.schema.required →
    (a.cell t.schema s values).join.isSome

/-- Runs the statement: the table afterwards and the records it returns, unless the server reports an
    error. -/
def exec : Option (Table T V × List (List (String × Option V))) :=
  if u.Fits values t ∧ u.Reads s values t then
    if valid : t.schema.Valid (t.rows.map (u.apply s values t)) then
      some (⟨t.schema, t.rows.map (u.apply s values t), valid⟩,
        (t.rows.filter (u.selects s values t)).map fun row =>
          u.returning.map fun column => (column, u.write s values t row column))
    else none
  else none

end Update

/-- Runs the statement that a text is. -/
def run (s : Server T P V) (text : String) (values : List P) (t : Table T V) :
    Option (Table T V × List (List (String × Option V))) :=
  (parse (lex text)).bind fun u => u.exec s values t

end

variable {T P V : Type} {n : Nat} {x : Token} {ts us : List Token} {a : Assignment} {c : Source} {e : Test}
  {u : Update} {column : String}

section
variable [DecidableEq T] [DecidableEq V] {s : Server T P V} {values : List P} {t : Table T V} {row row' : Row V}
  {cs : List String}

/-- The assignment of a column is found by its name. -/
lemma find?_column {sets : List Assignment} (nodup : (sets.map Assignment.column).Nodup) (mem : a ∈ sets) :
    sets.find? (fun b => b.column == a.column) = some a := by
  induction sets with
  | nil => cases mem
  | cons b sets ih =>
    obtain ⟨free, nodup⟩ := List.nodup_cons.1 nodup
    rcases List.mem_cons.1 mem with rfl | mem
    · simp
    · have other : b.column ≠ a.column := fun eq => free (eq ▸ List.mem_map_of_mem mem)
      simp [other, ih nodup mem]

/-- A column that is set has the value of its assignment. -/
lemma Update.write_of_mem (nodup : (u.sets.map Assignment.column).Nodup) (mem : a ∈ u.sets) :
    u.write s values t row a.column = (a.cell t.schema s values).join := by
  rw [Update.write, find?_column nodup mem]

/-- A column that is not set is left as it is. -/
lemma Update.write_of_not_mem (free : column ∉ u.sets.map Assignment.column) :
    u.write s values t row column = row column := by
  have none : u.sets.find? (fun b => b.column == column) = none := by
    rw [List.find?_eq_none]
    intro b mem eq
    exact free (List.mem_map.2 ⟨b, mem, eq_of_beq eq⟩)
  rw [Update.write, none]

/-- A column that is not set is left as it is, whether the row is selected or not. -/
lemma Update.apply_of_not_mem (free : column ∉ u.sets.map Assignment.column) :
    u.apply s values t row column = row column := by
  rw [Update.apply]
  split
  · exact write_of_not_mem free
  · rfl

omit [DecidableEq T] in
/-- Rows that have the same values in the columns clash in them alike. -/
lemma clash_congr {r r' : Row V} (same : ∀ c ∈ cs, row c = r c ∧ row' c = r' c) :
    clash cs row row' = clash cs r r' := by
  rw [Bool.eq_iff_iff, clash, clash, List.all_eq_true, List.all_eq_true]
  apply forall₂_congr
  intro c mem
  rw [(same c mem).1, (same c mem).2]

/-- The rows after a statement are valid just when no selected row loses a required value, if the statement
    sets no unique column. -/
lemma Update.valid_iff (nodup : (u.sets.map Assignment.column).Nodup)
    (free : ∀ cs ∈ t.schema.unique, ∀ c ∈ cs, c ∉ u.sets.map Assignment.column) :
    t.schema.Valid (t.rows.map (u.apply s values t)) ↔ u.Fills s values t := by
  constructor
  · intro valid row mem selected a inside required
    have filled := valid.filled _ (List.mem_map_of_mem mem) a.column required
    rw [Update.apply, if_pos selected, write_of_mem nodup inside] at filled
    exact filled
  · intro fills
    constructor
    · rw [List.forall_mem_map]
      intro row mem c required
      rw [Update.apply]
      split
      · next selected =>
        by_cases set : c ∈ u.sets.map Assignment.column
        · obtain ⟨a, inside, rfl⟩ := List.mem_map.1 set
          rw [write_of_mem nodup inside]
          exact fills row mem selected a inside required
        · rw [write_of_not_mem set]
          exact t.valid.filled row mem c required
      · exact t.valid.filled row mem c required
    · intro cs unique
      rw [List.pairwise_map]
      apply (t.valid.distinct cs unique).imp
      intro row row' apart
      rw [← apart]
      apply clash_congr
      intro c inside
      exact ⟨apply_of_not_mem (free cs unique c inside), apply_of_not_mem (free cs unique c inside)⟩

/-- A statement that fits and sets no unique column applies to every row, if the server reads the values and
    no selected row loses a required one. -/
theorem Update.exec_of_fits (fits : u.Fits values t)
    (free : ∀ cs ∈ t.schema.unique, ∀ c ∈ cs, c ∉ u.sets.map Assignment.column) (reads : u.Reads s values t)
    (fills : u.Fills s values t) :
    ∃ valid, u.exec s values t =
      some (⟨t.schema, t.rows.map (u.apply s values t), valid⟩,
        (t.rows.filter (u.selects s values t)).map fun row =>
          u.returning.map fun column => (column, u.write s values t row column)) := by
  have valid := (valid_iff fits.2.2.1 free).2 fills
  exact ⟨valid, by rw [Update.exec, if_pos ⟨fits, reads⟩, dif_pos valid]⟩

/-- A statement that sets no unique column runs only where the server reads the values and no selected row
    loses a required one. -/
theorem Update.accepted_of_exec (free : ∀ cs ∈ t.schema.unique, ∀ c ∈ cs, c ∉ u.sets.map Assignment.column)
    {r : Table T V × List (List (String × Option V))} (ran : u.exec s values t = some r) :
    u.Reads s values t ∧ u.Fills s values t := by
  rw [Update.exec] at ran
  split at ran
  · next accepted =>
    split at ran
    · next valid => exact ⟨accepted.2, (valid_iff accepted.1.2.2.1 free).1 valid⟩
    · cases ran
  · cases ran

/-- A statement that does not fit is an error. -/
lemma Update.exec_of_not_fits (unfit : ¬ u.Fits values t) : u.exec s values t = none :=
  if_neg fun accepted => unfit accepted.1

end

/-! ## Reading a statement back -/

/-- A list is cut at the first occurrence of a token. -/
lemma cut_append (free : x ∉ ts) : cut x (ts ++ x :: us) = some (ts, us) := by
  induction ts with
  | nil => simp [cut]
  | cons y ts ih =>
    have other : y ≠ x := fun eq => free (eq ▸ List.mem_cons_self)
    simp [cut, other, ih fun mem => free (List.mem_cons_of_mem y mem)]

/-- A numeral is no reserved word. -/
lemma repr_not_mem_reserved : n.repr ∉ reserved := by
  intro mem
  -- a numeral has only digits, and every reserved word has a letter
  have letters : ∀ w ∈ reserved, ∃ c ∈ w.toList, c.isDigit = false := by decide
  obtain ⟨c, inside, letter⟩ := letters _ mem
  rw [isDigit_of_mem_repr inside] at letter
  cases letter

/-- A source is read back. -/
lemma parseSource_tokens : parseSource c.tokens = some c := by
  cases c with
  | param n json => cases json <;> simp [Source.tokens, parseSource]
  | now => rfl

/-- An assignment is read back. -/
lemma parseAssignment_tokens : parseAssignment a.tokens = some a := by
  simp [Assignment.tokens, parseAssignment, parseSource_tokens]

/-- A conjunct is read back. -/
lemma parseTest_tokens : parseTest e.tokens = some e := by
  cases e <;> simp [Test.tokens, parseTest]

/-- The names of a statement are none of the words that part it. -/
def Update.Named (u : Update) : Prop := u.table ∉ reserved ∧ ∀ c ∈ u.columns, c ∉ reserved

instance : Decidable u.Named := inferInstanceAs (Decidable (_ ∧ _))

/-- A source has no reserved word in it. -/
lemma not_mem_source {w : String} (mem : w ∈ reserved) : Token.word w ∉ c.tokens := by
  have number (n : Nat) : w ≠ n.repr := by
    rintro rfl
    exact repr_not_mem_reserved mem
  have other : w ≠ "now" ∧ w ≠ "jsonb" := by
    constructor <;> rintro rfl <;> revert mem <;> decide
  cases c with
  | param n json => cases json <;> simp [Source.tokens, number, other]
  | now => simp [Source.tokens, other]

/-- A source has no comma in it. -/
lemma comma_not_mem_source : Token.mark ',' ∉ c.tokens := by
  cases c with
  | param n json => cases json <;> simp [Source.tokens]
  | now => simp [Source.tokens]

/-- An assignment of another column has no reserved word in it. -/
lemma not_mem_assignment {w : String} (mem : w ∈ reserved) (named : a.column ∉ reserved) :
    Token.word w ∉ a.tokens := by
  have other : w ≠ a.column := by
    rintro rfl
    exact named mem
  simp [Assignment.tokens, other, not_mem_source mem]

/-- A conjunct on another column has no reserved word in it. -/
lemma not_mem_test {w : String} (mem : w ∈ reserved) (named : e.column ∉ reserved) :
    Token.word w ∉ e.tokens := by
  have other : w ≠ e.column := by
    rintro rfl
    exact named mem
  have number (n : Nat) : w ≠ n.repr := by
    rintro rfl
    exact repr_not_mem_reserved mem
  have any : w ≠ "ANY" := by
    rintro rfl
    revert mem
    decide
  cases e <;> simp_all [Test.tokens, Test.column]

/-- A token that is in no piece and is not the separator is not in the joined pieces. -/
lemma not_mem_intercalate {y : Token} {ls : List (List Token)} (free : ∀ l ∈ ls, x ∉ l) (other : x ≠ y) :
    x ∉ [y].intercalate ls := by
  induction ls with
  | nil => simp
  | cons l ls ih =>
    obtain ⟨here, later⟩ := List.forall_mem_cons.1 free
    cases ls with
    | nil => simpa using here
    | cons l' ls =>
      rw [List.intercalate_cons_cons]
      simp [here, other, ih later]

/-- A statement is read back from its tokens. -/
theorem parse_tokens (named : u.Named) (sets : u.sets ≠ []) (tests : u.tests ≠ [])
    (returning : u.returning ≠ []) : parse u.tokens = some u := by
  obtain ⟨table, columns⟩ := named
  simp only [Update.columns, List.mem_append, or_imp, forall_and, List.forall_mem_map] at columns
  have noSet : Token.word "SET" ∉ [Token.word "UPDATE", .word u.table] := by
    have other : "SET" ≠ u.table := by
      intro eq
      exact table (eq ▸ by decide)
    simp [other]
  have noWhere : Token.word "WHERE" ∉ [Token.mark ','].intercalate (u.sets.map Assignment.tokens) := by
    apply not_mem_intercalate _ (by decide)
    rw [List.forall_mem_map]
    exact fun a mem => not_mem_assignment (by decide) (columns.1.1 a mem)
  have noReturning :
      Token.word "RETURNING" ∉ [Token.word "AND"].intercalate (u.tests.map Test.tokens) := by
    apply not_mem_intercalate _ (by decide)
    rw [List.forall_mem_map]
    exact fun e mem => not_mem_test (by decide) (columns.1.2 e mem)
  have splitSets : ([Token.mark ','].intercalate (u.sets.map Assignment.tokens)).splitOn (.mark ',') =
      u.sets.map Assignment.tokens := by
    apply List.splitOn_intercalate _ _ (by simpa using sets)
    rw [List.forall_mem_map]
    intro a mem
    simp [Assignment.tokens, comma_not_mem_source]
  have splitTests : ([Token.word "AND"].intercalate (u.tests.map Test.tokens)).splitOn (.word "AND") =
      u.tests.map Test.tokens := by
    apply List.splitOn_intercalate _ _ (by simpa using tests)
    rw [List.forall_mem_map]
    exact fun e mem => not_mem_test (by decide) (columns.1.2 e mem)
  have splitReturning :
      ([Token.mark ','].intercalate (u.returning.map fun c => [Token.word c])).splitOn (.mark ',') =
        u.returning.map fun c => [Token.word c] := by
    apply List.splitOn_intercalate _ _ (by simpa using returning)
    rw [List.forall_mem_map]
    intro c mem
    simp
  have parts : u.tokens = [.word "UPDATE", .word u.table] ++ .word "SET" ::
      ([Token.mark ','].intercalate (u.sets.map Assignment.tokens) ++ .word "WHERE" ::
        ([Token.word "AND"].intercalate (u.tests.map Test.tokens) ++ .word "RETURNING" ::
          [Token.mark ','].intercalate (u.returning.map fun c => [Token.word c]))) := by
    simp [Update.tokens]
  have read₁ := Data.mapM_map (l := u.sets) fun a _ => parseAssignment_tokens (a := a)
  have read₂ := Data.mapM_map (l := u.tests) fun e _ => parseTest_tokens (e := e)
  have read₃ := Data.mapM_map (l := u.returning) (f := parseColumn) (g := fun c => [Token.word c]) fun c _ => rfl
  rw [parts, parse, cut_append noSet, Option.bind_eq_bind, Option.bind_some]
  simp [cut_append noWhere, cut_append noReturning, splitSets, splitTests, splitReturning, read₁, read₂, read₃]

end AvaSettle.Sql
