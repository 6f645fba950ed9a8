import AvaSettle.Sql.Update

/-!
# Insertions and selections

The statements `INSERT … VALUES … ON CONFLICT … DO NOTHING RETURNING …` and `SELECT … FROM … WHERE …` with
positional parameters, over a table with typed columns: how their tokens are read, and what they do. How a
bound value is read as the value of a column is a parameter.
-/

namespace AvaSettle.Sql

/-! ## Statements -/

/-- A placeholder `$n`, with `::jsonb` after it or not. -/
structure Placeholder where
  number : Nat
  json : Bool
  deriving DecidableEq, Repr

/-- An insertion of one row, unless it conflicts with another in some columns. -/
structure Insert where
  table : String
  columns : List String
  values : List Placeholder
  conflict : List String
  returning : List String
  deriving DecidableEq, Repr

/-- A conjunct: `column = $n` or `column IS NOT DISTINCT FROM $n`. -/
inductive Comparison : Type where
  | eq (column : String) (n : Nat)
  | notDistinct (column : String) (n : Nat)
  deriving DecidableEq, Repr

/-- A selection of the rows of a table. -/
structure Select where
  columns : List String
  table : String
  tests : List Comparison
  deriving DecidableEq, Repr

/-- The column of a conjunct. -/
def Comparison.column : Comparison → String
  | .eq column _ => column
  | .notDistinct column _ => column

/-- The placeholder of a conjunct. -/
def Comparison.placeholder : Comparison → Nat
  | .eq _ n => n
  | .notDistinct _ n => n

/-! ## Tokens -/

/-- Names that are separated by commas. -/
def names (l : List String) : List Token := [Token.mark ','].intercalate (l.map fun c => [.word c])

/-- The tokens of a placeholder. -/
def Placeholder.tokens (p : Placeholder) : List Token := (Source.param p.number p.json).tokens

/-- The tokens of an insertion. -/
def Insert.tokens (i : Insert) : List Token :=
  [.word "INSERT", .word "INTO", .word i.table, .mark '('] ++ names i.columns ++ .mark ')' ::
    ([.word "VALUES", .mark '('] ++ [Token.mark ','].intercalate (i.values.map Placeholder.tokens) ++ .mark ')' ::
      ([.word "ON", .word "CONFLICT", .mark '('] ++ names i.conflict ++ .mark ')' ::
        ([.word "DO", .word "NOTHING", .word "RETURNING"] ++ names i.returning)))

/-- The tokens of a conjunct. -/
def Comparison.tokens : Comparison → List Token
  | .eq column n => [.word column, .mark '=', .mark '$', .word (n.repr)]
  | .notDistinct column n =>
    [.word column, .word "IS", .word "NOT", .word "DISTINCT", .word "FROM", .mark '$', .word (n.repr)]

/-- The tokens of a selection. -/
def Select.tokens (q : Select) : List Token :=
  [.word "SELECT"] ++ names q.columns ++ .word "FROM" ::
    ([.word q.table, .word "WHERE"] ++ [Token.word "AND"].intercalate (q.tests.map Comparison.tokens))

/-- What follows the given tokens. -/
def expect (p ts : List Token) : Option (List Token) :=
  if p.isPrefixOf ts then some (ts.drop p.length) else none

/-- Reads names. -/
def parseNames (ts : List Token) : Option (List String) := (ts.splitOn (.mark ',')).mapM parseColumn

/-- Reads a placeholder. -/
def parsePlaceholder (ts : List Token) : Option Placeholder :=
  match parseSource ts with
  | some (.param n json) => some ⟨n, json⟩
  | _ => none

/-- Reads an insertion. -/
def parseInsert (ts : List Token) : Option Insert := do
  let ts ← expect [.word "INSERT", .word "INTO"] ts
  let (table, ts) ← cut (.mark '(') ts
  let (columns, ts) ← cut (.mark ')') ts
  let ts ← expect [.word "VALUES", .mark '('] ts
  let (values, ts) ← cut (.mark ')') ts
  let ts ← expect [.word "ON", .word "CONFLICT", .mark '('] ts
  let (conflict, ts) ← cut (.mark ')') ts
  let returning ← expect [.word "DO", .word "NOTHING", .word "RETURNING"] ts
  some {
    table := ← parseColumn table
    columns := ← parseNames columns
    values := ← (values.splitOn (.mark ',')).mapM parsePlaceholder
    conflict := ← parseNames conflict
    returning := ← parseNames returning }

/-- Reads a conjunct. -/
def parseComparison : List Token → Option Comparison
  | [.word column, .mark '=', .mark '$', .word n] => (numeral n).map fun n => .eq column n
  | [.word column, .word is, .word not, .word distinct, .word from', .mark '$', .word n] =>
    if [is, not, distinct, from'] = ["IS", "NOT", "DISTINCT", "FROM"] then
      (numeral n).map fun n => .notDistinct column n
    else none
  | _ => none

/-- Reads a selection. -/
def parseSelect (ts : List Token) : Option Select := do
  let ts ← expect [.word "SELECT"] ts
  let (columns, ts) ← cut (.word "FROM") ts
  let (table, tests) ← cut (.word "WHERE") ts
  some {
    columns := ← parseNames columns
    table := ← parseColumn table
    tests := ← (tests.splitOn (.word "AND")).mapM parseComparison }

/-! ## Meaning -/

section
variable {T P V : Type} [DecidableEq T] [DecidableEq V]

/-- The value of a placeholder for a column. -/
def Placeholder.value (p : Placeholder) (r : Reading T P V) (values : List P) (type : T) : Option (Option V) :=
  if p.json && type ≠ r.jsonb then none else values[p.number - 1]?.bind (r.input type)

namespace Insert
variable (i : Insert) (s : Schema T) (r : Reading T P V) (values : List P)

/-- The statement gives a value for every column, from as many placeholders as values are bound. -/
def Fits : Prop :=
  i.table = s.table ∧ i.columns.Nodup ∧ (∀ c ∈ i.columns, c ∈ s.names) ∧ (∀ c ∈ s.names, c ∈ i.columns) ∧
    i.values.length = i.columns.length ∧ (∀ p ∈ i.values, 1 ≤ p.number ∧ p.number ≤ values.length) ∧
    (∀ n < values.length, n + 1 ∈ i.values.map Placeholder.number) ∧ i.conflict ∈ s.unique ∧
    ∀ c ∈ i.returning, c ∈ s.names

instance : Decidable (i.Fits s values) := inferInstanceAs (Decidable (_ ∧ _ ∧ _ ∧ _ ∧ _ ∧ _ ∧ _ ∧ _ ∧ _))

/-- The values of the columns. -/
def cells : Option (List (String × Option V)) :=
  (i.columns.zip i.values).mapM fun p =>
    (s.type p.1).bind fun type => (p.2.value r values type).map fun v => (p.1, v)

/-- Runs the statement: the rows afterwards and the records it returns, unless the server reports an error.
    What the row refers to in other tables has to be there. -/
def exec (references : Row V → Bool) (rows : List (Row V)) :
    Option (List (Row V) × List (List (String × Option V))) :=
  if i.Fits s values then
    (i.cells s r values).bind fun cells =>
      let row : Row V := fun c => (cells.lookup c).join
      if (s.required.all fun c => (row c).isSome) && references row then
        if rows.any (clash i.conflict row) then some (rows, [])
        else if s.unique.any fun cs => rows.any (clash cs row) then none
        else some (rows ++ [row], [i.returning.map fun c => (c, row c)])
      else none
  else none

end Insert

/-- The row satisfies a conjunct, for the value of the placeholder. -/
def Comparison.holds (row : Row V) (v : Option V) : Comparison → Bool
  | .eq column _ => v.isSome && decide (row column = v)
  | .notDistinct column _ => decide (row column = v)

namespace Select
variable (q : Select) (s : Schema T) (r : Reading T P V) (values : List P)

/-- The statement names columns of the table, and has as many placeholders as values are bound. -/
def Fits : Prop :=
  q.table = s.table ∧ (∀ c ∈ q.columns, c ∈ s.names) ∧ (∀ c ∈ q.tests, c.column ∈ s.names) ∧
    (∀ c ∈ q.tests, 1 ≤ c.placeholder ∧ c.placeholder ≤ values.length) ∧
    ∀ n < values.length, n + 1 ∈ q.tests.map Comparison.placeholder

instance : Decidable (q.Fits s values) := inferInstanceAs (Decidable (_ ∧ _ ∧ _ ∧ _ ∧ _))

/-- The conjuncts with the values that are compared with. -/
def compared : Option (List (Comparison × Option V)) :=
  q.tests.mapM fun c =>
    (s.type c.column).bind fun type => (values[c.placeholder - 1]?.bind (r.input type)).map fun v => (c, v)

/-- The records that the statement returns, unless the server reports an error. -/
def exec (rows : List (Row V)) : Option (List (List (String × Option V))) :=
  if q.Fits s values then
    (q.compared s r values).map fun tests =>
      (rows.filter fun row => tests.all fun t => t.1.holds row t.2).map fun row =>
        q.columns.map fun c => (c, row c)
  else none

end Select

end

/-! ## Reading a statement back -/

variable {p ts : List Token} {l : List String} {i : Insert} {q : Select} {x : Placeholder} {c : Comparison}

/-- What is expected is taken off the front. -/
lemma expect_append : expect p (p ++ ts) = some ts := by
  rw [expect, if_pos (List.isPrefixOf_iff_prefix.2 (List.prefix_append p ts)), List.drop_left]

/-- Names have no bracket between them. -/
lemma close_notMem_names : Token.mark ')' ∉ names l := by
  apply not_mem_intercalate _ (by decide)
  rw [List.forall_mem_map]
  intro c _ mem
  cases List.mem_singleton.1 mem

/-- A word that is no name is not among them. -/
lemma word_notMem_names {w : String} (free : w ∉ l) : Token.word w ∉ names l := by
  apply not_mem_intercalate _ (by simp)
  rw [List.forall_mem_map]
  intro c inside mem
  cases List.mem_singleton.1 mem
  exact free inside

/-- Names are read back. -/
lemma parseNames_names (nonempty : l ≠ []) : parseNames (names l) = some l := by
  have pieces : (names l).splitOn (.mark ',') = l.map fun c => [Token.word c] := by
    apply List.splitOn_intercalate _ _ (by simpa using nonempty)
    rw [List.forall_mem_map]
    intro c _ mem
    cases List.mem_singleton.1 mem
  rw [parseNames, pieces]
  exact Data.mapM_map fun c _ => rfl

/-- A placeholder is read back. -/
lemma parsePlaceholder_tokens : parsePlaceholder x.tokens = some x := by
  rw [parsePlaceholder, Placeholder.tokens, parseSource_tokens]

/-- A conjunct is read back. -/
lemma parseComparison_tokens : parseComparison c.tokens = some c := by
  cases c <;> simp [Comparison.tokens, parseComparison]

/-- A placeholder has no bracket in it. -/
lemma close_notMem_placeholder : Token.mark ')' ∉ x.tokens := by
  obtain ⟨n, json⟩ := x
  cases json <;> simp [Placeholder.tokens, Source.tokens]

/-- An insertion is read back from its tokens. -/
theorem parseInsert_tokens (columns : i.columns ≠ []) (values : i.values ≠ []) (conflict : i.conflict ≠ [])
    (returning : i.returning ≠ []) : parseInsert i.tokens = some i := by
  have noOpen : Token.mark '(' ∉ [Token.word i.table] := by simp
  have noClose : Token.mark ')' ∉ [Token.mark ','].intercalate (i.values.map Placeholder.tokens) := by
    apply not_mem_intercalate _ (by decide)
    rw [List.forall_mem_map]
    exact fun x _ => close_notMem_placeholder
  have splitValues : ([Token.mark ','].intercalate (i.values.map Placeholder.tokens)).splitOn (.mark ',') =
      i.values.map Placeholder.tokens := by
    apply List.splitOn_intercalate _ _ (by simpa using values)
    rw [List.forall_mem_map]
    exact fun x _ => comma_not_mem_source
  have read := Data.mapM_map (l := i.values) fun x _ => parsePlaceholder_tokens (x := x)
  have start : i.tokens = [.word "INSERT", .word "INTO"] ++ ([.word i.table] ++ .mark '(' ::
      (names i.columns ++ .mark ')' :: ([.word "VALUES", .mark '('] ++
        ([Token.mark ','].intercalate (i.values.map Placeholder.tokens) ++ .mark ')' ::
          ([.word "ON", .word "CONFLICT", .mark '('] ++ (names i.conflict ++ .mark ')' ::
            ([.word "DO", .word "NOTHING", .word "RETURNING"] ++ names i.returning))))))) := by
    simp [Insert.tokens]
  rw [start, parseInsert]
  simp only [expect_append, cut_append noOpen, cut_append (close_notMem_names (l := i.columns)),
    cut_append noClose, cut_append (close_notMem_names (l := i.conflict)), parseNames_names columns,
    parseNames_names conflict, parseNames_names returning, splitValues, read, parseColumn, Option.bind_eq_bind,
    Option.bind_some]

/-- A selection is read back from its tokens. -/
theorem parseSelect_tokens (columns : q.columns ≠ []) (tests : q.tests ≠ []) (noFrom : "FROM" ∉ q.columns)
    (noWhere : q.table ≠ "WHERE") (noAnd : ∀ c ∈ q.tests, c.column ≠ "AND") : parseSelect q.tokens = some q := by
  have table : Token.word "WHERE" ∉ [Token.word q.table] := by simpa using noWhere.symm
  have splitTests : ([Token.word "AND"].intercalate (q.tests.map Comparison.tokens)).splitOn (.word "AND") =
      q.tests.map Comparison.tokens := by
    apply List.splitOn_intercalate _ _ (by simpa using tests)
    rw [List.forall_mem_map]
    intro c mem
    have number (n : Nat) : "AND" ≠ n.repr := by
      intro eq
      apply repr_not_mem_reserved (n := n)
      rw [← eq]
      decide
    have column := noAnd c mem
    cases c <;> simpa [Comparison.tokens, Comparison.column, number] using Ne.symm column
  have read := Data.mapM_map (l := q.tests) fun c _ => parseComparison_tokens (c := c)
  have start : q.tokens = [.word "SELECT"] ++ (names q.columns ++ .word "FROM" :: ([.word q.table] ++
      .word "WHERE" :: [Token.word "AND"].intercalate (q.tests.map Comparison.tokens))) := by
    simp [Select.tokens]
  rw [start, parseSelect]
  simp only [expect_append, cut_append (word_notMem_names noFrom), cut_append table, parseNames_names columns,
    splitTests, read, parseColumn, Option.bind_eq_bind, Option.bind_some]

/-! ## Runs -/

section
variable {T P V : Type} [DecidableEq T] [DecidableEq V] {s : Schema T} {r : Reading T P V} {values : List P}
  {row : Row V} {rows : List (Row V)}

omit [DecidableEq V] in
/-- What is paired with the names is found by them. -/
lemma lookup_map {f : String → Option V} {column : String} :
    ((l.map fun c => (c, f c)).lookup column).join = if column ∈ l then f column else none := by
  induction l with
  | nil => rfl
  | cons c l ih =>
    by_cases same : column = c
    · subst same
      simp
    · rw [List.map_cons, List.lookup_cons, beq_false_of_ne same, ih]
      simp [same]

omit [DecidableEq V] in
/-- The values of the columns are those of a row, if each of them is. -/
lemma Insert.cells_eq (long : i.values.length = i.columns.length)
    (read : ∀ p ∈ i.columns.zip i.values,
      ((s.type p.1).bind fun type => p.2.value r values type) = some (row p.1)) :
    i.cells s r values = some (i.columns.map fun c => (c, row c)) := by
  have columns : i.columns.map (fun c => (c, row c)) =
      (i.columns.zip i.values).map fun p => (p.1, row p.1) := by
    have first : (i.columns.zip i.values).map Prod.fst = i.columns := List.map_fst_zip (Nat.le_of_eq long.symm)
    rw [← first, List.map_map, first]
    rfl
  rw [columns]
  refine Data.mapM_eq fun p mem => ?_
  obtain ⟨type, typed, value⟩ := Option.bind_eq_some_iff.1 (read p mem)
  rw [typed, Option.bind_some, value]
  rfl

/-- An insertion that fits adds the row that it reads, if the row has the required columns and conflicts with
    none in unique columns. -/
theorem Insert.exec_of_read (fits : i.Fits s values)
    (read : ∀ p ∈ i.columns.zip i.values,
      ((s.type p.1).bind fun type => p.2.value r values type) = some (row p.1))
    (blank : ∀ c, c ∉ i.columns → row c = none) (required : ∀ c ∈ s.required, (row c).isSome)
    {references : Row V → Bool} (refers : references row = true)
    (fresh : ∀ cs ∈ s.unique, ∀ row' ∈ rows, clash cs row row' = false) :
    i.exec s r values references rows = some (rows ++ [row], [i.returning.map fun c => (c, row c)]) := by
  have cells := cells_eq fits.2.2.2.2.1 read
  have whole : (fun c => ((i.columns.map fun c => (c, row c)).lookup c).join) = row := by
    funext c
    rw [lookup_map]
    split
    · rfl
    · next off => exact (blank c off).symm
  have noClash (cs : List String) (mem : cs ∈ s.unique) : rows.any (clash cs row) = false := by
    rw [List.any_eq_false]
    intro row' inside
    rw [fresh cs mem row' inside]
    exact Bool.false_ne_true
  have noDuplicate : (s.unique.any fun cs => rows.any (clash cs row)) = false := by
    rw [List.any_eq_false]
    intro cs mem
    rw [noClash cs mem]
    exact Bool.false_ne_true
  have allowed : (s.required.all (fun c => (row c).isSome) && references row) = true :=
    Bool.and_eq_true_iff.2 ⟨List.all_eq_true.2 required, refers⟩
  rw [Insert.exec, if_pos fits, cells, Option.bind_some, whole, if_pos allowed, noClash _ fits.2.2.2.2.2.2.2.1,
    noDuplicate]
  rfl

omit [DecidableEq T] [DecidableEq V] in
/-- The conjuncts are paired with the values that they compare with. -/
lemma Select.compared_eq {f : Comparison → Option V} (read : ∀ c ∈ q.tests,
      ((s.type c.column).bind fun type => values[c.placeholder - 1]?.bind (r.input type)) = some (f c)) :
    q.compared s r values = some (q.tests.map fun c => (c, f c)) := by
  refine Data.mapM_eq fun c mem => ?_
  obtain ⟨type, typed, value⟩ := Option.bind_eq_some_iff.1 (read c mem)
  rw [typed, Option.bind_some, value]
  rfl

omit [DecidableEq T] in
/-- A selection that fits returns a row that is there once, if it is the only one that satisfies the conjuncts. -/
theorem Select.exec_of_unique {f : Comparison → Option V} (fits : q.Fits s values)
    (read : ∀ c ∈ q.tests,
      ((s.type c.column).bind fun type => values[c.placeholder - 1]?.bind (r.input type)) = some (f c))
    (holds : ∀ c ∈ q.tests, c.holds row (f c) = true)
    (others : ∀ row' ∈ rows, ∃ c ∈ q.tests, c.holds row' (f c) = false) :
    q.exec s r values (rows ++ [row]) = some [q.columns.map fun c => (c, row c)] := by
  have none : rows.filter (fun row => (q.tests.map fun c => (c, f c)).all fun t => t.1.holds row t.2) = [] := by
    rw [List.filter_eq_nil_iff]
    intro row' mem
    obtain ⟨c, inside, fails⟩ := others row' mem
    rw [List.all_map, Bool.not_eq_true, List.all_eq_false]
    exact ⟨c, inside, by simp [fails]⟩
  have one : [row].filter (fun row => (q.tests.map fun c => (c, f c)).all fun t => t.1.holds row t.2) = [row] := by
    rw [List.filter_eq_self]
    intro row' mem
    rw [List.mem_singleton.1 mem, List.all_map, List.all_eq_true]
    exact holds
  rw [Select.exec, if_pos fits, compared_eq read, Option.map_some, List.filter_append, none, one]
  rfl

end

end AvaSettle.Sql
