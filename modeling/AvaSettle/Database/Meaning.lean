import AvaSettle.Data.Joined
import AvaSettle.Database.Patch

/-!
# What an update means

The text that `update` issues is read back as one statement: it sets the column of each defined key of
the patch from the placeholder at which the value of the key is bound, and tests each list of the guard
against its own placeholder. So the statement changes a row exactly as the patch says, where the row has
the id and satisfies the guard, and leaves it alone elsewhere, as far as the server accepts the values. The
one gap is a key that every object inherits: it is not whitelisted and yet it is found, and the statement
goes out with no such column.
-/

namespace AvaSettle.Database
open Sql (Row Source Assignment Test Update Token IsWord reserved lex Opens Closes lex_append_of_opens
  lex_append_of_closes lex_word isWord_repr lex_intercalate lex_separated parse_tokens)

variable {J V : Type}

/-! ## Updates that mean their patches -/

/-- The keys of a patch whose values are defined. -/
def defined (entries : List (String × Option J)) : List (String × J) :=
  entries.filterMap fun p => p.2.map fun v => (p.1, v)

/-- The lists of a guard that are given. -/
def given (guards : List (String × Option (List J))) : List (String × List J) :=
  guards.filterMap fun g => g.2.map fun l => (g.1, l)

/-- Every defined key of the patch is whitelisted. -/
def Ledger.Whitelisted (l : Ledger) (patch : PatchObject J) : Prop :=
  ∀ p ∈ defined patch.entries, (l.patchColumns.lookup p.1).isSome

/-- A value that is bound for a column, as the server reads it: `none` is an error, and the value may be
    `NULL`. -/
def Ledger.read (l : Ledger) (d : Driver J V) (column : String) (v : J) : Option (Option V) :=
  (l.schema.type column).bind fun type => d.input type v

/-- What the server reads for a column when a value of the patch is sent to it. -/
def Ledger.cell (l : Ledger) (d : Driver J V) (m : PatchColumn) (v : J) : Option (Option V) :=
  match d.encode m.json v with
  | .ok v => l.read d m.column v
  | .error _ => none

/-- The row has the id and satisfies every given list of the guard. -/
structure Ledger.Selected (l : Ledger) (d : Driver J V) (id : J) (guards : List (String × Option (List J)))
    (row : Row V) : Prop where
  id : ∃ v, row "id" = some v ∧ l.read d "id" id = some (some v)
  guards : ∀ g ∈ given guards, ∃ v, row g.1 = some v ∧ ∃ x ∈ g.2, l.read d g.1 x = some (some v)

/-- The row after the patch: the columns of its defined keys have its values, the time of the update is
    that of the statement, and no other column changes. -/
structure Ledger.Patched (l : Ledger) (d : Driver J V) (patch : PatchObject J) (before after : Row V) :
    Prop where
  written : ∀ p ∈ defined patch.entries, ∀ m, l.patchColumns.lookup p.1 = some m →
    l.cell d m p.2 = some (after m.column)
  touched : after "updated_at" = some d.now
  kept : ∀ column, column ≠ "updated_at" →
    (∀ p ∈ defined patch.entries, ∀ m, l.patchColumns.lookup p.1 = some m → m.column ≠ column) →
    after column = before column

/-- The table and the result after an update that changes the selected rows as the patch says. -/
structure Ledger.Updated (l : Ledger) (d : Driver J V) (id : J) (patch : PatchObject J)
    (guards : List (String × Option (List J))) (before after : List (Row V))
    (row : Option (List (String × Option V))) : Prop where
  rows : List.Forall₂ (fun r r' =>
    (l.Selected d id guards r → l.Patched d patch r r') ∧ (¬ l.Selected d id guards r → r' = r)) before after
  found : ∀ r ∈ before, l.Selected d id guards r →
    ∃ r' ∈ after, l.Patched d patch r r' ∧ row = some (l.lines.flatten.map fun c => (c, r' c))
  null : (∀ r ∈ before, ¬ l.Selected d id guards r) → row = none

/-- An outcome of `update` that means the patch: where every defined key is whitelisted the selected rows
    are changed as the patch says, and else it is thrown before a statement is issued. -/
def Ledger.Means [DecidableEq V] (l : Ledger) (d : Driver J V) (id : J) (patch : PatchObject J)
    (guards : List (String × Option (List J))) (t : Sql.Table SqlType V) (o : Outcome V) : Prop :=
  (l.Whitelisted patch → ∃ after row, o = .returned after row ∧
    l.Updated d id patch guards t.rows after.rows row) ∧
  (¬ l.Whitelisted patch → ∃ e, o = .threw e)

/-- The tables of a ledger. -/
def Ledger.Stored (l : Ledger) (V : Type) [DecidableEq V] : Type :=
  { t : Sql.Table SqlType V // t.schema = l.schema }

/-- The values of the patch can be sent, and the server accepts them: it reads each value, the id and the
    members of the lists as values of their columns, and none is `NULL` for a required column of a selected
    row. -/
structure Ledger.Accepts (l : Ledger) (d : Driver J V) (id : J) (patch : PatchObject J)
    (guards : List (String × Option (List J))) (rows : List (Row V)) : Prop where
  key : (l.read d "id" id).isSome
  lists : ∀ g ∈ given guards, ∀ x ∈ g.2, (l.read d g.1 x).isSome
  values : ∀ p ∈ defined patch.entries, ∀ m, l.patchColumns.lookup p.1 = some m → (l.cell d m p.2).isSome
  required : ∀ row ∈ rows, l.Selected d id guards row → ∀ p ∈ defined patch.entries,
    ∀ m, l.patchColumns.lookup p.1 = some m → m.column ∈ l.schema.required → (l.cell d m p.2).join.isSome

/-- Some defined key of the patch is neither whitelisted nor inherited by every object. -/
def Ledger.Unknown (l : Ledger) (patch : PatchObject J) : Prop :=
  ∃ p ∈ defined patch.entries, l.patchColumns.lookup p.1 = none ∧ p.1 ∉ objectPrototype

/-- `JSON.stringify` throws on the value of some whitelisted key. -/
def Ledger.Unsendable (l : Ledger) (d : Driver J V) (patch : PatchObject J) : Prop :=
  ∃ p ∈ defined patch.entries, ∃ m, l.patchColumns.lookup p.1 = some m ∧ ∃ e, d.encode m.json p.2 = .error e

/-! ## The text -/

/-- The assignments of the values that are appended after the first `n`. -/
def assignments : Nat → List (PatchColumn × J) → List Assignment
  | _, [] => []
  | n, (m, _) :: ms => ⟨m.column, .param (n + 1) m.json⟩ :: assignments (n + 1) ms

/-- The texts of the assignments. -/
def setTexts : Nat → List (PatchColumn × J) → List String
  | _, [] => []
  | n, (m, _) :: ms =>
    (m.column ++ " = $" ++ toString (n + 1) ++ if m.json then "::jsonb" else "") :: setTexts (n + 1) ms

/-- The value that is bound for a column, where it can be sent. -/
def Driver.bound (d : Driver J V) (p : PatchColumn × J) : Param J :=
  match d.encode p.1.json p.2 with
  | .ok v => .one v
  | .error _ => .one p.2

/-- The conjuncts of the lists that are appended after the first `n` values. -/
def conjuncts : Nat → List (String × List J) → List Test
  | _, [] => []
  | n, (column, _) :: gs => .any column (n + 1) :: conjuncts (n + 1) gs

/-- The texts of the conjuncts. -/
def testTexts : Nat → List (String × List J) → List String
  | _, [] => []
  | n, (column, _) :: gs => (column ++ " = ANY($" ++ toString (n + 1) ++ ")") :: testTexts (n + 1) gs

/-- The columns found for the defined keys, with the values. -/
def resolved (columns : List (String × PatchColumn)) (entries : List (String × Option J)) :
    List (PatchColumn × J) :=
  (defined entries).filterMap fun p => (mapping columns p.1).map fun m => (m, p.2)

variable {d : Driver J V} {columns : List (String × PatchColumn)} {entries : List (String × Option J)}
  {sets : List String} {values : List (Param J)} {guards : List (String × Option (List J))} {text : String}
  {n : Nat} {ms : List (PatchColumn × J)} {gs : List (String × List J)} {m : PatchColumn} {key : String}

/-- A key without a value is not defined. -/
@[simp] lemma defined_cons_none : defined ((key, (none : Option J)) :: entries) = defined entries := rfl

/-- A key with a value is defined. -/
@[simp] lemma defined_cons_some {v : J} :
    defined ((key, some v) :: entries) = (key, v) :: defined entries := rfl

/-- A column that is found comes first. -/
lemma resolved_cons {v : J} (found : mapping columns key = some m) :
    resolved columns ((key, some v) :: entries) = (m, v) :: resolved columns entries := by
  simp [resolved, found]

/-- The values for the columns that are found can be sent. -/
def Driver.Sends (d : Driver J V) (ms : List (PatchColumn × J)) : Prop :=
  ∀ p ∈ ms, ∃ v, d.encode p.1.json p.2 = .ok v

/-- The loop appends the texts and the values of the defined keys, when all of them are found and their
    values can be sent. -/
lemma loop_of_found (found : ∀ p ∈ defined entries, (mapping columns p.1).isSome)
    (sends : d.Sends (resolved columns entries)) :
    buildPatchSet.loop d columns entries sets values =
      .ok (sets ++ setTexts values.length (resolved columns entries),
        values ++ (resolved columns entries).map d.bound) := by
  induction entries generalizing sets values with
  | nil => simp [buildPatchSet.loop, resolved, defined, setTexts]
  | cons entry entries ih =>
    obtain ⟨key, value⟩ := entry
    cases value with
    | none => exact ih found sends
    | some v =>
      rw [defined_cons_some, List.forall_mem_cons] at found
      obtain ⟨m, here⟩ := Option.isSome_iff_exists.1 found.1
      rw [resolved_cons here] at sends ⊢
      obtain ⟨w, encoded⟩ := sends _ List.mem_cons_self
      simp only at encoded
      simp only [buildPatchSet.loop, here, encoded]
      rw [ih found.2 fun p mem => sends p (List.mem_cons_of_mem _ mem)]
      simp [setTexts, Driver.bound, encoded]

/-- The loop throws at a defined key that is not found or whose value cannot be sent. -/
lemma loop_of_failing (sets : List String) (values : List (Param J))
    (failing : ∃ p ∈ defined entries, ∀ m, mapping columns p.1 = some m → ∃ e, d.encode m.json p.2 = .error e) :
    ∃ e, buildPatchSet.loop d columns entries sets values = .error e := by
  induction entries generalizing sets values with
  | nil =>
    obtain ⟨p, mem, _⟩ := failing
    cases mem
  | cons entry entries ih =>
    obtain ⟨key, value⟩ := entry
    cases value with
    | none => exact ih sets values failing
    | some v =>
      simp only [buildPatchSet.loop]
      cases here : mapping columns key with
      | none => exact ⟨_, rfl⟩
      | some m =>
        cases encoded : d.encode m.json v with
        | error e => exact ⟨e, by simp [encoded]⟩
        | ok w =>
          simp only [encoded]
          apply ih
          obtain ⟨p, mem, fails⟩ := failing
          rcases List.mem_cons.1 mem with rfl | mem
          · obtain ⟨e, error⟩ := fails m here
            rw [encoded] at error
            cases error
          · exact ⟨p, mem, fails⟩

/-- The conjuncts of the given lists are appended to the text, and the lists to the values. -/
lemma addGuards_eq : addGuards guards text values =
    (" AND ".intercalate (text :: testTexts values.length (given guards)),
      values ++ (given guards).map fun g => .many g.2) := by
  induction guards generalizing text values with
  | nil => simp [addGuards, given, testTexts]
  | cons guard guards ih =>
    obtain ⟨column, expected⟩ := guard
    cases expected with
    | none => exact ih
    | some expected =>
      have step : given ((column, some expected) :: guards) = (column, expected) :: given guards := rfl
      simp only [addGuards, ih, step, testTexts, List.map_cons]
      simp [String.append_assoc]

/-! ## Reading the text -/

/-- The text of an assignment is read as its tokens. -/
lemma lex_set (word : IsWord m.column) :
    lex (m.column ++ " = $" ++ toString (n + 1) ++ if m.json then "::jsonb" else "") =
      (⟨m.column, .param (n + 1) m.json⟩ : Assignment).tokens := by
  have number : lex (toString (n + 1)) = [.word (n + 1).repr] := lex_word isWord_repr
  have sign : lex " = $" = [.mark '=', .mark '$'] := by decide
  have closes : Closes (m.column ++ " = $") := Closes.append (by decide) (by decide)
  rw [lex_append_of_opens (by split <;> decide), lex_append_of_closes closes,
    lex_append_of_opens (by decide), lex_word word, number, sign]
  cases m.json
  · rfl
  · rfl

/-- The text of a conjunct is read as its tokens. -/
lemma lex_test {column : String} (word : IsWord column) :
    lex (column ++ " = ANY($" ++ toString (n + 1) ++ ")") = (Test.any column (n + 1)).tokens := by
  have number : lex (toString (n + 1)) = [.word (n + 1).repr] := lex_word isWord_repr
  have sign : lex " = ANY($" = [.mark '=', .word "ANY", .mark '(', .mark '$'] := by decide
  have closes : Closes (column ++ " = ANY($") := Closes.append (by decide) (by decide)
  rw [lex_append_of_opens (by decide), lex_append_of_closes closes, lex_append_of_opens (by decide),
    lex_word word, number, sign]
  rfl

/-- The texts of the assignments are read as their tokens. -/
lemma lex_setTexts (words : ∀ p ∈ ms, IsWord p.1.column) :
    (setTexts n ms).map lex = (assignments n ms).map Assignment.tokens := by
  induction ms generalizing n with
  | nil => rfl
  | cons p ms ih =>
    obtain ⟨here, later⟩ := List.forall_mem_cons.1 words
    simp only [setTexts, assignments, List.map_cons, lex_set here, ih later]

/-- The texts of the conjuncts are read as their tokens. -/
lemma lex_testTexts (words : ∀ g ∈ gs, IsWord g.1) :
    (testTexts n gs).map lex = (conjuncts n gs).map Test.tokens := by
  induction gs generalizing n with
  | nil => rfl
  | cons g gs ih =>
    obtain ⟨here, later⟩ := List.forall_mem_cons.1 words
    simp only [testTexts, conjuncts, List.map_cons, lex_test here, ih later]

/-- The text of the columns is read as their names. -/
lemma lex_columnList {lines : List (List String)} (words : ∀ line ∈ lines, line ≠ [] ∧ ∀ c ∈ line, IsWord c) :
    lex (columnList lines) = [Token.mark ','].intercalate (lines.flatten.map fun c => [.word c]) := by
  have line (l : List String) (words : ∀ c ∈ l, IsWord c) :
      lex (", ".intercalate l) = [Token.mark ','].intercalate (l.map fun c => [.word c]) := by
    rw [lex_intercalate (by decide) (by decide) (by decide),
      List.map_congr_left fun c mem => lex_word (words c mem)]
    rfl
  have start : lex "\n  " = [] := by decide
  have comma : lex ",\n  " = [.mark ','] := by decide
  have joined : (lines.map fun l => ", ".intercalate l).map lex =
      (lines.map (List.map fun c => [Token.word c])).map [Token.mark ','].intercalate := by
    rw [List.map_map, List.map_map]
    exact List.map_congr_left fun l mem => line l (words l mem).2
  have nonempty : ∀ ls ∈ lines.map (List.map fun c => [Token.word c]), ls ≠ [] := by
    rw [List.forall_mem_map]
    intro l mem
    simpa using (words l mem).1
  rw [columnList, lex_append_of_closes (by decide), start, List.nil_append,
    lex_intercalate (by decide) (by decide) (by decide), comma, joined, Data.intercalate_flatten nonempty,
    List.map_flatten]

/-- The statement that `update` issues for the columns found and the lists given. -/
def Ledger.statement (l : Ledger) (ms : List (PatchColumn × J)) (gs : List (String × List J)) : Update where
  table := l.table
  sets := assignments 1 ms ++ [⟨"updated_at", .now⟩]
  tests := .eq "id" 1 :: conjuncts (ms.length + 1) gs
  returning := l.lines.flatten

variable {l : Ledger}

/-- The columns that are returned are names. -/
lemma Ledger.word_of_line {line : List String} (mem : line ∈ l.lines) :
    line ≠ [] ∧ ∀ c ∈ line, IsWord c :=
  ⟨(l.returned.2 line mem).1, fun c inside => (l.words c ((l.returned.2 line mem).2 c inside)).1⟩

/-- The text of the statement is read as its tokens. -/
lemma lex_statement (sets : ∀ p ∈ ms, IsWord p.1.column) (tests : ∀ g ∈ gs, IsWord g.1) :
    lex ("UPDATE " ++ l.table ++ " SET " ++ ", ".intercalate (setTexts 1 ms ++ ["updated_at = now()"]) ++
      " WHERE " ++ " AND ".intercalate ("id = $1" :: testTexts (ms.length + 1) gs) ++
      " RETURNING " ++ columnList l.lines) = (l.statement ms gs).tokens := by
  have update : lex "UPDATE " = [.word "UPDATE"] := by decide
  have set : lex " SET " = [.word "SET"] := by decide
  have «where» : lex " WHERE " = [.word "WHERE"] := by decide
  have returning : lex " RETURNING " = [.word "RETURNING"] := by decide
  have touched : lex "updated_at = now()" = (⟨"updated_at", .now⟩ : Assignment).tokens := by decide
  have id : lex "id = $1" = (Test.eq "id" 1).tokens := by decide
  have comma : lex ", " = [.mark ','] := by decide
  have and : lex " AND " = [.word "AND"] := by decide
  have assigned : (setTexts 1 ms ++ ["updated_at = now()"]).map lex =
      (l.statement ms gs).sets.map Assignment.tokens := by
    rw [List.map_append, lex_setTexts sets, Ledger.statement, List.map_append, List.map_singleton, touched]
    rfl
  have tested : ("id = $1" :: testTexts (ms.length + 1) gs).map lex =
      (l.statement ms gs).tests.map Test.tokens := by
    rw [List.map_cons, lex_testTexts tests, id]
    rfl
  rw [lex_separated (by decide) (by decide) (by decide), lex_separated (by decide) (by decide) (by decide),
    lex_separated (by decide) (by decide) (by decide), lex_append_of_closes (by decide), update, set, «where»,
    returning, lex_word l.tableWord.1, lex_columnList fun line => l.word_of_line,
    lex_intercalate (by decide) (by decide) (by decide), lex_intercalate (by decide) (by decide) (by decide),
    comma, and, assigned, tested]
  simp [Update.tokens, Ledger.statement]

/-! ## Placeholders and values -/

/-- The assignments are to the columns found. -/
lemma assignments_columns : (assignments n ms).map Assignment.column = ms.map fun p => p.1.column := by
  induction ms generalizing n with
  | nil => rfl
  | cons p ms ih => simp [assignments, ih]

/-- The assignments take one placeholder each, in order. -/
lemma assignments_placeholders :
    (assignments n ms).flatMap (fun a => a.source.placeholders) = List.range' (n + 1) ms.length := by
  induction ms generalizing n with
  | nil => rfl
  | cons p ms ih =>
    have here : (Source.param (n + 1) p.1.json).placeholders = [n + 1] := rfl
    simp only [assignments, List.flatMap_cons, here, ih, List.length_cons, List.range'_succ]
    rfl

/-- The conjuncts test the columns of the lists. -/
lemma conjuncts_columns : (conjuncts n gs).map Test.column = gs.map Prod.fst := by
  induction gs generalizing n with
  | nil => rfl
  | cons g gs ih => simp [conjuncts, ih, Test.column]

/-- The conjuncts take one placeholder each, in order. -/
lemma conjuncts_placeholders : (conjuncts n gs).map Test.placeholder = List.range' (n + 1) gs.length := by
  induction gs generalizing n with
  | nil => rfl
  | cons g gs ih => simp [conjuncts, ih, Test.placeholder, List.range'_succ]

/-- A column that JSON texts are sent to has their type. -/
def Ledger.Typed (l : Ledger) (ms : List (PatchColumn × J)) : Prop :=
  ∀ p ∈ ms, ∀ type, l.schema.type p.1.column = some type → p.1.json = true → type = .jsonb

/-- Each assignment takes the value that was appended for its column. -/
lemma assignments_value (ms : List (PatchColumn × J)) (before after : List (Param J)) (length : before.length = n)
    (typed : l.Typed ms) (sends : d.Sends ms) :
    List.Forall₂ (fun a p => a.column = p.1.column ∧
      a.cell l.schema d.server (before ++ ms.map d.bound ++ after) = l.cell d p.1 p.2)
      (assignments n ms) ms := by
  induction ms generalizing n before with
  | nil => exact .nil
  | cons p ms ih =>
    obtain ⟨m, v⟩ := p
    have later := ih (n := n + 1) (before ++ [d.bound (m, v)]) (by simp [length])
      (fun p mem => typed p (List.mem_cons_of_mem _ mem)) fun p mem => sends p (List.mem_cons_of_mem _ mem)
    rw [List.append_assoc before, List.singleton_append, ← List.map_cons (f := d.bound)] at later
    apply List.Forall₂.cons _ later
    refine ⟨rfl, ?_⟩
    obtain ⟨w, encoded⟩ := sends _ List.mem_cons_self
    have here : (before ++ ((m, v) :: ms).map d.bound ++ after)[n]? = some (.one w) := by
      simp only at encoded
      simp [← length, Driver.bound, encoded]
    simp only at encoded
    simp only [Assignment.cell, Ledger.cell, encoded, Ledger.read]
    cases type : l.schema.type m.column with
    | none => rfl
    | some type =>
      simp only [Option.bind_some, Source.value, Nat.add_sub_cancel, here]
      rw [if_neg]
      · rfl
      · -- the cast fits the type of the column
        intro mismatch
        rw [Bool.and_eq_true, decide_eq_true_eq] at mismatch
        exact mismatch.2 (typed _ List.mem_cons_self _ (by assumption) mismatch.1)

/-- Each conjunct tests the list that was appended for its column. -/
lemma conjuncts_operand (before : List (Param J)) (length : before.length = n)
    (known : ∀ g ∈ gs, (l.schema.type g.1).isSome) :
    List.Forall₂ (fun e g => e.column = g.1 ∧
      e.operand l.schema d.server (before ++ gs.map fun g => .many g.2) = g.2.mapM (l.read d g.1))
      (conjuncts n gs) gs := by
  induction gs generalizing n before with
  | nil => exact .nil
  | cons g gs ih =>
    obtain ⟨column, expected⟩ := g
    have later := ih (n := n + 1) (before ++ [.many expected]) (by simp [length])
      fun g mem => known g (List.mem_cons_of_mem _ mem)
    rw [List.append_assoc, List.singleton_append] at later
    apply List.Forall₂.cons _ later
    refine ⟨rfl, ?_⟩
    have here : (before ++ .many expected :: gs.map fun g => .many g.2)[n]? = some (.many expected) := by
      simp [← length]
    obtain ⟨type, typed⟩ := Option.isSome_iff_exists.1 (known _ List.mem_cons_self)
    have read : l.read d column = d.input type := by
      funext x
      rw [Ledger.read, typed, Option.bind_some]
    rw [read]
    simp only [Test.operand, typed, Nat.add_sub_cancel, here, Option.bind_some]
    rfl

/-! ## The statement -/

section
variable [DecidableEq V] {id : J} {t : Sql.Table SqlType V} {row : Row V}

/-- The values that are bound in the statement. -/
def Driver.sent (d : Driver J V) (id : J) (ms : List (PatchColumn × J)) (gs : List (String × List J)) :
    List (Param J) :=
  .one id :: ms.map d.bound ++ gs.map fun g => .many g.2

omit [DecidableEq V] in
/-- The conjuncts test the id and the lists. -/
lemma operands_statement (id : J) (ms : List (PatchColumn × J)) (known : ∀ g ∈ gs, (l.schema.type g.1).isSome) :
    List.Forall₂ (fun e g => e.column = g.1 ∧
      e.operand l.schema d.server (d.sent id ms gs) = g.2.mapM (l.read d g.1))
      (l.statement ms gs).tests (("id", [id]) :: gs) := by
  apply List.Forall₂.cons
  · refine ⟨rfl, ?_⟩
    have read : l.read d "id" id = d.input .uuid id := by
      rw [Ledger.read, l.standard.1, Option.bind_some]
    have bound : (d.sent id ms gs)[1 - 1]? = some (.one id) := rfl
    have input : d.server.input .uuid (.one id) = d.input .uuid id := rfl
    simp only [Test.operand, l.standard.1, Option.bind_some, bound, input, List.mapM_cons, List.mapM_nil, read]
    cases d.input .uuid id <;> rfl
  · exact conjuncts_operand (.one id :: ms.map d.bound) (by simp) known

/-- A conjunct holds where one of the values that are read stands in its column. -/
lemma holds_iff {values : List (Param J)} {e : Test} {g : String × List J} (column : e.column = g.1)
    (operand : e.operand l.schema d.server values = g.2.mapM (l.read d g.1))
    (readable : ∀ x ∈ g.2, (l.read d g.1 x).isSome) :
    e.holds l.schema d.server values row = true ↔
      ∃ v, row g.1 = some v ∧ ∃ x ∈ g.2, l.read d g.1 x = some (some v) := by
  obtain ⟨vs, read⟩ := Option.isSome_iff_exists.1 (Data.mapM_isSome.2 readable)
  rw [Test.holds, column, operand, read, Option.any_eq_true]
  simp only [Option.any_some, decide_eq_true_eq, Data.mem_of_mapM read]

/-- The id and the members of the lists are read. -/
def Ledger.Readable (l : Ledger) (d : Driver J V) (id : J) (gs : List (String × List J)) : Prop :=
  ∀ g ∈ ("id", [id]) :: gs, ∀ x ∈ g.2, (l.read d g.1 x).isSome

/-- The statement selects the rows that have the id and satisfy the guard. -/
lemma selects_iff (holds : t.schema = l.schema) (known : ∀ g ∈ given guards, (l.schema.type g.1).isSome)
    (readable : l.Readable d id (given guards)) :
    (l.statement ms (given guards)).selects d.server (d.sent id ms (given guards)) t row = true ↔
      l.Selected d id guards row := by
  have operands := operands_statement (d := d) id ms known
  have all : (l.statement ms (given guards)).selects d.server (d.sent id ms (given guards)) t row = true ↔
      ∀ g ∈ ("id", [id]) :: given guards, ∃ v, row g.1 = some v ∧ ∃ x ∈ g.2, l.read d g.1 x = some (some v) := by
    rw [Update.selects, List.all_eq_true, holds]
    constructor
    · intro tests g mem
      obtain ⟨e, inside, column, operand⟩ := Data.exists_of_mem operands.flip mem
      exact (holds_iff column operand (readable g mem)).1 (tests e inside)
    · intro lists e inside
      obtain ⟨g, mem, column, operand⟩ := Data.exists_of_mem operands inside
      exact (holds_iff column operand (readable g mem)).2 (lists g mem)
  rw [all, List.forall_mem_cons]
  constructor
  · rintro ⟨⟨v, here, x, only, read⟩, lists⟩
    rw [List.mem_singleton.1 only] at read
    exact ⟨⟨v, here, read⟩, lists⟩
  · rintro ⟨⟨v, here, read⟩, lists⟩
    exact ⟨⟨v, here, id, List.mem_singleton_self id, read⟩, lists⟩

omit [DecidableEq V] in
/-- The statement sets the columns found and the time of the update. -/
lemma statement_columns :
    (l.statement ms gs).sets.map Assignment.column = (ms.map fun p => p.1.column) ++ ["updated_at"] := by
  simp [Ledger.statement, assignments_columns]

omit [DecidableEq V] in
/-- The statement sets no column twice. -/
lemma nodup_statement (nodup : (ms.map fun p => p.1.column).Nodup)
    (free : ∀ p ∈ ms, p.1.column ≠ "updated_at") :
    ((l.statement ms gs).sets.map Assignment.column).Nodup := by
  rw [statement_columns, List.nodup_append]
  refine ⟨nodup, List.nodup_singleton _, ?_⟩
  intro column mem other single
  obtain ⟨p, inside, rfl⟩ := List.mem_map.1 mem
  rw [List.mem_singleton.1 single]
  exact free p inside

omit [DecidableEq V] in
/-- The time of the update is a value for its column. -/
lemma cell_touched {values : List (Param J)} :
    (⟨"updated_at", .now⟩ : Assignment).cell l.schema d.server values = some (some d.now) := by
  simp [Assignment.cell, l.standard.2.1, Source.value, Driver.server]

omit [DecidableEq V] in
/-- An assignment of the statement is that of a column found, with its value, or that of the time. -/
lemma assignment_of_mem {a : Assignment} (id : J) (gs : List (String × List J)) (typed : l.Typed ms)
    (sends : d.Sends ms) (mem : a ∈ (l.statement ms gs).sets) :
    (∃ p ∈ ms, a.column = p.1.column ∧ a.cell l.schema d.server (d.sent id ms gs) = l.cell d p.1 p.2) ∨
      a = ⟨"updated_at", .now⟩ := by
  have values := assignments_value (d := d) ms [.one id] (gs.map fun g => .many g.2) rfl typed sends
  rcases List.mem_append.1 mem with mem | mem
  · exact .inl (Data.exists_of_mem values mem)
  · exact .inr (List.mem_singleton.1 mem)

omit [DecidableEq V] in
/-- The statement assigns its value to each column found. -/
lemma assignment_of_found {p : PatchColumn × J} (id : J) (gs : List (String × List J)) (typed : l.Typed ms)
    (sends : d.Sends ms) (mem : p ∈ ms) :
    ∃ a ∈ (l.statement ms gs).sets, a.column = p.1.column ∧
      a.cell l.schema d.server (d.sent id ms gs) = l.cell d p.1 p.2 := by
  have values := assignments_value (d := d) ms [.one id] (gs.map fun g => .many g.2) rfl typed sends
  obtain ⟨a, inside, same⟩ := Data.exists_of_mem values.flip mem
  exact ⟨a, List.mem_append_left _ inside, same⟩

/-- The statement gives every column that was found the value of its key. -/
lemma write_statement (id : J) (gs : List (String × List J)) (row : Row V) (holds : t.schema = l.schema)
    (typed : l.Typed ms) (sends : d.Sends ms) (nodup : (ms.map fun p => p.1.column).Nodup)
    (free : ∀ p ∈ ms, p.1.column ≠ "updated_at") :
    (∀ p ∈ ms, (l.statement ms gs).write d.server (d.sent id ms gs) t row p.1.column = (l.cell d p.1 p.2).join) ∧
      (l.statement ms gs).write d.server (d.sent id ms gs) t row "updated_at" = some d.now ∧
      ∀ column, column ≠ "updated_at" → (∀ p ∈ ms, p.1.column ≠ column) →
        (l.statement ms gs).write d.server (d.sent id ms gs) t row column = row column := by
  have distinct : ((l.statement ms gs).sets.map Assignment.column).Nodup := nodup_statement nodup free
  refine ⟨?_, ?_, ?_⟩
  · intro p mem
    obtain ⟨a, inside, column, cell⟩ := assignment_of_found id gs typed sends mem
    rw [← column, Update.write_of_mem distinct inside, holds, cell]
  · have inside : (⟨"updated_at", .now⟩ : Assignment) ∈ (l.statement ms gs).sets := by
      simp [Ledger.statement]
    have written : (l.statement ms gs).write d.server (d.sent id ms gs) t row "updated_at" = _ :=
      Update.write_of_mem distinct inside
    rw [written, holds, cell_touched]
    rfl
  · intro column other free
    apply Update.write_of_not_mem
    rw [statement_columns, List.mem_append, List.mem_map, List.mem_singleton]
    rintro (⟨p, mem, eq⟩ | eq)
    · exact free p mem eq
    · exact other eq

end

section
variable {patch : PatchObject J}

/-- The columns found are those of the defined keys. -/
lemma mem_resolved {p : PatchColumn × J} :
    p ∈ resolved columns entries ↔ ∃ q ∈ defined entries, mapping columns q.1 = some p.1 ∧ q.2 = p.2 := by
  obtain ⟨m, v⟩ := p
  simp only [resolved, List.mem_filterMap, Option.map_eq_some_iff, Prod.mk.injEq]
  constructor
  · rintro ⟨q, mem, m', found, rfl, rfl⟩
    exact ⟨q, mem, found, rfl⟩
  · rintro ⟨q, mem, found, rfl⟩
    exact ⟨q, mem, m, found, rfl, rfl⟩

/-- A column with a type is one of the table. -/
lemma Ledger.mem_names_of_type {column : String} {type : SqlType} (typed : l.schema.type column = some type) :
    column ∈ l.schema.names :=
  List.mem_map_of_mem (Data.mem_of_lookup typed)

/-- What is found for a key is a name, also where it is no column. -/
lemma Ledger.word_of_mapping (found : mapping l.patchColumns key = some m) :
    IsWord m.column ∧ m.column ∉ reserved := by
  rw [mapping] at found
  split at found
  · next found' =>
    cases found
    obtain ⟨⟨type, typed, _⟩, _⟩ := l.patched _ (Data.mem_of_lookup found')
    exact l.words _ (mem_names_of_type typed)
  · split at found
    · cases found
      decide
    · cases found

/-- JSON texts are sent to columns of their type. -/
lemma typed_resolved : l.Typed (resolved l.patchColumns entries) := by
  intro p mem type typed json
  obtain ⟨q, _, found, _⟩ := mem_resolved.1 mem
  rw [mapping] at found
  split at found
  · next found' =>
    cases found
    obtain ⟨⟨type', typed', jsonb⟩, _⟩ := l.patched _ (Data.mem_of_lookup found')
    cases typed.symm.trans typed'
    exact jsonb json
  · -- what every object inherits is not declared as JSON
    split at found
    · rw [← Option.some.inj found] at json
      cases json
    · cases found

/-- The lists that are given are for the columns of the guard. -/
lemma given_typed (tests : ∀ g ∈ guards, (l.schema.type g.1).isSome) :
    ∀ g ∈ given guards, (l.schema.type g.1).isSome := by
  intro g mem
  obtain ⟨⟨column, expected⟩, inside, eq⟩ := List.mem_filterMap.1 mem
  obtain ⟨_, _, rfl⟩ := Option.map_eq_some_iff.1 eq
  exact tests _ inside

section
variable [DecidableEq V] {id : J} {t : Sql.Table SqlType V} {row : Row V}

/-- When every defined key is found and its value can be sent, the outcome is that of the statement. -/
lemma update_of_found (found : ∀ p ∈ defined patch.entries, (mapping l.patchColumns p.1).isSome)
    (sends : d.Sends (resolved l.patchColumns patch.entries)) (tests : ∀ g ∈ guards, (l.schema.type g.1).isSome) :
    l.update d id patch guards t =
      match (l.statement (resolved l.patchColumns patch.entries) (given guards)).exec d.server
        (d.sent id (resolved l.patchColumns patch.entries) (given guards)) t with
      | none => .failed
      | some (after, rows) => .returned after rows.head? := by
  have sets : ∀ p ∈ resolved l.patchColumns patch.entries, IsWord p.1.column ∧ p.1.column ∉ reserved := by
    intro p mem
    obtain ⟨q, _, found, _⟩ := mem_resolved.1 mem
    exact l.word_of_mapping found
  have listed : ∀ g ∈ given guards, g.1 ∈ l.schema.names := by
    intro g mem
    obtain ⟨type, typed⟩ := Option.isSome_iff_exists.1 (given_typed tests g mem)
    exact l.mem_names_of_type typed
  have named : (l.statement (resolved l.patchColumns patch.entries) (given guards)).Named := by
    refine ⟨l.tableWord.2, ?_⟩
    simp only [Update.columns, Ledger.statement, List.map_append, assignments_columns, List.map_cons,
      List.map_nil, conjuncts_columns, Test.column, List.mem_append, List.mem_cons, List.mem_map,
      List.not_mem_nil, or_false]
    rintro c (((⟨p, mem, rfl⟩ | rfl) | rfl | ⟨g, mem, rfl⟩) | mem)
    · exact (sets p mem).2
    · exact (l.words _ (l.mem_names_of_type l.standard.2.1)).2
    · exact (l.words _ (l.mem_names_of_type l.standard.1)).2
    · exact (l.words _ (listed g mem)).2
    · obtain ⟨line, inside, mem⟩ := List.mem_flatten.1 mem
      exact (l.words _ ((l.returned.2 line inside).2 c mem)).2
  have returning : (l.statement (resolved l.patchColumns patch.entries) (given guards)).returning ≠ [] := by
    obtain ⟨line, mem⟩ := List.exists_mem_of_ne_nil _ l.returned.1
    intro nil
    exact (l.returned.2 line mem).1 (List.flatten_eq_nil_iff.1 nil line mem)
  have issued : l.query d id patch guards = .ok
      ⟨"UPDATE " ++ l.table ++ " SET " ++
        ", ".intercalate (setTexts 1 (resolved l.patchColumns patch.entries) ++ ["updated_at = now()"]) ++
        " WHERE " ++ " AND ".intercalate ("id = $1" ::
          testTexts ((resolved l.patchColumns patch.entries).length + 1) (given guards)) ++
        " RETURNING " ++ columnList l.lines,
        d.sent id (resolved l.patchColumns patch.entries) (given guards)⟩ := by
    simp only [Ledger.query, buildPatchSet, loop_of_found found sends, addGuards_eq]
    simp [Except.map, Driver.sent]
  have read := lex_statement (l := l) (fun p mem => (sets p mem).1)
    (fun g mem => (l.words _ (listed g mem)).1)
  have parsed := parse_tokens named (by simp [Ledger.statement]) (by simp [Ledger.statement]) returning
  -- the text that is sent is read back as the statement
  have runs (values : List (Param J)) (text : String)
      (tokens : lex text = (l.statement (resolved l.patchColumns patch.entries) (given guards)).tokens) :
      Sql.run d.server text values t =
        (l.statement (resolved l.patchColumns patch.entries) (given guards)).exec d.server values t := by
    rw [Sql.run, tokens, parsed]
    rfl
  rw [Ledger.update, issued]
  exact congrArg (fun r : Option (Sql.Table SqlType V × List (List (String × Option V))) => match r with
    | none => Outcome.failed
    | some (after, rows) => .returned after rows.head?) (runs _ _ read)

end

/-- A whitelisted key is found in the whitelist. -/
lemma lookup_of_mapping (whitelisted : l.Whitelisted patch) {p : String × J}
    (mem : p ∈ defined patch.entries) : ∃ m, l.patchColumns.lookup p.1 = some m ∧
      mapping l.patchColumns p.1 = some m := by
  obtain ⟨m, found⟩ := Option.isSome_iff_exists.1 (whitelisted p mem)
  exact ⟨m, found, by rw [mapping, found]⟩

/-- Whitelisted keys are found. -/
lemma found_of_whitelisted (whitelisted : l.Whitelisted patch) :
    ∀ p ∈ defined patch.entries, (mapping l.patchColumns p.1).isSome := by
  intro p mem
  obtain ⟨m, _, found⟩ := lookup_of_mapping whitelisted mem
  rw [found]
  rfl

/-- The columns found for whitelisted keys are theirs. -/
lemma mem_resolved_of_whitelisted (whitelisted : l.Whitelisted patch) {p : PatchColumn × J} :
    p ∈ resolved l.patchColumns patch.entries ↔
      ∃ q ∈ defined patch.entries, l.patchColumns.lookup q.1 = some p.1 ∧ q.2 = p.2 := by
  rw [mem_resolved]
  constructor
  · rintro ⟨q, mem, found, value⟩
    obtain ⟨m, own, found'⟩ := lookup_of_mapping whitelisted mem
    cases found.symm.trans found'
    exact ⟨q, mem, own, value⟩
  · rintro ⟨q, mem, own, value⟩
    exact ⟨q, mem, by rw [mapping, own], value⟩

/-- The defined keys differ. -/
lemma nodup_defined : ((defined patch.entries).map Prod.fst).Nodup := by
  have names : (defined patch.entries).map Prod.fst =
      (patch.entries.filter fun p => p.2.isSome).map Prod.fst := by
    generalize patch.entries = entries
    induction entries with
    | nil => rfl
    | cons entry entries ih =>
      obtain ⟨key, value⟩ := entry
      cases value with
      | none => exact ih
      | some v => simp [ih]
  rw [names]
  exact patch.nodup.sublist (List.filter_sublist.map _)

/-- Whitelisted keys have columns of their own. -/
lemma nodup_resolved (whitelisted : l.Whitelisted patch) :
    ((resolved l.patchColumns patch.entries).map fun p => p.1.column).Nodup := by
  have keys : ((defined patch.entries).map Prod.fst).Nodup := nodup_defined
  rw [List.Nodup, List.pairwise_map] at keys ⊢
  rw [resolved, List.pairwise_filterMap]
  refine keys.imp_of_mem fun {p q} memp memq other m₁ found₁ m₂ found₂ same => other ?_
  obtain ⟨m, own, found⟩ := lookup_of_mapping whitelisted memp
  obtain ⟨m', own', found'⟩ := lookup_of_mapping whitelisted memq
  simp only [found, found', Option.map_some, Option.some.injEq] at found₁ found₂
  rw [← found₁, ← found₂] at same
  have entries := List.inj_on_of_nodup_map l.distinct (Data.mem_of_lookup own) (Data.mem_of_lookup own') same
  exact (Prod.mk.inj entries).1

/-- The columns of whitelisted keys are columns of the table, and neither the time of the update nor
    unique. -/
lemma free_resolved (whitelisted : l.Whitelisted patch) {p : PatchColumn × J}
    (mem : p ∈ resolved l.patchColumns patch.entries) :
    p.1.column ∈ l.schema.names ∧ p.1.column ≠ "updated_at" ∧ ∀ cs ∈ l.schema.unique, p.1.column ∉ cs := by
  obtain ⟨q, inside, own, _⟩ := (mem_resolved_of_whitelisted whitelisted).1 mem
  obtain ⟨⟨type, typed, _⟩, free⟩ := l.patched _ (Data.mem_of_lookup own)
  exact ⟨l.mem_names_of_type typed, free⟩

variable [DecidableEq V] {id : J} {t : Sql.Table SqlType V} {row : Row V}

/-- The statement for whitelisted keys fits a table of the ledger. -/
lemma fits_statement (id : J) (holds : t.schema = l.schema) (whitelisted : l.Whitelisted patch)
    (tests : ∀ g ∈ given guards, (l.schema.type g.1).isSome) :
    (l.statement (resolved l.patchColumns patch.entries) (given guards)).Fits
      (d.sent id (resolved l.patchColumns patch.entries) (given guards)) t := by
  have nodup := nodup_resolved whitelisted
  have free := fun p => free_resolved whitelisted (p := p)
  generalize resolved l.patchColumns patch.entries = ms at nodup free
  have placeholders : (l.statement ms (given guards)).placeholders =
      List.range' 2 ms.length ++ 1 :: List.range' (ms.length + 2) (given guards).length := by
    have now : Source.now.placeholders = [] := rfl
    simp only [Update.placeholders, Ledger.statement, List.flatMap_append, assignments_placeholders,
      List.flatMap_singleton, now, List.append_nil, List.map_cons, conjuncts_placeholders, Test.placeholder]
  have length : (d.sent id ms (given guards)).length = 1 + ms.length + (given guards).length := by
    simp [Driver.sent]
    omega
  refine ⟨by rw [holds]; rfl, ?_, ?_, ?_, ?_⟩
  · rw [holds]
    simp only [Update.columns, Ledger.statement, List.map_append, assignments_columns, List.map_cons,
      List.map_nil, conjuncts_columns, Test.column, List.mem_append, List.mem_cons, List.mem_map,
      List.not_mem_nil, or_false]
    rintro c (((⟨p, mem, rfl⟩ | rfl) | rfl | ⟨g, mem, rfl⟩) | mem)
    · exact (free p mem).1
    · exact l.mem_names_of_type l.standard.2.1
    · exact l.mem_names_of_type l.standard.1
    · obtain ⟨type, typed⟩ := Option.isSome_iff_exists.1 (tests g mem)
      exact l.mem_names_of_type typed
    · obtain ⟨line, inside, mem⟩ := List.mem_flatten.1 mem
      exact (l.returned.2 line inside).2 c mem
  · exact nodup_statement nodup fun p mem => (free p mem).2.1
  · intro n mem
    rw [placeholders] at mem
    simp only [List.mem_append, List.mem_cons, List.mem_range'_1] at mem
    omega
  · intro n lt
    rw [placeholders]
    simp only [List.mem_append, List.mem_cons, List.mem_range'_1]
    omega

/-- The statement for whitelisted keys sets no unique column. -/
lemma unique_statement (holds : t.schema = l.schema) (whitelisted : l.Whitelisted patch) :
    ∀ cs ∈ t.schema.unique, ∀ c ∈ cs,
      c ∉ (l.statement (resolved l.patchColumns patch.entries) gs).sets.map Assignment.column := by
  rw [holds]
  intro cs unique c inside
  rw [statement_columns, List.mem_append, List.mem_map, List.mem_singleton]
  rintro (⟨p, mem, rfl⟩ | rfl)
  · exact (free_resolved whitelisted mem).2.2 cs unique inside
  · exact l.keyed.2 cs unique inside

/-- The server reads the id and the lists of a patch that it accepts. -/
lemma Ledger.Accepts.readable (accepts : l.Accepts d id patch guards t.rows) :
    l.Readable d id (given guards) := by
  intro g mem x inside
  rcases List.mem_cons.1 mem with rfl | mem
  · cases List.mem_singleton.1 inside
    exact accepts.key
  · exact accepts.lists g mem x inside

/-- The server accepts the statement for whitelisted keys just when it accepts the patch. -/
lemma accepted_iff (holds : t.schema = l.schema) (whitelisted : l.Whitelisted patch)
    (sends : d.Sends (resolved l.patchColumns patch.entries)) (tests : ∀ g ∈ guards, (l.schema.type g.1).isSome) :
    (l.statement (resolved l.patchColumns patch.entries) (given guards)).Reads d.server
        (d.sent id (resolved l.patchColumns patch.entries) (given guards)) t ∧
      (l.statement (resolved l.patchColumns patch.entries) (given guards)).Fills d.server
        (d.sent id (resolved l.patchColumns patch.entries) (given guards)) t ↔
      l.Accepts d id patch guards t.rows := by
  have typed : l.Typed (resolved l.patchColumns patch.entries) := typed_resolved
  have known := given_typed tests
  have operands := operands_statement (d := d) id (resolved l.patchColumns patch.entries) known
  constructor
  · rintro ⟨⟨cells, operand⟩, fills⟩
    rw [holds] at cells operand
    have readable : l.Readable d id (given guards) := by
      intro g mem
      obtain ⟨e, inside, _, read⟩ := Data.exists_of_mem operands.flip mem
      exact Data.mapM_isSome.1 (read ▸ operand e inside)
    refine ⟨readable _ List.mem_cons_self id (List.mem_singleton_self id),
      fun g mem => readable g (List.mem_cons_of_mem _ mem), ?_, ?_⟩
    · intro p mem m own
      obtain ⟨a, inside, _, cell⟩ := assignment_of_found id (given guards) typed sends
        ((mem_resolved_of_whitelisted whitelisted).2 ⟨p, mem, own, rfl⟩ : (m, p.2) ∈ _)
      exact cell ▸ cells a inside
    · intro row inside selected p mem m own required
      obtain ⟨a, assigned, column, cell⟩ := assignment_of_found id (given guards) typed sends
        ((mem_resolved_of_whitelisted whitelisted).2 ⟨p, mem, own, rfl⟩ : (m, p.2) ∈ _)
      have filled := fills row inside ((selects_iff holds known readable).2 selected) a assigned
      rw [holds, column, cell] at filled
      exact filled required
  · intro accepts
    have readable := accepts.readable
    refine ⟨⟨?_, ?_⟩, ?_⟩
    · intro a inside
      rw [holds]
      rcases assignment_of_mem id (given guards) typed sends inside with ⟨p, mem, _, cell⟩ | rfl
      · obtain ⟨q, defined, own, value⟩ := (mem_resolved_of_whitelisted whitelisted).1 mem
        rw [cell, ← value]
        exact accepts.values q defined p.1 own
      · rw [cell_touched]
        rfl
    · intro e inside
      obtain ⟨g, mem, _, read⟩ := Data.exists_of_mem operands inside
      rw [holds, read]
      exact Data.mapM_isSome.2 (readable g mem)
    · intro row mem selected a inside required
      rw [holds] at required ⊢
      rcases assignment_of_mem id (given guards) typed sends inside with ⟨p, found, column, cell⟩ | rfl
      · obtain ⟨q, defined, own, value⟩ := (mem_resolved_of_whitelisted whitelisted).1 found
        rw [cell, ← value]
        exact accepts.required row mem ((selects_iff holds known readable).1 selected) q defined p.1 own
          (column ▸ required)
      · rw [cell_touched]
        rfl

/-- A row that the statement writes is patched, if the server accepts the values. -/
lemma patched_write (holds : t.schema = l.schema) (whitelisted : l.Whitelisted patch)
    (sends : d.Sends (resolved l.patchColumns patch.entries))
    (values : ∀ p ∈ defined patch.entries, ∀ m, l.patchColumns.lookup p.1 = some m → (l.cell d m p.2).isSome) :
    l.Patched d patch row ((l.statement (resolved l.patchColumns patch.entries) gs).write d.server
      (d.sent id (resolved l.patchColumns patch.entries) gs) t row) := by
  obtain ⟨written, touched, kept⟩ := write_statement (l := l) (d := d) id gs row holds typed_resolved sends
    (nodup_resolved whitelisted) fun p mem => (free_resolved whitelisted mem).2.1
  refine ⟨?_, touched, ?_⟩
  · intro p mem m own
    obtain ⟨v, cell⟩ := Option.isSome_iff_exists.1 (values p mem m own)
    have here := written (m, p.2) ((mem_resolved_of_whitelisted whitelisted).2 ⟨p, mem, own, rfl⟩)
    simp only [cell, Option.join_some] at here
    rw [cell, here]
  · intro column other free
    apply kept column other
    intro p inside
    obtain ⟨q, mem, own, _⟩ := (mem_resolved_of_whitelisted whitelisted).1 inside
    exact free q mem _ own

/-- Rows of a table of the ledger with one id are the same. -/
lemma eq_of_id {row row' : Row V} {v : V} (holds : t.schema = l.schema) (mem : row ∈ t.rows) (mem' : row' ∈ t.rows)
    (id : row "id" = some v) (id' : row' "id" = some v) : row = row' := by
  have apart := t.valid.distinct ["id"] (holds ▸ l.keyed.1)
  have same : t.rows.Pairwise fun r r' => r "id" = some v → r' "id" = some v → r = r' := by
    apply apart.imp
    intro r r' apart id id'
    simp [Sql.clash, id, id'] at apart
  exact same.forall_of_forall_of_flip (fun _ _ _ _ => rfl)
    (same.imp fun same id id' => (same id' id).symm) mem mem' id id'

/-- Where every defined key is whitelisted and the server accepts the values, the selected row is changed as
    the patch says. -/
theorem update_of_whitelisted (holds : t.schema = l.schema) (whitelisted : l.Whitelisted patch)
    (sends : d.Sends (resolved l.patchColumns patch.entries)) (tests : ∀ g ∈ guards, (l.schema.type g.1).isSome)
    (accepts : l.Accepts d id patch guards t.rows) :
    ∃ after row, l.update d id patch guards t = .returned after row ∧
      l.Updated d id patch guards t.rows after.rows row := by
  have known := given_typed tests
  have selects {r : Row V} : (l.statement (resolved l.patchColumns patch.entries) (given guards)).selects d.server
      (d.sent id (resolved l.patchColumns patch.entries) (given guards)) t r = true ↔ l.Selected d id guards r :=
    selects_iff holds known accepts.readable
  obtain ⟨reads, fills⟩ := (accepted_iff holds whitelisted sends tests).2 accepts
  obtain ⟨valid, runs⟩ := Update.exec_of_fits (fits_statement (d := d) id holds whitelisted known)
    (unique_statement holds whitelisted) reads fills
  rw [update_of_found (found_of_whitelisted whitelisted) sends tests, runs]
  refine ⟨_, _, rfl, ?_, ?_, ?_⟩
  · rw [List.forall₂_map_right_iff, List.forall₂_same]
    intro r _
    constructor
    · intro selected
      rw [Update.apply, if_pos (selects.2 selected)]
      exact patched_write holds whitelisted sends accepts.values
    · intro other
      rw [Update.apply, if_neg fun selected => other (selects.1 selected)]
  · intro r mem selected
    refine ⟨_, List.mem_map_of_mem mem, ?_, ?_⟩
    · rw [Update.apply, if_pos (selects.2 selected)]
      exact patched_write holds whitelisted sends accepts.values
    · rw [Update.apply, if_pos (selects.2 selected), List.head?_map,
        Data.head?_filter_of_unique mem (selects.2 selected)]
      · rfl
      · -- the id is unique, so the selected row is the only one that is returned
        intro r' mem' selected'
        obtain ⟨v, here, read⟩ := selected.id
        obtain ⟨v', here', read'⟩ := (selects.1 selected').id
        cases read.symm.trans read'
        exact eq_of_id holds mem' mem here' here
  · intro none
    have empty : t.rows.filter ((l.statement (resolved l.patchColumns patch.entries) (given guards)).selects
        d.server (d.sent id (resolved l.patchColumns patch.entries) (given guards)) t) = [] :=
      List.filter_eq_nil_iff.2 fun r mem selected => none r mem (selects.1 selected)
    rw [empty]
    rfl

/-- A key that is not found, or whose value cannot be sent, is thrown before a statement is issued. -/
lemma update_of_failing (t : Sql.Table SqlType V) (failing : ∃ p ∈ defined patch.entries,
      ∀ m, mapping l.patchColumns p.1 = some m → ∃ e, d.encode m.json p.2 = .error e) :
    ∃ e, l.update d id patch guards t = .threw e := by
  obtain ⟨e, threw⟩ := loop_of_failing (d := d) [] [.one id] failing
  use e
  rw [Ledger.update, Ledger.query, buildPatchSet, threw]
  rfl

omit [DecidableEq V] in
/-- The values for the columns found can be sent unless that of a whitelisted key cannot. -/
lemma sends_resolved (sendable : ¬ l.Unsendable d patch) : d.Sends (resolved l.patchColumns patch.entries) := by
  intro p mem
  obtain ⟨q, inside, found, value⟩ := mem_resolved.1 mem
  rw [mapping] at found
  split at found
  · next own =>
    cases encoded : d.encode p.1.json p.2 with
    | ok v => exact ⟨v, rfl⟩
    | error e => exact absurd ⟨q, inside, p.1, own.trans found, e, value ▸ encoded⟩ sendable
  · -- what every object inherits is sent as it is
    split at found
    · rw [← Option.some.inj found]
      exact ⟨p.2, rfl⟩
    · cases found

/-- Keys are found unless some defined key is unknown. -/
lemma found_of_known (known : ¬ l.Unknown patch) {p : String × J} (mem : p ∈ defined patch.entries) :
    (mapping l.patchColumns p.1).isSome := by
  rw [mapping]
  cases own : l.patchColumns.lookup p.1 with
  | some m => rfl
  | none =>
    have member : p.1 ∈ objectPrototype := by
      by_contra unknown
      exact known ⟨p, mem, own, unknown⟩
    simp [member]

/-- The statement for a key that is found without being whitelisted fits no table of the ledger. -/
lemma unfit_statement (holds : t.schema = l.schema) (known : ¬ l.Unknown patch)
    (open' : ¬ l.Whitelisted patch) (values : List (Param J)) :
    ¬ (l.statement (resolved l.patchColumns patch.entries) gs).Fits values t := by
  obtain ⟨p, mem, missing⟩ : ∃ p ∈ defined patch.entries, l.patchColumns.lookup p.1 = none := by
    by_contra own
    apply open'
    intro p mem
    rw [Option.isSome_iff_ne_none]
    exact fun missing => own ⟨p, mem, missing⟩
  -- such a key has no column
  have undefined : (⟨"undefined", false⟩, p.2) ∈ resolved l.patchColumns patch.entries := by
    apply mem_resolved.2
    refine ⟨p, mem, ?_, rfl⟩
    have member : p.1 ∈ objectPrototype := by
      by_contra unknown
      exact known ⟨p, mem, missing, unknown⟩
    rw [mapping, missing]
    exact if_pos member
  rintro ⟨_, columns, _⟩
  have named := columns "undefined" (by
    rw [Update.columns, statement_columns]
    simp only [List.mem_append, List.mem_map]
    exact .inl (.inl (.inl ⟨_, undefined, rfl⟩)))
  rw [holds] at named
  exact l.standard.2.2 named

/-- The outcome means the patch just when every defined key is whitelisted and the server accepts the values,
    or the call throws, at an unknown key or at a value that cannot be sent. -/
theorem update_means_iff (holds : t.schema = l.schema) (tests : ∀ g ∈ guards, (l.schema.type g.1).isSome) :
    l.Means d id patch guards t (l.update d id patch guards t) ↔
      l.Whitelisted patch ∧ l.Accepts d id patch guards t.rows ∨ l.Unknown patch ∨
        ¬ l.Whitelisted patch ∧ l.Unsendable d patch := by
  constructor
  · intro means
    by_cases whitelisted : l.Whitelisted patch
    · left
      refine ⟨whitelisted, ?_⟩
      obtain ⟨after, row, returned, _⟩ := means.1 whitelisted
      have sends : d.Sends (resolved l.patchColumns patch.entries) := by
        apply sends_resolved
        rintro ⟨p, mem, m, own, error⟩
        obtain ⟨e, threw⟩ : ∃ e, l.update d id patch guards t = .threw e :=
          update_of_failing t ⟨p, mem, fun m' found => by
            rw [mapping, own] at found
            exact Option.some.inj found ▸ error⟩
        cases threw.symm.trans returned
      rw [update_of_found (found_of_whitelisted whitelisted) sends tests] at returned
      split at returned
      · cases returned
      · next ran =>
        exact (accepted_iff holds whitelisted sends tests).1
          (Update.accepted_of_exec (unique_statement holds whitelisted) ran)
    · right
      by_contra gap
      obtain ⟨known, sendable⟩ := not_or.1 gap
      have sends := sends_resolved fun unsendable => sendable ⟨whitelisted, unsendable⟩
      obtain ⟨e, threw⟩ := means.2 whitelisted
      rw [update_of_found (fun p mem => found_of_known known mem) sends tests,
        Update.exec_of_not_fits (unfit_statement holds known whitelisted _)] at threw
      cases threw
  · rintro (⟨whitelisted, accepts⟩ | ⟨p, mem, missing, unknown⟩ | ⟨open', p, mem, m, own, error⟩)
    · have sends : d.Sends (resolved l.patchColumns patch.entries) := by
        apply sends_resolved
        rintro ⟨p, mem, m, own, e, error⟩
        have cell := accepts.values p mem m own
        simp [Ledger.cell, error] at cell
      exact ⟨fun _ => update_of_whitelisted holds whitelisted sends tests accepts, absurd whitelisted⟩
    · have none : mapping l.patchColumns p.1 = none := by
        rw [mapping, missing]
        simp [unknown]
      refine ⟨fun whitelisted => ?_, fun _ => update_of_failing t ⟨p, mem, ?_⟩⟩
      · have found := whitelisted p mem
        rw [missing] at found
        cases found
      · intro m found
        cases none.symm.trans found
    · refine ⟨fun whitelisted => absurd whitelisted open', fun _ => update_of_failing t ⟨p, mem, ?_⟩⟩
      intro m' found
      rw [mapping, own] at found
      exact Option.some.inj found ▸ error

end

/-! ## The two ledgers -/

section
variable [DecidableEq V]

/-- The guard of a pay-in tests columns of its table. -/
lemma guarded_payIn {guard : PayInGuard J} :
    ∀ g ∈ guard.conjuncts, (PayInLedgerService.schema.type g.1).isSome := by
  simp only [PayInGuard.conjuncts, List.forall_mem_cons]
  exact ⟨by decide +kernel, by decide +kernel, fun _ mem => absurd mem List.not_mem_nil⟩

/-- The guard of a payout tests columns of its table. -/
lemma guarded_payout {guard : PayoutGuard J} :
    ∀ g ∈ guard.conjuncts, (PayoutLedgerService.schema.type g.1).isSome := by
  simp only [PayoutGuard.conjuncts, List.forall_mem_cons]
  exact ⟨by decide +kernel, fun _ mem => absurd mem List.not_mem_nil⟩

/-- An update of a pay-in or of a payout means its patch just when every defined key is whitelisted and the
    server accepts the bound values, or some defined key is unknown, or one is inherited and the value of a
    whitelisted one cannot be sent. -/
theorem ledger_update_means_iff (d : Driver J V) (id : J) (patch : PatchObject J) :
    (∀ (guard : PayInGuard J) (t : PayInLedgerService.Stored V),
      PayInLedgerService.Means d id patch guard.conjuncts t.1 (PayInLedgerService.update d id patch guard t.1) ↔
        PayInLedgerService.Whitelisted patch ∧
            PayInLedgerService.Accepts d id patch guard.conjuncts t.1.rows ∨
          PayInLedgerService.Unknown patch ∨
          ¬ PayInLedgerService.Whitelisted patch ∧ PayInLedgerService.Unsendable d patch) ∧
    ∀ (guard : PayoutGuard J) (t : PayoutLedgerService.Stored V),
      PayoutLedgerService.Means d id patch guard.conjuncts t.1 (PayoutLedgerService.update d id patch guard t.1) ↔
        PayoutLedgerService.Whitelisted patch ∧
            PayoutLedgerService.Accepts d id patch guard.conjuncts t.1.rows ∨
          PayoutLedgerService.Unknown patch ∨
          ¬ PayoutLedgerService.Whitelisted patch ∧ PayoutLedgerService.Unsendable d patch := by
  constructor
  · intro guard t
    exact update_means_iff t.2 guarded_payIn
  · intro guard t
    exact update_means_iff t.2 guarded_payout

end

/-- A driver whose values are texts. -/
def textDriver : Driver String String where
  stringify v := .ok ("\"" ++ v ++ "\"")
  input _ v := some (some v)
  now := "now()"

/-- The pay-ins with one row. -/
def onePayIn : PayInLedgerService.Stored String :=
  ⟨⟨payInSchema, [fun _ => some "p1"], by decide +kernel⟩, rfl⟩

/-- A patch with the key `constructor` and a value. -/
def constructorPatch : PatchObject String := ⟨[("constructor", some "x")], List.nodup_singleton _⟩

/-- The key `constructor` is not whitelisted, and yet a statement is issued for it. -/
theorem constructor_key_is_issued :
    ¬ PayInLedgerService.Means textDriver "p1" constructorPatch ({} : PayInGuard String).conjuncts onePayIn.1
      (PayInLedgerService.update textDriver "p1" constructorPatch {} onePayIn.1) := by
  have missing : PayInLedgerService.patchColumns.lookup "constructor" = none := by decide +kernel
  intro means
  rcases (update_means_iff onePayIn.2 guarded_payIn).1 means with
    ⟨whitelisted, _⟩ | ⟨p, mem, _, unknown⟩ | ⟨_, p, mem, m, own, _⟩
  · have found := whitelisted ("constructor", "x") List.mem_cons_self
    rw [missing] at found
    cases found
  · cases List.mem_singleton.1 mem
    exact unknown List.mem_cons_self
  · cases List.mem_singleton.1 mem
    cases missing.symm.trans own

end AvaSettle.Database
