import AvaSettle.Data.Lists

/-!
# Words of a statement

The lexical structure of a statement that has no literals and no comments: words of letters, digits and
underscores, and every other character by itself, with the space between them dropped. A text can be cut
wherever a word cannot go on, so a statement that is put together from pieces is read piece by piece.
-/

namespace AvaSettle.Sql

/-- A token of a statement. -/
inductive Token : Type where
  | word (w : String)
  | mark (c : Char)
  deriving DecidableEq, Repr

/-- The character is part of a word. -/
def wordChar (c : Char) : Bool := c.isAlphanum || c == '_'

/-- The token of the word read so far, if there is one. -/
def flush (w : List Char) : List Token := if w = [] then [] else [.word (String.ofList w)]

/-- The tokens of the characters, after the word read so far. -/
def scan (w : List Char) : List Char → List Token
  | [] => flush w
  | c :: cs =>
    if wordChar c then scan (w ++ [c]) cs
    else flush w ++ (if c.isWhitespace then [] else [.mark c]) ++ scan [] cs

/-- The tokens of a text. -/
def lex (s : String) : List Token := scan [] s.toList

/-- No word goes on at the beginning of the text. -/
def Opens (s : String) : Prop := ∀ c ∈ s.toList.head?, wordChar c = false

/-- No word goes on at the end of the text. -/
def Closes (s : String) : Prop := ∀ c ∈ s.toList.getLast?, wordChar c = false

/-- The text is one word. -/
def IsWord (s : String) : Prop := s ≠ "" ∧ ∀ c ∈ s.toList, wordChar c = true

instance (s : String) : Decidable (Opens s) := inferInstanceAs (Decidable (∀ c ∈ s.toList.head?, _))

instance (s : String) : Decidable (Closes s) :=
  inferInstanceAs (Decidable (∀ c ∈ s.toList.getLast?, _))

instance (s : String) : Decidable (IsWord s) := inferInstanceAs (Decidable (_ ∧ _))

variable {c : Char} {w cs ds : List Char} {s t : String} {n : Nat}

/-- A text closes its last word where its end does. -/
lemma Closes.append (closes : Closes t) (ne : t ≠ "") : Closes (s ++ t) := by
  intro c mem
  have some : t.toList ≠ [] := by simpa [String.toList_eq_nil_iff] using ne
  rw [String.toList_append, List.getLast?_append_of_ne_nil _ some] at mem
  exact closes c mem

/-- Scanning goes on afresh where a word ends. -/
lemma scan_append (opens : ∀ c ∈ ds.head?, wordChar c = false) :
    scan w (cs ++ ds) = scan w cs ++ scan [] ds := by
  induction cs generalizing w with
  | nil =>
    cases ds with
    | nil => simp [scan, flush]
    | cons d ds =>
      have stop : wordChar d = false := opens d rfl
      simp [scan, stop, flush]
  | cons c cs ih =>
    by_cases inside : wordChar c = true
    · simp only [List.cons_append, scan, inside, if_true, ih]
    · simp only [List.cons_append, scan, inside, if_false, ih, List.append_assoc, Bool.false_eq_true]

/-- A text is cut before a piece at whose beginning no word goes on. -/
lemma lex_append_of_opens (opens : Opens t) : lex (s ++ t) = lex s ++ lex t := by
  rw [lex, String.toList_append]
  exact scan_append opens

/-- A text is cut after a piece at whose end no word goes on. -/
lemma lex_append_of_closes (closes : Closes s) : lex (s ++ t) = lex s ++ lex t := by
  simp only [lex, String.toList_append]
  rcases List.eq_nil_or_concat s.toList with nil | ⟨cs, c, eq⟩
  · simp [nil, scan, flush]
  · rw [List.concat_eq_append] at eq
    have stop : wordChar c = false := closes c (by simp [eq])
    -- the last character stands alone, so the cut is before it and after it
    have cut (ds : List Char) : scan [] (c :: ds) = scan [] [c] ++ scan [] ds := by
      simp [scan, stop, flush]
    rw [eq, List.append_assoc, List.singleton_append, scan_append (by simpa using stop), cut,
      scan_append (by simpa using stop), List.append_assoc]

/-- The characters of a word are gathered. -/
lemma scan_word (all : ∀ c ∈ cs, wordChar c = true) : scan w cs = flush (w ++ cs) := by
  induction cs generalizing w with
  | nil => simp [scan]
  | cons c cs ih =>
    obtain ⟨here, later⟩ := List.forall_mem_cons.1 all
    simp [scan, here, ih later]

/-- A word is one token. -/
lemma lex_word (word : IsWord s) : lex s = [.word s] := by
  have some : s.toList ≠ [] := by simpa [String.toList_eq_nil_iff] using word.1
  rw [lex, scan_word word.2, List.nil_append, flush, if_neg some, String.ofList_toList]

/-- Texts around a separator in which no word goes on are read one by one. -/
lemma lex_separated {r : String} (opens : Opens s) (closes : Closes s) (ne : s ≠ "") :
    lex (r ++ s ++ t) = lex r ++ lex s ++ lex t := by
  rw [lex_append_of_closes (closes.append ne), lex_append_of_opens opens]

/-- Texts that are joined by a separator in which no word goes on are read one by one. -/
lemma lex_intercalate {ls : List String} (opens : Opens s) (closes : Closes s) (ne : s ≠ "") :
    lex (s.intercalate ls) = (lex s).intercalate (ls.map lex) := by
  induction ls with
  | nil => rfl
  | cons l ls ih =>
    cases ls with
    | nil => simp
    | cons l' ls =>
      rw [String.intercalate_cons_cons, lex_separated opens closes ne, ih]
      simp [List.intercalate_cons_cons]

/-! ## Numbers -/

/-- The number that a word of digits stands for. -/
def numeral (w : String) : Option Nat :=
  if w ≠ "" ∧ w.toList.all Char.isDigit then some (Nat.ofDigitChars 10 w.toList 0) else none

/-- A numeral is made of digits. -/
lemma isDigit_of_mem_repr (mem : c ∈ n.repr.toList) : c.isDigit = true := by
  have digits : c ∈ Nat.toDigits 10 n := by simpa [Nat.repr] using mem
  exact Nat.isDigit_of_mem_toDigits (by decide) (by decide) digits

/-- A numeral is not empty. -/
lemma repr_ne_empty : n.repr ≠ "" := by
  intro eq
  have none : n.repr.toList = [] := by rw [eq]; rfl
  simp [Nat.repr] at none

/-- A numeral is a word. -/
lemma isWord_repr : IsWord n.repr := by
  refine ⟨repr_ne_empty, fun c mem => ?_⟩
  simp [wordChar, Char.isAlphanum, isDigit_of_mem_repr mem]

/-- A number is read back as it was written. -/
@[simp] lemma numeral_repr : numeral n.repr = some n := by
  have digits : n.repr.toList.all Char.isDigit = true := by
    rw [List.all_eq_true]
    exact fun c mem => isDigit_of_mem_repr mem
  rw [numeral, if_pos ⟨repr_ne_empty, digits⟩]
  simp [Nat.repr, Nat.ofDigitChars_ten_toDigits]

end AvaSettle.Sql
