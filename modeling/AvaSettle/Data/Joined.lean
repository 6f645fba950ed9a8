import Mathlib.Data.List.Basic

/-!
# Joined lists

A join of lists with a separator is determined by its pieces, what is left when all of them are cut at
the separator. So a join can be read back where no list has the separator in it, and otherwise up to
where the cuts are.
-/

namespace AvaSettle.Data

variable {α : Type} [DecidableEq α] {x : α} {l : List α} {ls ls' : List (List α)}

/-- What is left of the lists when they are cut at the separator. -/
def pieces (x : α) (ls : List (List α)) : List (List α) := ls.flatMap fun l => l.splitOn x

omit [DecidableEq α] in
/-- Joining puts the separator after the first piece. -/
lemma intercalate_cons (ne : ls ≠ []) : [x].intercalate (l :: ls) = l ++ x :: [x].intercalate ls := by
  cases ls with
  | nil => exact absurd rfl ne
  | cons l' ls => simp [List.intercalate]

omit [DecidableEq α] in
/-- Joined lists of pieces have the separator between them. -/
lemma intercalate_append (ne : ls ≠ []) (ne' : ls' ≠ []) :
    [x].intercalate (ls ++ ls') = [x].intercalate ls ++ x :: [x].intercalate ls' := by
  induction ls with
  | nil => exact absurd rfl ne
  | cons l ls ih =>
    rw [List.cons_append]
    by_cases last : ls = []
    · rw [last, List.nil_append, intercalate_cons ne', List.intercalate_singleton]
    · rw [intercalate_cons (by simp [last]), intercalate_cons last, ih last, List.append_assoc,
        List.cons_append]

omit [DecidableEq α] in
/-- A join of joins is the join of all their lists. -/
lemma intercalate_flatten {lss : List (List (List α))} (ne : ∀ ls ∈ lss, ls ≠ []) :
    [x].intercalate (lss.map [x].intercalate) = [x].intercalate lss.flatten := by
  induction lss with
  | nil => rfl
  | cons ls lss ih =>
    obtain ⟨here, later⟩ := List.forall_mem_cons.1 ne
    by_cases last : lss = []
    · simp [last]
    · have more : lss.flatten ≠ [] := by
        obtain ⟨ls', mem⟩ := List.exists_mem_of_ne_nil lss last
        intro nil
        exact later ls' mem (List.flatten_eq_nil_iff.1 nil ls' mem)
      rw [List.map_cons, List.flatten_cons, intercalate_cons (by simpa using last), ih later,
        intercalate_append here more]

/-- A join is cut into the pieces of its lists. -/
theorem splitOn_intercalate (ne : ls ≠ []) : ([x].intercalate ls).splitOn x = pieces x ls := by
  induction ls with
  | nil => exact absurd rfl ne
  | cons l ls ih =>
    by_cases last : ls = []
    · simp [last, pieces, List.intercalate]
    · have cut (l' : List α) : (l ++ x :: l').splitOn x = l.splitOn x ++ l'.splitOn x := by
        simp only [List.splitOn_eq_splitOnP]
        exact List.splitOnP_append_cons (p := fun y => y == x) _ _ (beq_self_eq_true x)
      rw [intercalate_cons last, cut, ih last]
      rfl

/-- Joins are equal just when their pieces are. -/
theorem intercalate_eq_iff (ne : ls ≠ []) (ne' : ls' ≠ []) :
    [x].intercalate ls = [x].intercalate ls' ↔ pieces x ls = pieces x ls' := by
  rw [← splitOn_intercalate ne, ← splitOn_intercalate ne']
  constructor
  · intro eq
    rw [eq]
  · intro eq
    have joined := congrArg [x].intercalate eq
    rwa [List.intercalate_splitOn, List.intercalate_splitOn] at joined

/-- Lists without the separator are their own pieces. -/
theorem pieces_of_not_mem (free : ∀ l ∈ ls, x ∉ l) : pieces x ls = ls := by
  induction ls with
  | nil => rfl
  | cons l ls ih =>
    obtain ⟨here, later⟩ := List.forall_mem_cons.1 free
    have single : l.splitOn x = [l] :=
      List.splitOn_eq_singleton_of_beq_eq_false fun y mem => beq_eq_false_iff_ne.2 (by rintro rfl; exact here mem)
    change l.splitOn x ++ pieces x ls = _
    rw [single, ih later]
    rfl

end AvaSettle.Data
