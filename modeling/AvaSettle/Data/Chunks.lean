import Mathlib.Data.List.Chain
import Mathlib.Data.PNat.Basic

/-!
# Chunks of a range

A range of numbers cut into chunks of a size, of which the last one is clipped. The chunks are not empty
and no longer than the size, they are consecutive, and in order they hold just the numbers of the range.
-/

namespace AvaSettle.Data

/-- The numbers of a range. -/
def numbers (r : Nat × Nat) : List Nat := List.range' r.1 (r.2 + 1 - r.1)

/-- The chunks of the range from `a` to `b`. -/
def chunks (size : ℕ+) (b a : Nat) : List (Nat × Nat) :=
  if a ≤ b then (a, min (a + size - 1) b) :: chunks size b (a + size) else []
termination_by b + 1 - a
decreasing_by
  have := size.pos
  omega

variable {size : ℕ+} {a b : Nat} {r : Nat × Nat}

/-- Where something is left, there is a first chunk. -/
lemma chunks_of_le (le : a ≤ b) :
    chunks size b a = (a, min (a + size - 1) b) :: chunks size b (a + size) := by
  rw [chunks, if_pos le]

/-- Where nothing is left, there are no chunks. -/
lemma chunks_of_lt (lt : b < a) : chunks size b a = [] := by
  rw [chunks, if_neg (Nat.not_le.2 lt)]

/-- A chunk lies in the range, is not empty and is no longer than the size. -/
lemma bounds_of_mem_chunks (mem : r ∈ chunks size b a) :
    a ≤ r.1 ∧ r.1 ≤ r.2 ∧ r.2 ≤ b ∧ r.2 + 1 - r.1 ≤ size := by
  have pos := size.pos
  fun_induction chunks size b a with
  | case1 a le ih =>
    rcases List.mem_cons.1 mem with rfl | mem
    · simp only
      omega
    · obtain ⟨lower, bounds⟩ := ih mem
      exact ⟨by omega, bounds⟩
  | case2 a more => cases mem

/-- A chunk begins right after the one before it. -/
lemma isChain_chunks : (chunks size b a).IsChain fun r s => s.1 = r.2 + 1 := by
  have pos := size.pos
  fun_induction chunks size b a with
  | case1 a le ih =>
    refine List.isChain_cons.2 ⟨fun s next => ?_, ih⟩
    have inside : a + size ≤ b := by
      by_contra less
      rw [chunks_of_lt (Nat.lt_of_not_le less)] at next
      cases next
    rw [chunks_of_le inside] at next
    cases next
    simp only
    omega
  | case2 a more => exact .nil

/-- The chunks do not overlap. -/
lemma pairwise_chunks : (chunks size b a).Pairwise fun r s => r.2 < s.1 := by
  have pos := size.pos
  fun_induction chunks size b a with
  | case1 a le ih =>
    refine List.pairwise_cons.2 ⟨fun s mem => ?_, ih⟩
    have lower := (bounds_of_mem_chunks mem).1
    simp only
    omega
  | case2 a more => exact .nil

/-- The chunks hold the numbers of the range, in order and each once. -/
lemma flatMap_numbers_chunks : (chunks size b a).flatMap numbers = List.range' a (b + 1 - a) := by
  have pos := size.pos
  fun_induction chunks size b a with
  | case1 a le ih =>
    rw [List.flatMap_cons, ih, numbers]
    by_cases inside : a + size ≤ b
    · have clipped : min (a + size - 1) b + 1 - a = size := by omega
      have rest : b + 1 - a = size + (b + 1 - (a + size)) := by omega
      rw [clipped, rest, ← List.range'_append_1]
    · have clipped : min (a + size - 1) b + 1 - a = b + 1 - a := by omega
      have rest : b + 1 - (a + size) = 0 := by omega
      rw [clipped, rest, List.range'_zero, List.append_nil]
  | case2 a more =>
    have none : b + 1 - a = 0 := by omega
    rw [none]
    rfl

end AvaSettle.Data
