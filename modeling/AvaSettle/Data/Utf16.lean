import Mathlib.Data.List.Lex
import Mathlib.Data.List.Sort

/-!
# Strings by code units

JavaScript compares strings by their UTF-16 code units, which is not the order of their characters: a
character beyond the basic plane is a pair of surrogates, and these come before some characters of the
plane. The code units determine the string, so two lists of strings are sorted alike just when they are
permutations of each other.
-/

namespace AvaSettle.Data

/-- The code units of a character. -/
def charUnits (c : Char) : List Nat :=
  if c.toNat < 0x10000 then [c.toNat]
  else [0xD800 + (c.toNat - 0x10000) / 0x400, 0xDC00 + (c.toNat - 0x10000) % 0x400]

/-- The code units of a string. -/
def codeUnits (s : String) : List Nat := s.toList.flatMap charUnits

/-- `Array.prototype.sort` of strings. -/
def sortStrings (l : List String) : List String :=
  l.insertionSort fun a b => codeUnits a ≤ codeUnits b

variable {a b : Char} {s t : List Nat} {l l' : List String}

/-- The code units of a character end by themselves. -/
lemma charUnits_append (eq : charUnits a ++ s = charUnits b ++ t) : a = b ∧ s = t := by
  have validA : a.toNat < 0xD800 ∨ 0xDFFF < a.toNat ∧ a.toNat < 0x110000 := a.valid
  have validB : b.toNat < 0xD800 ∨ 0xDFFF < b.toNat ∧ b.toNat < 0x110000 := b.valid
  -- A surrogate is no character, so the first unit says how many there are.
  unfold charUnits at eq
  split at eq <;> split at eq <;>
    simp only [List.cons_append, List.nil_append, List.cons.injEq] at eq
  case isTrue.isTrue => exact ⟨Char.toNat_inj.1 eq.1, eq.2⟩
  case isTrue.isFalse => omega
  case isFalse.isTrue => omega
  case isFalse.isFalse => exact ⟨Char.toNat_inj.1 (by omega), eq.2.2⟩

/-- A character has code units. -/
lemma charUnits_ne_nil : charUnits a ≠ [] := by
  unfold charUnits
  split <;> exact List.cons_ne_nil _ _

/-- A string is determined by its code units. -/
theorem codeUnits_injective : Function.Injective codeUnits := by
  have units {l l' : List Char} (eq : l.flatMap charUnits = l'.flatMap charUnits) : l = l' := by
    induction l generalizing l' with
    | nil =>
      cases l' with
      | nil => rfl
      | cons b l' => simp [charUnits_ne_nil] at eq
    | cons a l ih =>
      cases l' with
      | nil => simp [charUnits_ne_nil] at eq
      | cons b l' =>
        obtain ⟨rfl, rest⟩ := charUnits_append eq
        rw [ih rest]
  intro s t eq
  exact String.toList_inj.1 (units eq)

/-- Sorting keeps the strings. -/
lemma mem_sortStrings {a : String} : a ∈ sortStrings l ↔ a ∈ l := List.mem_insertionSort _

/-- Lists are sorted alike just when they are permutations of each other. -/
theorem sortStrings_eq_iff : sortStrings l = sortStrings l' ↔ l.Perm l' := by
  have total : Std.Total fun a b => codeUnits a ≤ codeUnits b := ⟨fun _ _ => le_total _ _⟩
  have trans : IsTrans String fun a b => codeUnits a ≤ codeUnits b := ⟨fun _ _ _ h h' => h.trans h'⟩
  have antisymm : Std.Antisymm fun a b => codeUnits a ≤ codeUnits b :=
    ⟨fun _ _ h h' => codeUnits_injective (h.antisymm h')⟩
  constructor
  · intro eq
    have perm : (sortStrings l').Perm l' := List.perm_insertionSort _ l'
    rw [← eq] at perm
    exact (List.perm_insertionSort _ l).symm.trans perm
  · intro perm
    exact List.Perm.eq_of_pairwise' (List.pairwise_insertionSort _ l) (List.pairwise_insertionSort _ l')
      ((List.perm_insertionSort _ l).trans (perm.trans (List.perm_insertionSort _ l').symm))

end AvaSettle.Data
