import AvaSettle.Data.Lists
import Mathlib.Algebra.Order.Ring.Nat
import Mathlib.Tactic.Ring

/-!
# Decimal numerals

Unsigned decimal numerals with a fraction, and their rounding to a number of decimals, half up. A numeral
is rounded to its own value just when the digits that are dropped are zeros, and it is rounded up just when
the first of them is at least five.
-/

namespace AvaSettle.Data

/-- A numeral: the digits before and after the point. -/
structure Decimal where
  int : List Char
  frac : List Char
  digits : ∀ c ∈ int ++ frac, c.isDigit = true

namespace Decimal

/-- The number that digits stand for. -/
def value (l : List Char) : Nat := Nat.ofDigitChars 10 l 0

/-- The digits of a numeral as one number. -/
def mantissa (v : Decimal) : Nat := value (v.int ++ v.frac)

/-- The number of digits after the point. -/
def scale (v : Decimal) : Nat := v.frac.length

/-- The number of units with `d` decimals, rounded half up. -/
def units (v : Decimal) (d : Nat) : Nat :=
  if v.scale ≤ d then v.mantissa * 10 ^ (d - v.scale)
  else (v.mantissa + 5 * 10 ^ (v.scale - d - 1)) / 10 ^ (v.scale - d)

/-- A number of units with `d` decimals is the value of the numeral. -/
def Exact (v : Decimal) (d n : Nat) : Prop := n * 10 ^ v.scale = v.mantissa * 10 ^ d

instance {v : Decimal} {d n : Nat} : Decidable (v.Exact d n) := inferInstanceAs (Decidable (_ = _))

/-- The order of the values. -/
def Le (v u : Decimal) : Prop := v.mantissa * 10 ^ u.scale ≤ u.mantissa * 10 ^ v.scale

/-- The digits beyond the first `d` after the point are zeros. -/
def Fits (v : Decimal) (d : Nat) : Prop := ∀ c ∈ v.frac.drop d, c = '0'

/-- The first digit beyond the first `d` after the point is at least five. -/
def RoundsUp (v : Decimal) (d : Nat) : Prop := ∃ c ∈ v.frac[d]?, '5' ≤ c

/-- Reads a numeral: digits, and after a point further ones. -/
def ofString? (s : String) : Option Decimal :=
  let int := s.toList.takeWhile (· ≠ '.')
  let frac := (s.toList.dropWhile (· ≠ '.')).tail
  if digits : ∀ c ∈ int ++ frac, c.isDigit = true then some ⟨int, frac, digits⟩ else none

/-! ## Digits -/

variable {l l' : List Char} {c : Char} {d n : Nat} {v u : Decimal}

/-- No digits stand for zero. -/
@[simp] lemma value_nil : value [] = 0 := rfl

/-- Digits that are followed by others count for as many powers of ten more. -/
lemma value_append : value (l ++ l') = value l * 10 ^ l'.length + value l' := by
  rw [value, Nat.ofDigitChars_append, Nat.ofDigitChars_eq_ofDigitChars_zero, Nat.mul_comm]
  rfl

/-- The first digit counts for as many powers of ten as digits follow. -/
lemma value_cons : value (c :: l) = (c.toNat - 48) * 10 ^ l.length + value l := by
  have head : value [c] = c.toNat - 48 := by simp [value, Nat.ofDigitChars_cons]
  rw [← head]
  exact value_append (l := [c])

/-- The codes of the digits. -/
lemma digit_le (digit : c.isDigit = true) : 48 ≤ c.toNat ∧ c.toNat ≤ 57 := by
  simp only [Char.isDigit, Bool.and_eq_true, decide_eq_true_eq] at digit
  exact digit

/-- Digits stand for less than the next power of ten. -/
lemma value_lt (digits : ∀ c ∈ l, c.isDigit = true) : value l < 10 ^ l.length := by
  induction l with
  | nil => simp
  | cons c l ih =>
    obtain ⟨here, later⟩ := List.forall_mem_cons.1 digits
    have digit := digit_le here
    have rest := ih later
    have head : c.toNat - 48 ≤ 9 := by omega
    have most : (c.toNat - 48) * 10 ^ l.length ≤ 9 * 10 ^ l.length := Nat.mul_le_mul_right _ head
    rw [value_cons, List.length_cons, Nat.pow_succ]
    omega

/-- Digits stand for zero just when all of them are zeros. -/
lemma value_eq_zero (digits : ∀ c ∈ l, c.isDigit = true) : value l = 0 ↔ ∀ c ∈ l, c = '0' := by
  induction l with
  | nil => simp
  | cons c l ih =>
    obtain ⟨here, later⟩ := List.forall_mem_cons.1 digits
    have digit := digit_le here
    have zero : c = '0' ↔ c.toNat - 48 = 0 := by
      rw [← Char.toNat_inj]
      change c.toNat = 48 ↔ _
      omega
    rw [value_cons, List.forall_mem_cons, ← ih later, zero, Nat.add_eq_zero_iff, Nat.mul_eq_zero]
    simp

/-- The digits that are dropped are at least half a unit just when the first of them is at least five. -/
lemma half_le_value (digits : ∀ x ∈ c :: l, x.isDigit = true) :
    5 * 10 ^ l.length ≤ value (c :: l) ↔ '5' ≤ c := by
  obtain ⟨here, later⟩ := List.forall_mem_cons.1 digits
  have digit := digit_le here
  have rest := value_lt later
  have five : '5' ≤ c ↔ 53 ≤ c.toNat := Iff.rfl
  rw [value_cons, five]
  constructor
  · intro half
    by_contra small
    have most : (c.toNat - 48) * 10 ^ l.length ≤ 4 * 10 ^ l.length := Nat.mul_le_mul_right _ (by omega)
    omega
  · intro large
    have least : 5 * 10 ^ l.length ≤ (c.toNat - 48) * 10 ^ l.length := Nat.mul_le_mul_right _ (by omega)
    omega

/-! ## Rounding -/

/-- The whole units of a numeral. -/
def whole (v : Decimal) (d : Nat) : Nat := value (v.int ++ v.frac.take d)

/-- The number that the digits beyond the first `d` after the point stand for. -/
def dropped (v : Decimal) (d : Nat) : Nat := value (v.frac.drop d)

/-- The mantissa is made of the digits that are kept and those that are dropped. -/
lemma mantissa_eq : v.mantissa = v.whole d * 10 ^ (v.frac.drop d).length + v.dropped d := by
  rw [mantissa, whole, dropped, ← value_append, List.append_assoc, List.take_append_drop]

/-- What is dropped is less than one unit of what is kept. -/
lemma dropped_lt : v.dropped d < 10 ^ (v.frac.drop d).length :=
  value_lt fun c mem => v.digits c (List.mem_append_right _ (List.mem_of_mem_drop mem))

/-- A numeral fits just when the digits that are dropped are zeros. -/
lemma fits_iff : v.Fits d ↔ v.dropped d = 0 :=
  (value_eq_zero fun c mem => v.digits c (List.mem_append_right _ (List.mem_of_mem_drop mem))).symm

/-- A numeral with more digits is cut, and one unit is added where it is rounded up. -/
lemma units_of_lt (more : d < v.scale) :
    (v.RoundsUp d ∧ 0 < v.dropped d ∧ v.units d = v.whole d + 1) ∨ (¬ v.RoundsUp d ∧ v.units d = v.whole d) := by
  obtain ⟨c, l, eq⟩ : ∃ c l, v.frac.drop d = c :: l := by
    cases eq : v.frac.drop d with
    | nil => exact absurd more (by rw [scale, Nat.not_lt]; exact List.drop_eq_nil_iff.1 eq)
    | cons c l => exact ⟨c, l, rfl⟩
  have first : v.frac[d]? = some c := by
    rw [← List.head?_drop, eq]
    rfl
  have digits : ∀ x ∈ c :: l, x.isDigit = true := by
    intro x mem
    exact v.digits x (List.mem_append_right _ (List.mem_of_mem_drop (eq ▸ mem)))
  have rounds : v.RoundsUp d ↔ 5 * 10 ^ l.length ≤ v.dropped d := by
    rw [RoundsUp, dropped, eq, half_le_value digits, first]
    simp
  have length : v.scale - d = l.length + 1 := by
    have drop := congrArg List.length eq
    rwa [List.length_drop, List.length_cons] at drop
  have lt : v.dropped d < 10 ^ (l.length + 1) := by
    have lt := dropped_lt (v := v) (d := d)
    rwa [eq, List.length_cons] at lt
  have split : v.mantissa = v.whole d * 10 ^ (l.length + 1) + v.dropped d := by
    have split := mantissa_eq (v := v) (d := d)
    rwa [eq, List.length_cons] at split
  have power : 10 ^ (l.length + 1) = 10 * 10 ^ l.length := Nat.pow_succ'
  rw [rounds, units, if_neg (by omega), length, Nat.add_sub_cancel, split]
  have positive : 0 < 10 ^ (l.length + 1) := Nat.pow_pos (by decide)
  rw [Nat.add_assoc, Nat.mul_comm (v.whole d), Nat.mul_add_div positive]
  by_cases half : 5 * 10 ^ l.length ≤ v.dropped d
  · have least : 0 < 10 ^ l.length := Nat.pow_pos (by decide)
    refine .inl ⟨half, by omega, congrArg _ (Nat.div_eq_of_lt_le ?_ ?_)⟩ <;> omega
  · refine .inr ⟨half, ?_⟩
    rw [Nat.div_eq_of_lt (by omega), Nat.add_zero]

/-- A numeral with few enough decimals has exact units. -/
lemma units_of_le (few : v.scale ≤ d) : v.Exact d (v.units d) := by
  rw [Exact, units, if_pos few, Nat.mul_assoc, ← Nat.pow_add, Nat.sub_add_cancel few]

/-- A numeral is rounded to its value just when the digits that are dropped are zeros. -/
theorem units_exact_iff : v.Exact d (v.units d) ↔ v.Fits d := by
  by_cases few : v.scale ≤ d
  · have none : v.frac.drop d = [] := List.drop_eq_nil_of_le few
    exact ⟨fun _ c mem => absurd (none ▸ mem) List.not_mem_nil, fun _ => units_of_le few⟩
  · have lt := dropped_lt (v := v) (d := d)
    rw [List.length_drop] at lt
    have power : 10 ^ v.scale = 10 ^ (v.scale - d) * 10 ^ d := by
      rw [← Nat.pow_add, Nat.sub_add_cancel (by omega)]
    have split := mantissa_eq (v := v) (d := d)
    rw [List.length_drop] at split
    rw [fits_iff, Exact, power, ← Nat.mul_assoc, Nat.mul_left_inj (Nat.pow_pos (by decide)).ne', split]
    rw [scale] at *
    rcases units_of_lt (Nat.lt_of_not_le few) with ⟨-, some, eq⟩ | ⟨-, eq⟩
    · rw [eq, Nat.add_mul, Nat.one_mul]
      omega
    · rw [eq]
      omega

/-- Units that are at most those of a rounded bound are at most the bound, unless it is rounded up to just
    these units. -/
theorem le_iff_of_exact (exact : v.Exact d n) (below : n ≤ u.units d) :
    v.Le u ↔ (u.RoundsUp d → n ≠ u.units d) := by
  have scaled : v.Le u ↔ n * 10 ^ u.scale ≤ u.mantissa * 10 ^ d := by
    have left : n * 10 ^ u.scale * 10 ^ v.scale = v.mantissa * 10 ^ u.scale * 10 ^ d := by
      rw [Nat.mul_right_comm, exact, Nat.mul_right_comm]
    have p : 0 < 10 ^ d := Nat.pow_pos (by decide)
    have q : 0 < 10 ^ v.scale := Nat.pow_pos (by decide)
    rw [← Nat.mul_le_mul_right_iff q, left, Nat.mul_right_comm u.mantissa, Nat.mul_le_mul_right_iff p, Le]
  rw [scaled]
  by_cases few : u.scale ≤ d
  · have exact : u.units d * 10 ^ u.scale = u.mantissa * 10 ^ d := units_of_le few
    have no : ¬ u.RoundsUp d := by
      rintro ⟨c, mem, _⟩
      have none : u.frac[d]? = none := List.getElem?_eq_none few
      rw [none] at mem
      cases mem
    rw [← exact]
    exact ⟨fun _ rounds => absurd rounds no, fun _ => Nat.mul_le_mul_right _ below⟩
  · have lt := dropped_lt (v := u) (d := d)
    have split := mantissa_eq (v := u) (d := d)
    rw [List.length_drop] at lt split
    have power : 10 ^ u.scale = 10 ^ (u.scale - d) * 10 ^ d := by
      rw [← Nat.pow_add, Nat.sub_add_cancel (by omega)]
    have p : 0 < 10 ^ d := Nat.pow_pos (by decide)
    have cut : n * 10 ^ u.scale ≤ u.mantissa * 10 ^ d ↔ n ≤ u.whole d := by
      rw [power, ← Nat.mul_assoc, Nat.mul_le_mul_right_iff p, split, scale]
      constructor
      · intro le
        by_contra more
        have least : (u.whole d + 1) * 10 ^ (u.frac.length - d) ≤ n * 10 ^ (u.frac.length - d) :=
          Nat.mul_le_mul_right _ (by omega)
        rw [Nat.add_mul, Nat.one_mul] at least
        omega
      · intro le
        have most : n * 10 ^ (u.frac.length - d) ≤ u.whole d * 10 ^ (u.frac.length - d) :=
          Nat.mul_le_mul_right _ le
        omega
    rw [cut]
    rcases units_of_lt (Nat.lt_of_not_le few) with ⟨up, -, eq⟩ | ⟨down, eq⟩
    · rw [eq] at below ⊢
      exact ⟨fun le _ => by omega, fun other => by have := other up; omega⟩
    · rw [eq] at below
      exact ⟨fun _ up => absurd up down, fun _ => below⟩

end Decimal

end AvaSettle.Data
