import AvaSettle.Evm.Code
import AvaSettle.Model.World

/-!
# Arguments of contract calls

The services write addresses, hashes and words as hexadecimal strings. What a contract sees of such a
string is the number that it denotes, whatever the case of its digits.
-/

namespace AvaSettle

/-- The value of a hexadecimal digit. -/
def hexDigit (c : Char) : Nat :=
  if c.isDigit then c.toNat - '0'.toNat else c.toLower.toNat - 'a'.toNat + 10

/-- The number that a `0x` string denotes. -/
def hexValue (h : Hex) : Nat :=
  (h.toList.drop 2).foldl (fun n c => 16 * n + hexDigit c) 0

/-- A `bytes32` argument. -/
def wordOf (h : Hex) : Evm.Word := BitVec.ofNat 256 (hexValue h)

/-- An `address` argument. -/
def addressOf (h : Hex) : Evm.Address := BitVec.ofNat 160 (hexValue h)

/-- A hexadecimal digit counts the same in lower case. -/
lemma hexDigit_toLower {c : Char} : hexDigit c.toLower = hexDigit c := by
  by_cases upper : c.val ≥ 'A'.val ∧ c.val ≤ 'Z'.val
  · have code : c.toNat - 65 < 26 ∧ c.toNat - 65 + 65 = c.toNat := by
      have above : 65 ≤ c.toNat := UInt32.le_iff_toNat_le.1 upper.1
      have below : c.toNat ≤ 90 := UInt32.le_iff_toNat_le.1 upper.2
      omega
    have letters : ∀ n < 26, hexDigit (Char.ofNat (n + 65)).toLower =
        hexDigit (Char.ofNat (n + 65)) := by decide
    have letter := letters _ code.1
    rwa [code.2, Char.ofNat_toNat] at letter
  · exact congrArg hexDigit (dif_neg upper)

/-- A hexadecimal string counts the same in lower case. -/
lemma hexValue_toLower {h : Hex} : hexValue h.toLower = hexValue h := by
  have lower : h.toLower.toList = h.toList.map Char.toLower := String.toList_map
  rw [hexValue, lower, ← List.map_drop, List.foldl_map]
  simp only [hexDigit_toLower]
  rfl

/-- Strings that are compared equal denote one number. -/
lemma hexValue_of_sameHex {h h' : Hex} (same : sameHex h h' = true) : hexValue h = hexValue h' := by
  rw [sameHex, beq_iff_eq] at same
  rw [← hexValue_toLower, same, hexValue_toLower]

/-- Hexadecimal strings that are the same up to case have one word. -/
lemma wordOf_of_sameHex {h h' : Hex} (same : sameHex h h' = true) : wordOf h = wordOf h' := by
  rw [wordOf, hexValue_of_sameHex same, wordOf]

end AvaSettle
