import Mathlib.Algebra.Ring.Nat
import Mathlib.Data.BitVec

/-!
# Bit fields of a word

A field is a run of consecutive bits of a fixed-width word.
-/

namespace R9x.Lib.Bits

variable {size width : Nat}

/-- The bits of a field, all set. -/
def mask (size low width : Nat) : BitVec size := (BitVec.allOnes width).setWidth size <<< low

/-- Replace the field that starts at a bit. -/
def setField (word : BitVec size) (low : Nat) (value : BitVec width) : BitVec size :=
  (word &&& ~~~mask size low width) ||| (value.setWidth size <<< low)

variable (word : BitVec size) (low : Nat) (value : BitVec width)
include word low value

lemma getLsbD_setField (bit : Nat) : (setField word low value).getLsbD bit =
      if low ≤ bit ∧ bit < low + width then decide (bit < size) && value.getLsbD (bit - low)
      else word.getLsbD bit := by
  simp only [setField, mask, BitVec.getLsbD_or, BitVec.getLsbD_and, BitVec.getLsbD_not,
    BitVec.getLsbD_shiftLeft, BitVec.getLsbD_setWidth, BitVec.getLsbD_allOnes]
  by_cases inside : low ≤ bit ∧ bit < low + width
  · have above : ¬ bit < low := by omega
    have below : bit - low < width := by omega
    by_cases bounded : bit < size
    · have shifted : bit - low < size := by omega
      simp [inside, above, below, bounded, shifted]
    · simp [inside, bounded]
  rw [if_neg inside]
  by_cases bounded : bit < size
  · by_cases above : bit < low
    · simp [above, bounded]
    · have beyond : ¬ bit - low < width := by omega
      have zero : value.getLsbD (bit - low) = false := BitVec.getLsbD_of_ge _ _ (by omega)
      simp [above, bounded, beyond, zero]
  have zero : word.getLsbD bit = false := BitVec.getLsbD_of_ge _ _ (by omega)
  simp [bounded, zero]

lemma extract_setField (fits : low + width ≤ size) :
    (setField word low value).extractLsb' low width = value := by
  apply BitVec.eq_of_getLsbD_eq
  intro bit bounded
  rw [BitVec.getLsbD_extractLsb', getLsbD_setField]
  have inside : low ≤ low + bit ∧ low + bit < low + width := by omega
  have small : low + bit < size := by omega
  have position : low + bit - low = bit := by omega
  simp [bounded, small, position]

lemma extract_setField_other (otherLow otherWidth : Nat)
    (apart : otherLow + otherWidth ≤ low ∨ low + width ≤ otherLow) :
    (setField word low value).extractLsb' otherLow otherWidth = word.extractLsb' otherLow
    otherWidth := by
  apply BitVec.eq_of_getLsbD_eq
  intro bit bounded
  rw [BitVec.getLsbD_extractLsb', BitVec.getLsbD_extractLsb', getLsbD_setField]
  have outside : ¬ (low ≤ otherLow + bit ∧ otherLow + bit < low + width) := by omega
  rw [if_neg outside]

end R9x.Lib.Bits
