import Mathlib.Algebra.Ring.Nat
import Mathlib.Tactic.Common

/-!
# Words in byte memory

Memory is a byte for every address.
-/

namespace R9x.Lib

/-- A byte for every address. -/
abbrev ByteMem := Nat → BitVec 8

/-- The number in some bytes, lowest byte first. -/
def readLe (mem : ByteMem) : Nat → Nat → Nat
  | _, 0 => 0
  | addr, bytes + 1 => (mem addr).toNat + 256 * readLe mem (addr + 1) bytes

/-- Write a number over some bytes, lowest byte first. -/
def writeLe (mem : ByteMem) (addr bytes value : Nat) : ByteMem :=
  fun place =>
  if addr ≤ place ∧ place < addr + bytes then BitVec.ofNat 8 (value / 256 ^ (place - addr))
    else mem place

/-- Copy some bytes, as if through a buffer. -/
def copyBytes (mem : ByteMem) (source target count : Nat) : ByteMem :=
  fun place =>
  if target ≤ place ∧ place < target + count then mem (source + (place - target)) else mem place

variable {mem other : ByteMem} {addr bytes value : Nat}

lemma writeLe_outside {place : Nat} (outside : place < addr ∨ addr + bytes ≤ place) :
    writeLe mem addr bytes value place = mem place := by
  rw [writeLe, if_neg (by omega)]

section

variable {source target count : Nat}

lemma copyBytes_outside {place : Nat} (outside : place < target ∨ target + count ≤ place) :
    copyBytes mem source target count place = mem place := by
  rw [copyBytes, if_neg (by omega)]

lemma copyBytes_inside {offset : Nat} (inside : offset < count) :
    copyBytes mem source target count (target + offset) = mem (source + offset) := by
  rw [copyBytes, if_pos (by omega), Nat.add_sub_cancel_left]

lemma copyBytes_zero : copyBytes mem source target 0 = mem := by
  funext place
  exact copyBytes_outside (by omega)

/-- A copy of one byte more writes that byte last. -/
lemma copyBytes_succ : copyBytes mem source target (count + 1) =
      Function.update (copyBytes mem source target count) (target + count)
        (mem (source + count)) := by
  funext place
  rw [Function.update_apply]
  split
  · rename_i last
    rw [last, copyBytes_inside (Nat.lt_succ_self count)]
  rename_i other
  by_cases inside : target ≤ place ∧ place < target + count
  · rw [copyBytes, copyBytes, if_pos inside, if_pos (by omega)]
  · rw [copyBytes_outside (by omega), copyBytes_outside (by omega)]

end

lemma readLe_congr (same : ∀ place, addr ≤ place → place < addr + bytes → other place = mem place) :
    readLe other addr bytes = readLe mem addr bytes := by
  induction bytes generalizing addr with
  | zero => rfl
  | succ bytes ih =>
    have first := same addr (Nat.le_refl _) (by omega)
    have rest : readLe other (addr + 1) bytes = readLe mem (addr + 1) bytes :=
      ih fun place low high => same place (by omega) (by omega)
    rw [readLe, readLe, first, rest]

lemma readLe_digits (digits : ∀ offset, offset < bytes →
    mem (addr + offset) = BitVec.ofNat 8 (value / 256 ^ offset)) :
    readLe mem addr bytes = value % 256 ^ bytes := by
  induction bytes generalizing addr value with
  | zero => rw [readLe, Nat.pow_zero, Nat.mod_one]
  | succ bytes ih =>
    have first : (mem addr).toNat = value % 256 := by
      have digit := digits 0 (by omega)
      rw [Nat.add_zero, Nat.pow_zero, Nat.div_one] at digit
      rw [digit, BitVec.toNat_ofNat]
    have rest : readLe mem (addr + 1) bytes = value / 256 % 256 ^ bytes := by
      apply ih
      intro offset small
      have digit := digits (offset + 1) (by omega)
      rw [Nat.div_div_eq_div_mul, ← Nat.pow_succ', Nat.add_assoc, Nat.add_comm 1 offset]
      exact digit
    rw [readLe, first, rest, Nat.pow_succ', Nat.mod_mul]

lemma readLe_writeLe : readLe (writeLe mem addr bytes value) addr bytes = value % 256 ^ bytes := by
  apply readLe_digits
  intro offset small
  rw [writeLe, if_pos (by omega), Nat.add_sub_cancel_left]

end R9x.Lib
