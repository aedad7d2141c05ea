import Mathlib.Algebra.Ring.Nat

/-!
# Checked arithmetic on 64-bit numbers

Natural numbers below `2 ^ 64`, with the operations that report an overflow.
-/

namespace R9x.Lib

def checkedAdd (left right : Nat) : Option Nat :=
    if left + right < 2 ^ 64 then some (left + right) else none

def checkedMul (left right : Nat) : Option Nat :=
    if left * right < 2 ^ 64 then some (left * right) else none

def checkedSub (left right : Nat) : Option Nat := if right ≤ left then some (left - right) else none

variable {left right : Nat}

lemma checkedAdd_some {sum : Nat} (added : checkedAdd left right = some sum) :
    sum = left + right ∧ left + right < 2 ^ 64 := by
  rw [checkedAdd] at added
  split at added
  · rename_i small
    exact ⟨(Option.some.inj added).symm, small⟩
  · cases added

lemma checkedMul_some {product : Nat} (multiplied : checkedMul left right = some product) :
    product = left * right ∧ left * right < 2 ^ 64 := by
  rw [checkedMul] at multiplied
  split at multiplied
  · rename_i small
    exact ⟨(Option.some.inj multiplied).symm, small⟩
  · cases multiplied

lemma checkedAdd_of_lt (small : left + right < 2 ^ 64) :
    checkedAdd left right = some (left + right) := if_pos small

lemma checkedMul_of_lt (small : left * right < 2 ^ 64) :
    checkedMul left right = some (left * right) := if_pos small

lemma checkedSub_of_le (ordered : right ≤ left) : checkedSub left right = some (left - right) :=
    if_pos ordered

end R9x.Lib
