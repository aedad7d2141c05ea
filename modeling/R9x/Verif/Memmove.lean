import R9x.R9xStd.Builtin

/-!
# Moving, copying, setting and comparing bytes

Both loops of `memmove` do what a copy through a buffer does: neither overwrites a byte that it has
still to read.
-/

namespace R9x.Verif.Memmove

open Lib R9xStd.Builtin
open Function (update_apply)

variable {dst src n : Nat} {mem : ByteMem}

/-- What has been written ends before the byte that is read next. -/
lemma foldl_up (below : dst < src) : (List.range n).foldl (moveByte dst src) mem =
    copyBytes mem src dst n := by
  induction n with
  | zero => exact copyBytes_zero.symm
  | succ n ih =>
    have unread : copyBytes mem src dst n (src + n) = mem (src + n) := copyBytes_outside (by omega)
    rw [List.range_succ, List.foldl_append, ih, copyBytes_succ, ← unread]
    rfl

/-- What is written first is behind all that is read later. -/
lemma foldl_down (above : src ≤ dst) :
    (List.range n).reverse.foldl (moveByte dst src) mem = copyBytes mem src dst n := by
  induction n generalizing mem with
  | zero => exact copyBytes_zero.symm
  | succ n ih =>
    rw [List.range_succ, List.reverse_append, List.reverse_singleton, List.singleton_append,
      List.foldl_cons, ih,
      copyBytes_succ]
    funext place
    rw [update_apply]
    by_cases inside : dst ≤ place ∧ place < dst + n
    · rw [if_neg (by omega), copyBytes, copyBytes, if_pos inside, if_pos inside, moveByte,
        update_apply,
        if_neg (by omega)]
    · rw [copyBytes_outside (by omega), copyBytes_outside (by omega), moveByte, update_apply]

lemma memmove_eq : memmove dst src n mem = (dst, copyBytes mem src dst n) := by
  rw [memmove]
  split
  · rename_i below
    rw [foldl_up below]
  · rename_i above
    rw [foldl_down (Nat.le_of_not_lt above)]

/-- For every two addresses and every length: `memmove` returns the target, at which it leaves the
bytes that were at the source before the call, and it changes no other byte. -/
theorem memmove_moves (dst src n : Nat) (mem : ByteMem) :
    (memmove dst src n mem).1 = dst ∧
    (∀ i < n, (memmove dst src n mem).2 (dst + i) = mem (src + i)) ∧
    ∀ place, place < dst ∨ dst + n ≤ place → (memmove dst src n mem).2 place = mem place := by
  rw [memmove_eq]
  exact ⟨rfl, fun i inside => copyBytes_inside inside, fun place outside =>
    copyBytes_outside outside⟩

lemma copyLoop_eq (ahead : dst ≤ src ∨ src + n ≤ dst) :
    copyLoop mem dst src n = copyBytes mem src dst n := by
  induction n generalizing dst src mem with
  | zero => exact copyBytes_zero.symm
  | succ n ih =>
    rw [copyLoop, ih (by omega)]
    funext place
    by_cases first : place = dst
    · rw [first, copyBytes_outside (.inl (Nat.lt_succ_self dst)), Function.update_self, copyBytes,
        if_pos (by omega), Nat.sub_self, Nat.add_zero]
    by_cases later : dst + 1 ≤ place ∧ place < dst + 1 + n
    · have same : src + 1 + (place - (dst + 1)) = src + (place - dst) := by omega
      rw [copyBytes, copyBytes, if_pos later, if_pos (by omega), same, update_apply,
        if_neg (by omega)]
    · rw [copyBytes_outside (by omega), copyBytes_outside (by omega), update_apply, if_neg first]

/-- `memcpy` does what `memmove` does where the regions are apart, as its contract asks, and also
where the target is the lower one. -/
theorem memcpy_eq_memmove (ahead : dst ≤ src ∨ src + n ≤ dst) :
    memcpy dst src n mem = memmove dst src n mem := by
  rw [memcpy, copyLoop_eq ahead, memmove_eq]

/-- A copy to a lower address that overlaps. -/
theorem memcpy_eq_memmove_low : memcpy 0 1 9 (.ofNat 8) = memmove 0 1 9 (.ofNat 8) :=
  memcpy_eq_memmove (.inl (by decide))

/-- `memset` writes the byte at every place of the range and nowhere else. -/
theorem memset_sets (dst n : Nat) (c : BitVec 8) (mem : ByteMem) (place : Nat) :
    (memset dst c n mem).2 place =
      if dst ≤ place ∧ place < dst + n then c else mem place := by
  rw [memset]
  induction n generalizing dst mem with
  | zero => rw [setLoop, if_neg (by omega)]
  | succ n ih =>
    rw [setLoop, ih, update_apply]
    by_cases first : place = dst
    · rw [if_neg (by omega), if_pos first, if_pos (by omega)]
    · rw [if_neg first]
      exact if_congr (by omega) rfl rfl

/-- `memcmp` decides at the first place at which the bytes differ. -/
theorem memcmp_first (mem : ByteMem) (a b n : Nat) :
    ((∀ i < n, mem (a + i) = mem (b + i)) ∧ memcmp mem a b n = 0) ∨
    ∃ i < n, (∀ j < i, mem (a + j) = mem (b + j)) ∧ mem (a + i) ≠ mem (b + i) ∧
      memcmp mem a b n = (mem (a + i)).toNat - (mem (b + i)).toNat := by
  induction n generalizing a b with
  | zero => exact .inl ⟨fun i none => absurd none (Nat.not_lt_zero i), rfl⟩
  | succ n ih =>
    rw [memcmp]
    by_cases first : mem a = mem b
    swap
    · rw [if_pos first]
      exact .inr ⟨0, Nat.succ_pos n, fun j none => absurd none (Nat.not_lt_zero j), first, rfl⟩
    rw [if_neg (not_not.mpr first)]
    have rest := ih (a + 1) (b + 1)
    simp only [Nat.add_assoc, Nat.add_comm 1] at rest
    rcases rest with ⟨same, zero⟩ | ⟨i, inside, same, differ, value⟩
    · exact .inl ⟨Nat.forall_lt_succ_left.mpr ⟨first, same⟩, zero⟩
    · exact .inr ⟨i + 1, Nat.succ_lt_succ inside, Nat.forall_lt_succ_left.mpr ⟨first, same⟩,
        differ, value⟩

end R9x.Verif.Memmove
