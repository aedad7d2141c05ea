import Mathlib.Algebra.Ring.Nat
import Mathlib.Data.Nat.ModEq

/-!
# Cyclic windows of a fixed array

A ring buffer keeps its elements in consecutive cells of a fixed array, wrapping at the end.
-/

namespace R9x.Lib.Ring

variable {α : Type*} {cap : Nat}

/-- The cell `offset` places after `head`, wrapping at the capacity. -/
def cell (head : Fin cap) (offset : Nat) : Fin cap :=
    ⟨(head.val + offset) % cap, Nat.mod_lt _ head.pos⟩

/-- The cells from `head` on hold exactly `xs`, and the remaining cells are empty. -/
def Holds (slots : Vector (Option α) cap) (head : Fin cap) (xs : List α) : Prop :=
  xs.length ≤ cap ∧ ∀ offset, offset < cap → slots.get (cell head offset) = xs[offset]?

/-- The values of the first `len` cells from `head` on, in order. -/
def window (slots : Vector (Option α) cap) (head : Fin cap) (len : Nat) : List α :=
  (List.range len).filterMap fun offset => slots.get (cell head offset)

lemma get_set (slots : Vector (Option α) cap) (written read : Fin cap) (value : Option α) :
    (slots.set written value).get read = if written = read then value else slots.get read := by
  change (slots.set written value)[read.val] = if written = read then value else slots[read.val]
  rw [Vector.getElem_set]
  simp only [Fin.ext_iff]

lemma cell_injective (head : Fin cap) {left right : Nat} (leftBound : left < cap)
    (rightBound : right < cap) (same : cell head left = cell head right) : left = right := by
  have values : (head.val + left) % cap = (head.val + right) % cap := congrArg Fin.val same
  have congruent : left ≡ right [MOD cap] := Nat.ModEq.add_left_cancel' head.val values
  exact Nat.ModEq.eq_of_lt_of_lt congruent leftBound rightBound

lemma cell_zero (head : Fin cap) : cell head 0 = head := by
  apply Fin.ext
  exact Nat.mod_eq_of_lt head.isLt

lemma cell_advance (head : Fin cap) (offset : Nat) : cell (cell head 1) offset = cell head
    (offset + 1) := by
  apply Fin.ext
  change ((head.val + 1) % cap + offset) % cap = (head.val + (offset + 1)) % cap
  rw [Nat.mod_add_mod]
  congr 1
  omega

lemma holds_nil (head : Fin cap) : Holds (Vector.replicate cap (none : Option α)) head [] :=
  ⟨Nat.zero_le _, fun offset _ => by
    change (Vector.replicate cap (none : Option α))[(cell head offset).val] = none
    rw [Vector.getElem_replicate]⟩

variable {slots : Vector (Option α) cap} {head : Fin cap} {xs : List α}

lemma Holds.first (held : Holds slots head xs) : slots.get head = xs.head? := by
  have value := held.2 0 head.pos
  rw [cell_zero] at value
  rw [value, List.head?_eq_getElem?]

lemma Holds.unique {ys : List α} (left : Holds slots head xs) (right : Holds slots head ys) :
    xs = ys := by
  apply List.ext_getElem?
  intro offset
  by_cases inside : offset < cap
  · rw [← left.2 offset inside, right.2 offset inside]
  have leftLength := left.1
  have rightLength := right.1
  rw [List.getElem?_eq_none (by omega), List.getElem?_eq_none (by omega)]

section

variable (f : Nat → Option α) (count : Nat) (defined : ∀ index, index < count → (f index).isSome)
include f count defined

lemma length_filterMap_range : ((List.range count).filterMap f).length = count := by
  rw [List.length_filterMap_eq_countP, List.countP_eq_length.mpr, List.length_range]
  intro index member
  exact defined index (List.mem_range.mp member)

lemma getElem?_filterMap_range (index : Nat) :
    ((List.range count).filterMap f)[index]? = if index < count then f index else none := by
  induction count with
  | zero => simp
  | succ count ih =>
    obtain ⟨value, last⟩ := Option.isSome_iff_exists.mp (defined count (Nat.lt_succ_self count))
    have prior : ∀ index, index < count → (f index).isSome := fun index bound =>
      defined index (Nat.lt_succ_of_lt bound)
    rw [List.range_succ, List.filterMap_append, List.getElem?_append,
      length_filterMap_range f count prior]
    by_cases before : index < count
    · rw [if_pos before, ih prior, if_pos before, if_pos (Nat.lt_succ_of_lt before)]
    by_cases here : index = count
    · subst here
      simp [last]
    rw [if_neg before, if_neg (by omega)]
    simp [last]
    omega

end

variable {len : Nat}

lemma holds_window (bounded : len ≤ cap)
    (filled : ∀ offset, offset < cap → ((slots.get (cell head offset)).isSome ↔ offset < len)) :
    Holds slots head (window slots head len) ∧ (window slots head len).length = len := by
  have defined : ∀ offset, offset < len → (slots.get (cell head offset)).isSome :=
    fun offset bound => (filled offset (Nat.lt_of_lt_of_le bound bounded)).mpr bound
  have positions := getElem?_filterMap_range (fun offset => slots.get (cell head offset)) len
    defined
  have length : (window slots head len).length = len := length_filterMap_range _ len defined
  refine ⟨⟨by omega, fun offset inside => ?_⟩, length⟩
  rw [window, positions]
  by_cases bound : offset < len
  · rw [if_pos bound]
  have empty := mt (filled offset inside).mp bound
  rw [if_neg bound]
  simpa using empty

lemma Holds.window_eq (held : Holds slots head xs) : window slots head xs.length = xs ∧
      ∀ offset, offset < cap → ((slots.get (cell head offset)).isSome ↔ offset < xs.length) := by
  have filled : ∀ offset, offset < cap → ((slots.get (cell head offset)).isSome ↔
    offset < xs.length) := by
    intro offset inside
    rw [held.2 offset inside]
    simp
  exact ⟨(holds_window held.1 filled).1.unique held, filled⟩

lemma Holds.push (held : Holds slots head xs) (length : xs.length = len) (room : len < cap)
    (x : α) : Holds (slots.set (cell head len) (some x)) head (xs ++ [x]) := by
  subst length
  refine ⟨by simpa using Nat.succ_le_of_lt room, fun offset inside => ?_⟩
  rw [get_set]
  by_cases last : offset = xs.length
  · subst last
    simp
  have apart : cell head xs.length ≠ cell head offset := fun same =>
    last (cell_injective head room inside same).symm
  rw [if_neg apart, held.2 offset inside]
  by_cases before : offset < xs.length
  · rw [List.getElem?_append_left before]
  · rw [List.getElem?_eq_none (by omega), List.getElem?_eq_none (by simp; omega)]

lemma Holds.pop {x : α} (held : Holds slots head (x :: xs)) :
    Holds (slots.set head none) (cell head 1) xs := by
  have bound := held.1
  simp only [List.length_cons] at bound
  refine ⟨by omega, fun offset inside => ?_⟩
  rw [cell_advance, get_set]
  by_cases last : offset + 1 = cap
  · have wrapped : head = cell head (offset + 1) := by
      apply Fin.ext
      change head.val = (head.val + (offset + 1)) % cap
      rw [last, Nat.add_mod_right, Nat.mod_eq_of_lt head.isLt]
    rw [if_pos wrapped, List.getElem?_eq_none (by omega)]
  have apart : head ≠ cell head (offset + 1) := fun same => by
    have zero : cell head 0 = cell head (offset + 1) := by
      rw [cell_zero]
      exact same
    have := cell_injective head head.pos (by omega) zero
    omega
  rw [if_neg apart, held.2 (offset + 1) (by omega), List.getElem?_cons_succ]

end R9x.Lib.Ring
