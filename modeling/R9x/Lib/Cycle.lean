import Mathlib.Algebra.Ring.Nat
import Mathlib.Data.List.FinRange
import Mathlib.Data.Nat.ModEq

/-!
# Turns around a circle

Places on a circle of `n` places, the first place after a start that passes a test, and a sequence
that goes through a list again and again.
-/

namespace R9x.Lib.Cycle

variable {n residue count : Nat}

/-- The place some steps after a start. -/
def around (pos : 0 < n) (start off : Nat) : Fin n := ⟨(start + off) % n, Nat.mod_lt _ pos⟩

/-- The first place after a start, at most once around, that passes a test. -/
def firstAround (pos : 0 < n) (start : Nat) (test : Fin n → Bool) : Option (Fin n) :=
  ((List.range' 1 n).map (around pos start)).find? test

lemma reach_residue (begin : Nat) (bound : residue < count) :
    (begin + (residue + (count - begin % count))) % count = residue := by
  have below := Nat.mod_lt begin (Nat.zero_lt_of_lt bound)
  have parts := Nat.div_add_mod begin count
  have sum : begin + (residue + (count - begin % count)) = residue + count + count *
    (begin / count) := by
    omega
  rw [sum, Nat.add_mul_mod_self_left, Nat.add_mod_right, Nat.mod_eq_of_lt bound]

section

variable {pos : 0 < n} {start off : Nat} {test : Fin n → Bool} {place : Fin n}

lemma firstAround_test (found : firstAround pos start test = some place) : test place = true :=
  List.find?_some found

lemma firstAround_eq (one : 1 ≤ off) (once : off ≤ n) (passed : test (around pos start off) = true)
    (failed : ∀ earlier, 1 ≤ earlier → earlier < off → test (around pos start earlier) = false) :
    firstAround pos start test = some (around pos start off) := by
  have found : (List.range' 1 n).find? (test ∘ around pos start) = some off := by
    apply List.find?_range'_eq_some.mpr
    refine ⟨passed, List.mem_range'_1.mpr ⟨one, by omega⟩, ?_⟩
    intro earlier least below
    rw [Function.comp_apply, failed earlier least below]
    rfl
  rw [firstAround, List.find?_map, found]
  rfl

lemma exists_around (pos : 0 < n) (start : Nat) (place : Fin n) :
    ∃ off, 1 ≤ off ∧ off ≤ n ∧ around pos start off = place := by
  have whole := reach_residue start place.isLt
  have below := Nat.mod_lt start pos
  by_cases far : n < place.val + (n - start % n)
  · refine ⟨place.val + (n - start % n) - n, by omega, by omega, Fin.ext ?_⟩
    have turned := Nat.add_mod_right (start + (place.val + (n - start % n) - n)) n
    rw [show start + (place.val + (n - start % n) - n) + n =
      start + (place.val + (n - start % n)) by omega,
      whole] at turned
    exact turned.symm
  · exact ⟨place.val + (n - start % n), by omega, by omega, Fin.ext whole⟩

lemma exists_firstAround (pos : 0 < n) (start : Nat) (test : Fin n → Bool) {place : Fin n}
    (passed : test place = true) :
    ∃ found, firstAround pos start test = some found := by
  cases search : firstAround pos start test with
  | some found => exact ⟨found, rfl⟩
  | none =>
    obtain ⟨off, one, once, rfl⟩ := exists_around pos start place
    have none_passes := List.find?_eq_none.mp search (around pos start off)
      (List.mem_map_of_mem (List.mem_range'_1.mpr ⟨one, by omega⟩))
    exact absurd passed none_passes

lemma firstAround_sorted {order : List (Fin n)} (sorted : order.Pairwise (· < ·))
    (many : 2 ≤ order.length)
    {index : Nat} {current : Fin n} (place : order[index]? = some current)
    (tests : ∀ slot, test slot = true ↔ slot ∈ order ∧ slot ≠ current) :
    firstAround pos current.val test = order[(index + 1) % order.length]? := by
  obtain ⟨inside, here⟩ := List.getElem?_eq_some_iff.mp place
  have increasing := List.pairwise_iff_getElem.mp sorted
  have fails : ∀ slot : Fin n, slot ∉ order → test slot = false := by
    intro slot outside
    exact Bool.eq_false_iff.mpr fun passed => outside ((tests slot).mp passed).1
  by_cases last : index + 1 < order.length
  · -- the next member is further along the circle, before its end
    have later : current < order[index + 1] :=
      here ▸ increasing index (index + 1) inside last (by omega)
    have ahead : current.val < order[index + 1].val := later
    have step : around pos current.val (order[index + 1].val - current.val) = order[index + 1] := by
      apply Fin.ext
      change (current.val + (order[index + 1].val - current.val)) % n = order[index + 1].val
      rw [Nat.add_sub_cancel' (Nat.le_of_lt ahead), Nat.mod_eq_of_lt order[index + 1].isLt]
    rw [Nat.mod_eq_of_lt last, List.getElem?_eq_getElem last, ← step]
    apply firstAround_eq (by omega) (by omega)
    · rw [step]
      exact (tests _).mpr ⟨List.getElem_mem last, Fin.ne_of_gt later⟩
    · intro earlier one below
      apply fails
      intro member
      obtain ⟨j, within, same⟩ := List.getElem_of_mem member
      have value : (order[j]).val = current.val + earlier := by
        rw [same]
        exact Nat.mod_eq_of_lt (show current.val + earlier < n by omega)
      rcases Nat.lt_trichotomy j index with before | rfl | after
      · have less : order[j] < current := here ▸ increasing j index within inside before
        omega
      · omega
      rcases Nat.eq_or_lt_of_le after with rfl | beyond
      · change (order[index + 1]).val = current.val + earlier at value
        omega
      have more : order[index + 1] < order[j] := increasing (index + 1) j last within beyond
      omega
  -- the current member is the last one, so the scan wraps to the first
  have final : index + 1 = order.length := by omega
  have nonempty : 0 < order.length := by omega
  have first : order[0] < current := here ▸ increasing 0 index nonempty inside (by omega)
  have step : around pos current.val (n - current.val + (order[0]).val) = order[0] := by
    apply Fin.ext
    change (current.val + (n - current.val + (order[0]).val)) % n = (order[0]).val
    rw [show current.val + (n - current.val + (order[0]).val) = (order[0]).val + n by omega,
      Nat.add_mod_right,
      Nat.mod_eq_of_lt order[0].isLt]
  rw [final, Nat.mod_self, List.getElem?_eq_getElem nonempty, ← step]
  apply firstAround_eq (by omega) (by omega)
  · rw [step]
    exact (tests _).mpr ⟨List.getElem_mem nonempty, Fin.ne_of_lt first⟩
  · intro earlier one below
    apply fails
    intro member
    obtain ⟨j, within, same⟩ := List.getElem_of_mem member
    have least : (order[0]).val ≤ (order[j]).val := by
      rcases Nat.eq_zero_or_pos j with rfl | positive
      · exact Nat.le_refl _
      · exact Nat.le_of_lt (show order[0] < order[j] from increasing 0 j nonempty within positive)
    have most : (order[j]).val ≤ current.val := by
      rcases Nat.eq_or_lt_of_le (show j ≤ index by omega) with rfl | before
      · rw [here]
      · exact Nat.le_of_lt (show order[j] < current from here ▸ increasing j index within
          inside before)
    have value : (order[j]).val = (current.val + earlier) % n := congrArg Fin.val same
    by_cases wraps : n ≤ current.val + earlier
    · rw [Nat.mod_eq_sub_mod wraps, Nat.mod_eq_of_lt (by omega)] at value
      omega
    rw [Nat.mod_eq_of_lt (by omega)] at value
    omega

end

/-! ## Each once in every turn -/

lemma exists_unique_residue (begin : Nat) (bound : residue < count) :
    ∃ steps < count, (begin + steps) % count = residue ∧
      ∀ other < count, (begin + other) % count = residue → other = steps := by
  have positive : 0 < count := Nat.zero_lt_of_lt bound
  have reached : (begin + (residue + (count - begin % count)) % count) % count = residue := by
    rw [Nat.add_mod_mod, reach_residue begin bound]
  refine ⟨(residue + (count - begin % count)) % count, Nat.mod_lt _ positive, reached, ?_⟩
  intro other small same
  have congruent : begin + other ≡ begin + (residue + (count - begin % count)) % count
    [MOD count] :=
    same.trans reached.symm
  exact Nat.ModEq.eq_of_lt_of_lt (Nat.ModEq.add_left_cancel' begin congruent) small
    (Nat.mod_lt _ positive)

variable {α : Type*} {order : List α} {shown : Nat → Option α} {start bound : Nat}

lemma once_between (distinct : order.Nodup)
    (cyclic : ∀ i < bound, shown i = order[(start + i) % order.length]?) {i j : Nat}
    (ordered : i < j)
    (upto : j < bound) (again : shown i = shown j) (apart : ∀ k, i < k → k < j → shown k ≠ shown i)
    {other : α}
    (member : other ∈ order) (different : shown i ≠ some other) :
    ∃ k, i < k ∧ k < j ∧ shown k = some other ∧ ∀ l, i < l → l < j → shown l = some other →
      l = k := by
  obtain ⟨residue, within, rfl⟩ := List.getElem_of_mem member
  have nonempty : 0 < order.length := by omega
  have index : ∀ k < bound, ∀ r (small : r < order.length), shown k = some order[r] ↔
      (start + k) % order.length = r := by
    intro k below _ _
    rw [cyclic k below, List.getElem?_eq_getElem (Nat.mod_lt _ nonempty), Option.some_inj]
    exact distinct.getElem_inj_iff
  -- the two times are one whole turn apart
  have turned : (start + j) % order.length = (start + i) % order.length := by
    apply (index j upto _ (Nat.mod_lt _ nonempty)).mp
    rw [← again, cyclic i (by omega), List.getElem?_eq_getElem (Nat.mod_lt _ nonempty)]
  have whole : i + order.length ≤ j := by
    have congruent : start + i + (j - i) ≡ start + i + 0 [MOD order.length] := by
      rw [show start + i + (j - i) = start + j by omega, Nat.add_zero]
      exact turned
    have divides : (j - i) % order.length = 0 := Nat.ModEq.add_left_cancel' _ congruent
    have turn := Nat.le_of_dvd (by omega) (Nat.dvd_of_mod_eq_zero divides)
    omega
  have exact_turn : j = i + order.length := by
    by_contra longer
    apply apart (i + order.length) (by omega) (by omega)
    rw [cyclic _ (by omega), cyclic i (by omega), ← Nat.add_assoc, Nat.add_mod_right]
  obtain ⟨steps, few, reached, only⟩ := exists_unique_residue (start + i) within
  have moved : steps ≠ 0 := by
    rintro rfl
    exact different ((index i (by omega) residue within).mpr reached)
  refine ⟨i + steps, by omega, by omega, ?_, ?_⟩
  · apply (index _ (by omega) residue within).mpr
    rw [← Nat.add_assoc]
    exact reached
  · intro l after before same
    have residues := (index l (by omega) residue within).mp same
    have offset : start + i + (l - i) = start + l := by omega
    have equal := only (l - i) (by omega) (offset ▸ residues)
    omega

end R9x.Lib.Cycle
