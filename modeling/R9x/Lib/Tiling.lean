import Mathlib.Algebra.Ring.Nat
import Mathlib.Data.List.Basic

/-!
# Intervals that tile a range

A stack of intervals, the newest first, each of which starts where the one before it ended.
-/

namespace R9x.Lib

/-- The intervals, newest first, follow one another from the base to the top. -/
def Tiles (base : Nat) : List (Nat × Nat) → Nat → Prop
  | [], top => top = base
  | tile :: tiles, top => top = tile.2 ∧ tile.1 ≤ tile.2 ∧ Tiles base tiles tile.1

/-- What is left of the intervals below an address. -/
def cutAt (limit : Nat) (tiles : List (Nat × Nat)) : List (Nat × Nat) :=
  tiles.filterMap fun tile => if tile.1 < limit then some (tile.1, min tile.2 limit) else none

lemma cutAt_cons (limit : Nat) (tile : Nat × Nat) (tiles : List (Nat × Nat)) :
    cutAt limit (tile :: tiles) =
      if tile.1 < limit then (tile.1, min tile.2 limit) :: cutAt limit tiles
        else cutAt limit tiles := by
  rw [cutAt, List.filterMap_cons]
  split <;> simp_all [cutAt]

namespace Tiles

variable {base top limit : Nat} {tiles : List (Nat × Nat)} (tiled : Tiles base tiles top)
include tiled

lemma base_le : base ≤ top := by
  induction tiles generalizing top with
  | nil => exact Nat.le_of_eq tiled.symm
  | cons _ _ ih =>
    obtain ⟨rfl, order, tiled⟩ := tiled
    exact Nat.le_trans (ih tiled) order

lemma covers (place : Nat) : (∃ tile ∈ tiles, tile.1 ≤ place ∧ place < tile.2) ↔ base ≤ place ∧
    place < top := by
  induction tiles generalizing top with
  | nil =>
    obtain rfl : top = base := tiled
    simp only [List.not_mem_nil, false_and, exists_false, false_iff]
    omega
  | cons tile tiles ih =>
    obtain ⟨rfl, order, tiled⟩ := tiled
    have low := tiled.base_le
    rw [List.exists_mem_cons_iff, ih tiled]
    omega

lemma below : ∀ tile ∈ tiles, tile.2 ≤ top := by
  induction tiles generalizing top with
  | nil => exact nofun
  | cons _ _ ih =>
    obtain ⟨rfl, order, tiled⟩ := tiled
    exact List.forall_mem_cons.mpr ⟨Nat.le_refl _, fun other member =>
      Nat.le_trans (ih tiled other member) order⟩

lemma apart : tiles.Pairwise fun one two => one.2 ≤ two.1 ∨ two.2 ≤ one.1 := by
  induction tiles generalizing top with
  | nil => exact .nil
  | cons _ _ ih =>
    obtain ⟨rfl, -, tiled⟩ := tiled
    exact .cons (fun other member => .inr (tiled.below other member)) (ih tiled)

lemma cutAt_above (above : top < limit) : cutAt limit tiles = tiles := by
  induction tiles generalizing top with
  | nil => rfl
  | cons tile tiles ih =>
    obtain ⟨rfl, order, tiled⟩ := tiled
    rw [cutAt_cons, if_pos (by omega), ih tiled (by omega), Nat.min_eq_left (by omega)]

lemma cut (low : base ≤ limit) (high : limit ≤ top) : Tiles base (cutAt limit tiles) limit := by
  induction tiles generalizing top with
  | nil =>
    obtain rfl : top = base := tiled
    exact Nat.le_antisymm high low
  | cons _ _ ih =>
    obtain ⟨rfl, order, tiled⟩ := tiled
    rw [cutAt_cons]
    split
    · rename_i kept
      rw [tiled.cutAt_above kept, Nat.min_eq_right high]
      exact ⟨rfl, Nat.le_of_lt kept, tiled⟩
    rename_i dropped
    exact ih tiled (Nat.le_of_not_lt dropped)

end Tiles

end R9x.Lib
