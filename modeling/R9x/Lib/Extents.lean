import Mathlib.Algebra.Ring.Nat
import Mathlib.Data.List.Perm.Basic

/-!
# Extents below a moving top

An extent is a start and a length.
-/

namespace R9x.Lib

/-- A range of addresses. -/
structure Extent where
  start : Nat
  length : Nat
  deriving DecidableEq

namespace Extent

/-- The address after the last. -/
def stop (extent : Extent) : Nat := extent.start + extent.length

/-- No address is in both. -/
def Apart (one two : Extent) : Prop := one.stop ≤ two.start ∨ two.stop ≤ one.start

lemma Apart.symm {one two : Extent} (apart : one.Apart two) : two.Apart one := Or.symm apart

instance (one two : Extent) : Decidable (one.Apart two) := inferInstanceAs (Decidable (_ ∨ _))

end Extent

/-- The extents are nonempty, pairwise apart, and between the base and the top. -/
structure Stacked (base top : Nat) (extents : List Extent) : Prop where
  order : base ≤ top
  nonempty : ∀ extent ∈ extents, 0 < extent.length
  within : ∀ extent ∈ extents, base ≤ extent.start ∧ extent.stop ≤ top
  apart : extents.Pairwise Extent.Apart

namespace Stacked

variable {base top : Nat} {extents others : List Extent} {extent : Extent}

lemma empty (order : base ≤ top) : Stacked base top [] := ⟨order, nofun, nofun, .nil⟩

lemma perm (stacked : Stacked base top extents) (same : extents.Perm others) :
    Stacked base top others where
  order := stacked.order
  nonempty := fun extent listed => stacked.nonempty extent (same.mem_iff.mpr listed)
  within := fun extent listed => stacked.within extent (same.mem_iff.mpr listed)
  apart := same.pairwise stacked.apart Extent.Apart.symm

lemma push (stacked : Stacked base top extents) {length : Nat} (positive : 0 < length) :
    Stacked base (top + length) (⟨top, length⟩ :: extents) where
  order := Nat.le_add_right_of_le stacked.order
  nonempty := by
    intro extent listed
    rcases List.mem_cons.mp listed with rfl | later
    · exact positive
    · exact stacked.nonempty extent later
  within := by
    intro extent listed
    rcases List.mem_cons.mp listed with rfl | later
    · exact ⟨stacked.order, Nat.le_refl _⟩
    obtain ⟨low, high⟩ := stacked.within extent later
    exact ⟨low, Nat.le_add_right_of_le high⟩
  apart := List.pairwise_cons.mpr ⟨fun extent later => .inr (stacked.within extent later).2,
    stacked.apart⟩

lemma forget (stacked : Stacked base top (extent :: extents)) : Stacked base top extents where
  order := stacked.order
  nonempty := fun other later => stacked.nonempty other (List.mem_cons_of_mem _ later)
  within := fun other later => stacked.within other (List.mem_cons_of_mem _ later)
  apart := (List.pairwise_cons.mp stacked.apart).2

lemma pop (stacked : Stacked base top (extent :: extents))
    (topmost : extent.stop = top) : Stacked base extent.start extents where
  order := (stacked.within extent List.mem_cons_self).1
  nonempty := stacked.forget.nonempty
  within := by
    intro other later
    obtain ⟨low, high⟩ := stacked.forget.within other later
    have positive := stacked.forget.nonempty other later
    refine ⟨low, ?_⟩
    have apart : extent.Apart other := (List.pairwise_cons.mp stacked.apart).1 other later
    rcases apart with above | below
    · unfold Extent.stop at *
      omega
    · exact below
  apart := stacked.forget.apart

end Stacked

end R9x.Lib
