import R9x.Verif.QuickFit

/-!
# Runs of the bump allocator

`BumpAlloc` behind the `Allocator` trait: a run of calls of `allocate`, whose slices are never
returned.
-/

namespace R9x.Verif.BumpRuns

open Lib Port.Allocator QuickAlloc QuickFit

/-- A bump allocator with the slices it has returned, each with the layout that was asked for. -/
structure Bump where
  tail : QuickFit
  slices : List (Block × Layout)
  panicked : Bool

def Bump.new (arena : Arena) (mem : ByteMem) : Bump := ⟨.new arena.block mem, [], false⟩

def step (bump : Bump) (layout : Layout) : Option Bump :=
  if bump.panicked then none
  else
    match bump.tail.allocate layout with
    | none => some { bump with panicked := true }
    | some (none, tail) => some { bump with tail := tail }
    | some (some block, tail) =>
        some { bump with tail := tail, slices := (block, layout) :: bump.slices }

def Apart (block other : Block) : Prop :=
  block.ptr + block.len ≤ other.ptr ∨ other.ptr + other.len ≤ block.ptr

/-- No call has panicked, and the slices are large enough, aligned, inside the arena and apart. -/
structure SlicesFit (arena : Arena) (bump : Bump) : Prop where
  running : bump.panicked = false
  large : ∀ slice ∈ bump.slices, slice.2.size ≤ slice.1.len
  aligned : ∀ slice ∈ bump.slices, slice.2.align ∣ slice.1.ptr
  inside : ∀ slice ∈ bump.slices, arena.block.ptr ≤ slice.1.ptr ∧
    slice.1.ptr + slice.1.len ≤ arena.block.ptr + arena.block.len
  apart : bump.slices.Pairwise fun slice other => Apart slice.1 other.1

/-- The size is a power of two; and if the arena has room for `align` bytes at the next multiple of
the size, the size is at most the alignment and that place is aligned. -/
def Bumpable (bump : Bump) (layout : Layout) : Prop :=
  ∃ gap, alignOffset (wrappingAdd bump.tail.base bump.tail.cursor) layout.size = some gap ∧
    (bump.tail.cursor + gap + layout.align ≤ bump.tail.len →
      layout.size ≤ layout.align ∧ layout.align ∣ bump.tail.base + bump.tail.cursor + gap)

/-- The invariant: the slices lie below the cursor. -/
structure BumpInv (arena : Arena) (bump : Bump) : Prop extends SlicesFit arena bump where
  base : bump.tail.base = arena.block.ptr
  len : bump.tail.len = arena.block.len
  cursor : bump.tail.cursor ≤ bump.tail.len
  bumped : ∀ slice ∈ bump.slices, slice.1.ptr + slice.1.len ≤ bump.tail.base + bump.tail.cursor

variable {arena : Arena} {bump next : Bump} {layout : Layout}

/-- What a call does: it panics if the size is no power of two, and returns `align` bytes at a
multiple of the size otherwise, or nothing. -/
lemma allocate_cases (sound : BumpInv arena bump) (layout : Layout) :
    (alignOffset (wrappingAdd bump.tail.base bump.tail.cursor) layout.size = none ∧
      bump.tail.allocate layout = none) ∨
    ∃ gap, alignOffset (wrappingAdd bump.tail.base bump.tail.cursor) layout.size = some gap ∧
      ((bump.tail.len < bump.tail.cursor + gap + layout.align ∧
          bump.tail.allocate layout = some (none, bump.tail)) ∨
        bump.tail.cursor + gap + layout.align ≤ bump.tail.len ∧ bump.tail.allocate layout =
            some (some ⟨bump.tail.base + bump.tail.cursor + gap, layout.align⟩,
              { bump.tail with cursor := bump.tail.cursor + (gap + layout.align) })) := by
  by_cases power : layout.size.isPowerOfTwo
  · right
    obtain ⟨shift, size⟩ := power
    obtain ⟨exponent, align⟩ := layout.power
    have fits := layout.fits
    have isize := arena.isize
    have ends := arena.ends
    rw [← sound.len] at isize ends
    rw [← sound.base] at ends
    have size_pos := Nat.two_pow_pos shift
    have align_pos := Nat.two_pow_pos exponent
    have shift_le : shift ≤ 62 := by
      by_contra more
      have bound : 2 ^ 63 ≤ 2 ^ shift := Nat.pow_le_pow_right (by decide) (by omega)
      omega
    have exponent_le : exponent ≤ 62 := by
      by_contra more
      have bound : 2 ^ 63 ≤ 2 ^ exponent := Nat.pow_le_pow_right (by decide) (by omega)
      omega
    have small : layout.align ≤ 2 ^ 62 := align ▸ Nat.pow_le_pow_right (by decide) exponent_le
    obtain ⟨gap, offset, result⟩ :=
      tryAlloc_power isize ends sound.cursor shift_le (by omega : 0 < layout.align) small
    rw [← size] at offset result
    refine ⟨gap, offset, ?_⟩
    rcases result with ⟨full, none⟩ | ⟨room, -, cut⟩
    · exact .inl ⟨full, by rw [QuickFit.allocate, none]; rfl⟩
    · exact .inr ⟨room, by rw [QuickFit.allocate, cut]; rfl⟩
  have panics : alignOffset (wrappingAdd bump.tail.base bump.tail.cursor) layout.size = none :=
    if_neg power
  refine .inl ⟨panics, ?_⟩
  rw [QuickFit.allocate, QuickFit.tryAlloc]
  simp only [panics, Option.bind_none, Option.map_none]

lemma BumpInv.keeps (sound : BumpInv arena bump) (served : Bumpable bump layout)
    (taken : step bump layout = some next) : BumpInv arena next := by
  obtain ⟨gap, offset, good⟩ := served
  rw [step, if_neg (by simp [sound.running])] at taken
  rcases allocate_cases sound layout with ⟨panics, -⟩ | ⟨other, same, ⟨-, none⟩ | ⟨room, cut⟩⟩
  · cases offset.symm.trans panics
  · simp only [none] at taken
    cases taken
    exact sound
  cases offset.symm.trans same
  obtain ⟨large, aligned⟩ := good room
  simp only [cut] at taken
  cases taken
  have base := sound.base
  have len := sound.len
  have below : ∀ slice ∈ bump.slices,
      slice.1.ptr + slice.1.len ≤ bump.tail.base + (bump.tail.cursor + (gap + layout.align)) := by
    intro slice member
    have bumped := sound.bumped slice member
    omega
  have cursor : bump.tail.cursor + (gap + layout.align) ≤ bump.tail.len := by omega
  have ends : bump.tail.base + bump.tail.cursor + gap + layout.align ≤
      bump.tail.base + (bump.tail.cursor + (gap + layout.align)) := by omega
  refine ⟨⟨sound.running, ?_, ?_, ?_, ?_⟩, base, len, cursor, ?_⟩
  · exact List.forall_mem_cons.mpr ⟨large, sound.large⟩
  · exact List.forall_mem_cons.mpr ⟨aligned, sound.aligned⟩
  · exact List.forall_mem_cons.mpr ⟨⟨by dsimp only; omega, by dsimp only; omega⟩, sound.inside⟩
  · refine List.pairwise_cons.mpr ⟨fun slice member => .inr ?_, sound.apart⟩
    exact Nat.le_add_right_of_le (sound.bumped slice member)
  · exact List.forall_mem_cons.mpr ⟨ends, below⟩

lemma served_of_right (sound : BumpInv arena bump) (taken : step bump layout = some next)
    (right : SlicesFit arena next) : Bumpable bump layout := by
  rw [step, if_neg (by simp [sound.running])] at taken
  rcases allocate_cases sound layout with ⟨-, panics⟩ | ⟨gap, offset, ⟨full, -⟩ | ⟨-, cut⟩⟩
  · simp only [panics] at taken
    cases taken
    cases right.running
  · exact ⟨gap, offset, fun room => absurd room (Nat.not_le_of_lt full)⟩
  simp only [cut] at taken
  cases taken
  exact ⟨gap, offset, fun _ =>
    ⟨right.large _ List.mem_cons_self, right.aligned _ List.mem_cons_self⟩⟩

/-- Over every run of calls of `allocate`, on every arena: all calls are right exactly if each one
is for a size that is a power of two, and where there is room, for a size of at most the alignment
at a place that is aligned. -/
theorem allocate_right_iff (arena : Arena) (mem : ByteMem) (layouts : List Layout) :
    Throughout step (SlicesFit arena) (.new arena mem) layouts ↔
      Along step Bumpable (.new arena mem) layouts := by
  refine throughout_iff_along (fun _ _ _ sound served => sound.keeps served)
    (fun _ => BumpInv.toSlicesFit)
    (fun _ _ _ => served_of_right) ?_
  exact ⟨⟨rfl, nofun, nofun, nofun, .nil⟩, rfl, rfl, Nat.zero_le _, nofun⟩

/-- A slice for 128 bytes has the 8 bytes of the alignment, and a call for 24 bytes panics. -/
theorem allocate_swaps_arguments :
    (step (.new smallArena fun _ => 0) ⟨128, 8, ⟨3, rfl⟩, by decide⟩).map (fun bump =>
      bump.slices.map fun slice => slice.1) = some [⟨0x1080, 8⟩] ∧
    (step (.new smallArena fun _ => 0) ⟨24, 8, ⟨3, rfl⟩, by decide⟩).map Bump.panicked =
    some true := by
  decide +kernel

end R9x.Verif.BumpRuns
