import R9x.Port.BitmapAlloc
import R9x.Verif.Descriptors
import Mathlib.Tactic.Ring

/-!
# Allocations from the page bitmap

After `free_unused_ranges` no page that reaches past the end of memory is free.
-/

namespace R9x.Verif.PageBitmap

open Lib Port Aarch64.Vm
open BitVec (toNat_ofNat ofNat)
open BitmapPageAlloc (withBitmap markPages markRange advanced nextIndices rewound takeFrom allocate
  usageBytes newAllAllocated)
open Option (bind_some map_some bind_eq_some_iff any_eq_true some.inj)
open Nat (two_pow_pos count add_mul mod_lt succ_mul mod_eq_of_lt)
open Function (update)

/-! ## Ranges of pages -/

section

variable {shift : Nat} {range : PhysRange} {pas : List PhysAddr}

lemma stepByRounded_pages (small : shift < 64)
    (steps : range.stepByRounded (2 ^ shift) = some pas) :
    pas.map BitVec.toNat = (List.range ((range.stop.toNat + 2 ^ shift - 1) / 2 ^ shift -
      range.start.toNat / 2 ^ shift)).map fun k => (range.start.toNat / 2 ^ shift + k) *
        2 ^ shift := by
  have positive : 0 < 2 ^ shift := two_pow_pos shift
  obtain ⟨last, rounds, rfl⟩ := Option.map_eq_some_iff.mp steps
  have first := toNat_roundDown2_pow range.start small
  have final := toNat_roundUp2_pow small rounds
  rw [List.map_map, first, final, ← Nat.sub_mul, Nat.add_sub_assoc positive,
    Nat.mul_comm _ (2 ^ shift),
    Nat.mul_add_div positive, Nat.div_eq_of_lt (Nat.sub_lt positive Nat.one_pos), Nat.add_zero]
  refine List.map_congr_left fun k member => ?_
  have early := List.mem_range.mp member
  have within : (range.start.toNat / 2 ^ shift + k) * 2 ^ shift ≤
      (range.stop.toNat + 2 ^ shift - 1) / 2 ^ shift * 2 ^ shift :=
      Nat.mul_le_mul_right _ (by omega)
  rw [Function.comp_apply, BitVec.toNat_add, toNat_ofNat, first, Nat.add_mod_mod, ← add_mul,
    mod_eq_of_lt]
  omega

lemma steps_iff (small : shift < 64) (steps : range.stepByRounded (2 ^ shift) = some pas)
    (page : Nat) :
    (∃ pa ∈ pas, pa.toNat = page * 2 ^ shift) ↔
      range.start.toNat / 2 ^ shift ≤ page ∧ page * 2 ^ shift < range.stop.toNat := by
  have positive : 0 < 2 ^ shift := two_pow_pos shift
  have inside : page < (range.stop.toNat + 2 ^ shift - 1) / 2 ^ shift ↔
      page * 2 ^ shift < range.stop.toNat := by
    rw [Nat.lt_iff_add_one_le, Nat.le_div_iff_mul_le positive, succ_mul]
    omega
  rw [← List.mem_map, stepByRounded_pages small steps, List.mem_map, ← inside]
  constructor
  · rintro ⟨k, early, addr⟩
    have same := Nat.eq_of_mul_eq_mul_right positive addr
    have fewer := List.mem_range.mp early
    omega
  · rintro ⟨after, before⟩
    exact ⟨page - range.start.toNat / 2 ^ shift,
      List.mem_range.mpr (by omega), by rw [Nat.add_sub_cancel' after]⟩

end

/-! ## Bits of pages -/

variable {numBitmaps bitmapSizeBytes : Nat} {rows width : Nat}

/-- The byte at a position, counted over all bitmaps. -/
def indicesAt (bitmapSizeBytes position : Nat) : ByteIndices :=
  ⟨position / bitmapSizeBytes, position % bitmapSizeBytes⟩

/-- Whether a page is free: it has a bit, which is clear. -/
def isFree (alloc : BitmapPageAlloc numBitmaps bitmapSizeBytes) (page : Nat) : Bool :=
  match alloc.byte (indicesAt bitmapSizeBytes (page / 8)) with
  | some byte => !byte.getLsbD (page % 8)
  | none => false

def freePages (alloc : BitmapPageAlloc numBitmaps bitmapSizeBytes) : Nat :=
  count (fun page => isFree alloc page = true) (8 * (numBitmaps * bitmapSizeBytes))

lemma getLsbD_oneBit (bit other : Nat) (inside : other < 8) : (1#8 <<< bit).getLsbD other = decide
    (other = bit) := by
  rw [BitVec.getLsbD_shiftLeft]
  by_cases below : other < bit
  · have differ : other ≠ bit := by omega
    simp [below, differ]
  have one : (1#8).getLsbD (other - bit) = decide (other - bit = 0) := by
    simp [BitVec.getLsbD_one]
  by_cases same : other = bit
  · simp [same]
    omega
  have apart : other - bit ≠ 0 := by omega
  simp [same, apart]

section

variable (positive : 0 < width)
include positive

variable {position : Nat}

lemma position_inside (inside : position < rows * width) :
    position / width < rows ∧ position % width < width :=
  ⟨(Nat.div_lt_iff_lt_mul positive).mpr inside, mod_lt _ positive⟩

lemma byte_indicesAt (alloc : BitmapPageAlloc rows width) (inside : position < rows * width) :
    ∃ byte, alloc.byte (indicesAt width position) = some byte :=
  ⟨_, dif_pos (position_inside positive inside)⟩

omit positive in
lemma inside_of_isFree {alloc : BitmapPageAlloc rows width} {page : Nat}
    (free : isFree alloc page = true) : page / 8 < rows * width := by
  rw [isFree, BitmapPageAlloc.byte] at free
  split at free
  · rename_i byte found
    split at found
    · rename_i inside
      have positive : 0 < width := by
        omega
      exact (Nat.div_lt_iff_lt_mul positive).mp inside.1
    · cases found
  · cases free

end

lemma indicesAt_injective {one two : Nat} (same : indicesAt width one = indicesAt width two) :
    one = two := by
  have quotient : one / width = two / width := congrArg ByteIndices.bitmap same
  have remainder : one % width = two % width := congrArg ByteIndices.byte same
  calc
    one = width * (one / width) + one % width := (Nat.div_add_mod one width).symm
    _ = width * (two / width) + two % width := by
      rw [quotient, remainder]
    _ = two := Nat.div_add_mod two width

section

variable (alloc : BitmapPageAlloc rows width) (bitmapIdx : Fin rows) (byteIdx : Fin width)
  (written : BitVec 8)

lemma byte_withBitmap (indices : ByteIndices) :
    (alloc.withBitmap bitmapIdx (update (alloc.bitmaps bitmapIdx) byteIdx written)).byte indices =
      if indices = ⟨bitmapIdx, byteIdx⟩ then some written else alloc.byte indices := by
  simp only [BitmapPageAlloc.byte, withBitmap]
  by_cases same : indices = ⟨bitmapIdx, byteIdx⟩
  · subst same
    simp
  rw [if_neg same]
  by_cases inside : indices.bitmap < rows ∧ indices.byte < width
  · rw [dif_pos inside, dif_pos inside]
    by_cases bitmap : (⟨indices.bitmap, inside.1⟩ : Fin rows) = bitmapIdx
    · have apart : (⟨indices.byte, inside.2⟩ : Fin width) ≠ byteIdx := by
        intro byte
        apply same
        rw [← bitmap, ← byte]
      rw [bitmap, Function.update_self, Function.update_of_ne apart]
    · rw [Function.update_of_ne bitmap]
  · rw [dif_neg inside, dif_neg inside]

lemma isFree_withBitmap (page : Nat) {mark : Bool}
    (place : indicesAt width (page / 8) = ⟨bitmapIdx, byteIdx⟩)
    (bits : ∀ bit, bit < 8 → written.getLsbD bit =
      if bit = page % 8 then mark else (alloc.bitmaps bitmapIdx byteIdx).getLsbD bit) (other :
        Nat) :
    isFree (alloc.withBitmap bitmapIdx (update (alloc.bitmaps bitmapIdx) byteIdx written)) other =
      if other = page then !mark else isFree alloc other := by
  have bound : other % 8 < 8 := mod_lt _ (by omega)
  have held : alloc.byte ⟨bitmapIdx, byteIdx⟩ = some (alloc.bitmaps bitmapIdx byteIdx) :=
    dif_pos ⟨bitmapIdx.isLt, byteIdx.isLt⟩
  rw [isFree, isFree, byte_withBitmap]
  by_cases position : other / 8 = page / 8
  · rw [position, place, if_pos rfl, held]
    simp only [bits _ bound]
    by_cases same : other = page
    · rw [if_pos same, if_pos (by rw [same])]
    have apart : other % 8 ≠ page % 8 := by omega
    rw [if_neg same, if_neg apart]
  have apart : indicesAt width (other / 8) ≠ ⟨bitmapIdx, byteIdx⟩ := by
    intro same
    exact position (indicesAt_injective (same.trans place.symm))
  have differ : other ≠ page := by
    intro same
    exact position (by rw [same])
  rw [if_neg apart, if_neg differ]

end

/-! ## Addresses and indices -/

/-- The sizes of an allocator: it has a byte, its pages are a power of two, and its memory has fewer
than `2 ^ 64` bytes. -/
structure Sized (shift : Nat) (alloc : BitmapPageAlloc numBitmaps bitmapSizeBytes) : Prop where
  page : alloc.allocPageSize = 2 ^ shift
  fits : 8 * (numBitmaps * bitmapSizeBytes) * 2 ^ shift < 2 ^ 64
  bitmaps : 0 < numBitmaps
  bytes : 0 < bitmapSizeBytes

namespace Sized

variable {shift : Nat} {alloc : BitmapPageAlloc rows width} (sized : Sized shift alloc)
include sized

variable {page : Nat}

lemma addr_lt (inside : page ≤ 8 * (rows * width)) : page * 2 ^ shift < 2 ^ 64 :=
  Nat.lt_of_le_of_lt (Nat.mul_le_mul_right _ inside) sized.fits

lemma total_pos : 0 < rows * width := Nat.mul_pos sized.bitmaps sized.bytes

lemma bitmap_le : width * (8 * 2 ^ shift) ≤ 8 * (rows * width) * 2 ^ shift := by
  have one : width ≤ rows * width := Nat.le_mul_of_pos_left _ sized.bitmaps
  calc
    width * (8 * 2 ^ shift) = 8 * width * 2 ^ shift := by ring
    _ ≤ 8 * (rows * width) * 2 ^ shift := Nat.mul_le_mul_right _ (Nat.mul_le_mul_left _ one)

lemma shift_lt : shift < 64 := by
  have total := sized.total_pos
  have small : 1 * 2 ^ shift < 2 ^ 64 := sized.addr_lt (by omega)
  rw [Nat.one_mul] at small
  exact (Nat.pow_lt_pow_iff_right (by omega)).mp small

lemma bytesPerBitmapByte : alloc.bytesPerBitmapByte = some (8 * 2 ^ shift) := by
  have total := sized.total_pos
  have small : 8 * 2 ^ shift < 2 ^ 64 := sized.addr_lt (by omega)
  rw [BitmapPageAlloc.bytesPerBitmapByte, checkedMul, sized.page, if_pos small]

lemma bytesPerBitmap : alloc.bytesPerBitmap = some (width * (8 * 2 ^ shift)) := by
  have small := Nat.lt_of_le_of_lt sized.bitmap_le sized.fits
  rw [BitmapPageAlloc.bytesPerBitmap, sized.bytesPerBitmapByte, bind_some, checkedMul, if_pos small]

variable {pa : PhysAddr}

lemma physaddrAsIndices (addr : pa.toNat = page * 2 ^ shift) : alloc.physaddrAsIndices pa =
      some (page / 8 / width, page / 8 % width, page % 8) := by
  have positive : 0 < 2 ^ shift := two_pow_pos shift
  have whole : width * (8 * 2 ^ shift) = 8 * width * 2 ^ shift := by ring
  have aligned : ¬ (alloc.allocPageSize = 0 ∨ pa.toNat % alloc.allocPageSize ≠ 0) := by
    rw [sized.page, addr, Nat.mul_mod_left]
    omega
  have nonzero : width * (8 * 2 ^ shift) ≠ 0 := by
    have bytes := sized.bytes
    have product : 0 < width * (8 * 2 ^ shift) := Nat.mul_pos bytes (by omega)
    omega
  have bitmapIdx : page * 2 ^ shift / (width * (8 * 2 ^ shift)) = page / 8 / width := by
    rw [whole, Nat.mul_div_mul_right _ _ positive, Nat.div_div_eq_div_mul]
  have offset : page * 2 ^ shift % (width * (8 * 2 ^ shift)) = page % (8 * width) * 2 ^ shift := by
    rw [whole, Nat.mul_mod_mul_right]
  have byteIdx : page % (8 * width) * 2 ^ shift / (8 * 2 ^ shift) = page / 8 % width := by
    rw [Nat.mul_div_mul_right _ _ positive, Nat.mod_mul_right_div_self]
  have bitIdx : (page % (8 * width) * 2 ^ shift - page / 8 % width * (8 * 2 ^ shift)) / 2 ^ shift =
    page % 8 := by
    have digits : page % (8 * width) = page % 8 + 8 * (page / 8 % width) := Nat.mod_mul
    rw [digits, add_mul, show page / 8 % width * (8 * 2 ^ shift) =
      8 * (page / 8 % width) * 2 ^ shift by ring, Nat.add_sub_cancel,
      Nat.mul_div_cancel _ positive]
  rw [BitmapPageAlloc.physaddrAsIndices, if_neg aligned]
  simp only [sized.bytesPerBitmap, bind_some, if_neg nonzero, sized.bytesPerBitmapByte, map_some,
    addr, bitmapIdx,
    offset, byteIdx, sized.page, bitIdx]

lemma addr_of_indices {indices : Nat × Nat × Nat}
    (found : alloc.physaddrAsIndices pa = some indices) :
    pa.toNat = pa.toNat / 2 ^ shift * 2 ^ shift := by
  rw [BitmapPageAlloc.physaddrAsIndices, sized.page] at found
  split at found
  · cases found
  have division := Nat.div_add_mod pa.toNat (2 ^ shift)
  rw [Nat.mul_comm] at division
  omega

lemma indicesAsPhysaddr (inside : page ≤ 8 * (rows * width)) :
    alloc.indicesAsPhysaddr (page / 8 / width) (page / 8 % width) (page % 8) =
      some (ofNat 64 (page * 2 ^ shift)) := by
  have small := sized.addr_lt inside
  have digits : page = page % 8 + 8 * (page / 8) := (Nat.mod_add_div page 8).symm
  have places : page / 8 = page / 8 % width + width * (page / 8 / width) :=
    (Nat.mod_add_div (page / 8) width).symm
  have sum : page / 8 / width * (width * (8 * 2 ^ shift)) +
      page / 8 % width * (8 * 2 ^ shift) + page % 8 * 2 ^ shift = page * 2 ^ shift := by
    calc
      _ = (page % 8 + 8 * (page / 8 % width + width * (page / 8 / width))) * 2 ^ shift := by ring
      _ = page * 2 ^ shift := by rw [← places, ← digits]
  rw [BitmapPageAlloc.indicesAsPhysaddr, sized.bytesPerBitmap, sized.bytesPerBitmapByte, sized.page]
  simp only [Option.bind_eq_bind, bind_some, checkedMul, checkedAdd]
  rw [if_pos (by omega), bind_some, if_pos (by omega), bind_some, if_pos (by omega),
    bind_some, if_pos (by omega), bind_some, if_pos (by omega), bind_some, sum]
  rfl

lemma of_page {after : BitmapPageAlloc rows width}
    (same : after.allocPageSize = alloc.allocPageSize) : Sized shift after :=
  ⟨same.trans sized.page, sized.fits, sized.bitmaps, sized.bytes⟩

end Sized

/-! ## Closing the memory -/

variable {mark : Bool}

lemma set_bits {bitmap after : Bitmap width} {i : Nat} (done : bitmap.set i mark = some after) :
    ∃ (inside : i / 8 < width) (written : BitVec 8), after = update bitmap ⟨i / 8, inside⟩ written ∧
      ∀ bit, bit < 8 → written.getLsbD bit =
        if bit = i % 8 then mark else (bitmap ⟨i / 8, inside⟩).getLsbD bit := by
  rw [Bitmap.set] at done
  split at done
  · rename_i inside
    refine ⟨inside, _, (some.inj done).symm, ?_⟩
    intro bit bound
    have one := getLsbD_oneBit (i % 8) bit bound
    cases mark with
    | true =>
      rw [if_pos rfl, BitVec.getLsbD_or, one]
      by_cases same : bit = i % 8
      · simp [same]
      · simp [same]
    | false =>
      rw [if_neg (by decide), BitVec.getLsbD_and, BitVec.getLsbD_not, one]
      by_cases same : bit = i % 8
      · simp [same]
      · simp [same, bound]
  · cases done

variable {after alloc : BitmapPageAlloc rows width} {pas : List PhysAddr} {shift : Nat}

lemma markPages_spec (sized : Sized shift alloc)
    (marked : markPages mark pas alloc = some (.ok (), after)) :
    after.allocPageSize = alloc.allocPageSize ∧ after.stop = alloc.stop ∧
      ∀ page, isFree after page =
        if ∃ pa ∈ pas, pa.toNat = page * 2 ^ shift then !mark else isFree alloc page := by
  induction pas generalizing alloc with
  | nil =>
    cases marked
    simp
  | cons pa pas ih =>
    obtain ⟨indices, found, rest⟩ := bind_eq_some_iff.mp marked
    have addr := sized.addr_of_indices found
    have positive : 0 < 2 ^ shift := two_pow_pos shift
    generalize pa.toNat / 2 ^ shift = marking at addr
    rw [sized.physaddrAsIndices addr] at found
    cases found
    simp only at rest
    split at rest
    · rename_i inside
      obtain ⟨bitmap, written, later⟩ := bind_eq_some_iff.mp rest
      obtain ⟨_, byte, rfl, bits⟩ := set_bits written
      have byteIdx : (8 * (marking / 8 % width) + marking % 8) / 8 = marking / 8 % width := by omega
      have bitIdx : (8 * (marking / 8 % width) + marking % 8) % 8 = marking % 8 := by omega
      simp only [byteIdx, bitIdx] at bits later
      obtain ⟨size, stop, free⟩ := ih (by exact sized.of_page rfl) later
      refine ⟨size, stop, ?_⟩
      intro page
      have one := isFree_withBitmap alloc ⟨_, inside⟩ ⟨_, mod_lt _ sized.bytes⟩ byte marking
        rfl bits page
      rw [free page]
      by_cases earlier : ∃ pa ∈ pas, pa.toNat = page * 2 ^ shift
      · obtain ⟨other, member, addr'⟩ := earlier
        rw [if_pos ⟨other, member, addr'⟩, if_pos ⟨other, List.mem_cons_of_mem _ member, addr'⟩]
      rw [if_neg earlier, one]
      by_cases same : page = marking
      · rw [if_pos same, if_pos ⟨pa, List.mem_cons_self, by rw [addr, same]⟩]
      rw [if_neg same, if_neg]
      rintro ⟨other, member, addr'⟩
      rcases List.mem_cons.mp member with rfl | member
      · exact same (Nat.eq_of_mul_eq_mul_right positive (addr'.symm.trans addr))
      · exact earlier ⟨other, member, addr'⟩
    obtain ⟨refused, -⟩ := Prod.mk.inj (some.inj rest)
    cases refused

/-- What holds after `free_unused_ranges` and after every allocation. -/
structure Closed (shift : Nat) (alloc : BitmapPageAlloc numBitmaps bitmapSizeBytes) : Prop
    extends Sized shift alloc where
  below : ∀ page, isFree alloc page = true → (page + 1) * 2 ^ shift ≤ alloc.stop.toNat
  scan : ∃ page, alloc.nextPaToScan.toNat = page * 2 ^ shift ∧
    page / 8 < numBitmaps * bitmapSizeBytes ∧ (page = 0 ∨ page * 2 ^ shift < alloc.stop.toNat)

lemma maxBytes_some {total : Nat} (found : alloc.maxBytes = some total) :
    total = 8 * (rows * width) * alloc.allocPageSize ∧ total < 2 ^ 64 := by
  obtain ⟨_, found, product⟩ := bind_eq_some_iff.mp found
  obtain ⟨_, found, product'⟩ := bind_eq_some_iff.mp found
  obtain ⟨rfl, -⟩ := checkedMul_some found
  obtain ⟨rfl, -⟩ := checkedMul_some product'
  obtain ⟨rfl, small⟩ := checkedMul_some product
  exact ⟨by ring, small⟩

variable {stop : PhysAddr}

lemma markPages_beyond (sized : Sized shift alloc) (steps : PhysRange.stepByRounded
      ⟨stop, ofNat 64 (8 * (rows * width) * 2 ^ shift)⟩ (2 ^ shift) = some pas)
    (marks : markPages true pas alloc = some (.ok (), after)) (page : Nat) :
    isFree after page = true ↔ isFree alloc page = true ∧ (page + 1) * 2 ^ shift ≤ stop.toNat := by
  have positive : 0 < 2 ^ shift := two_pow_pos shift
  have marked := steps_iff sized.shift_lt steps page
  rw [toNat_ofNat, mod_eq_of_lt sized.fits] at marked
  rw [← Nat.le_div_iff_mul_le positive, (markPages_spec sized marks).2.2 page]
  simp only [marked]
  split
  · exact ⟨nofun, fun kept => absurd kept.2 (by omega)⟩
  refine ⟨fun free => ⟨free, ?_⟩, And.left⟩
  have inside := inside_of_isFree free
  have bound : page * 2 ^ shift < 8 * (rows * width) * 2 ^ shift :=
    Nat.mul_lt_mul_of_pos_right (by omega) positive
  omega

lemma closeAt_closed (bitmaps : 0 < rows) (bytes : 0 < width)
    (closed : alloc.closeAt stop = some (.ok (), after)) : ∃ shift, Closed shift after := by
  obtain ⟨total, covered, rest⟩ := bind_eq_some_iff.mp closed
  obtain ⟨rfl, small⟩ := maxBytes_some covered
  split at rest
  · cases rest
  · cases (Prod.mk.inj (some.inj rest)).1
  rename_i marked succeeds
  cases rest
  rw [markRange, if_neg (by simp)] at succeeds
  split at succeeds
  · rename_i power
    obtain ⟨shift, size⟩ := power
    obtain ⟨_, steps, marks⟩ := bind_eq_some_iff.mp succeeds
    rw [size] at small steps
    have sized : Sized shift { alloc with stop := stop } := ⟨size, small, bitmaps, bytes⟩
    obtain ⟨same, stops, -⟩ := markPages_spec sized marks
    have sized' : Sized shift { marked with nextPaToScan := 0 } := sized.of_page same
    refine ⟨shift, sized', ?_, ⟨0, by simp, sized.total_pos, Or.inl rfl⟩⟩
    intro page free
    rw [stops]
    exact ((markPages_beyond sized steps marks page).mp free).2
  · cases succeeds

lemma freeUnusedRanges_closed {availableMem : PhysRange} {usedRanges : List PhysRange}
    (bitmaps : 0 < rows)
    (bytes : 0 < width) (freed : alloc.freeUnusedRanges availableMem usedRanges =
      some (.ok (), after)) :
    ∃ shift, Closed shift after := by
  simp only [BitmapPageAlloc.freeUnusedRanges] at freed
  split at freed
  · cases freed
  · cases (Prod.mk.inj (some.inj freed)).1
  split at freed
  · cases freed
  · cases (Prod.mk.inj (some.inj freed)).1
  · exact closeAt_closed bitmaps bytes freed

/-! ## One scan -/

def scanAt (bitmapSizeBytes start position : Nat) (passed : Bool) (currpa : Nat) : IndicesFrom :=
  ⟨start / bitmapSizeBytes, start % bitmapSizeBytes, position / bitmapSizeBytes,
    position % bitmapSizeBytes, passed, ofNat 64 currpa⟩

section

variable {start position : Nat}

lemma next_position_wraps (positive : 0 < width) (last : width ≤ position % width + 1) :
    (position + 1) / width = position / width + 1 ∧ (position + 1) % width = 0 := by
  have division := Nat.div_add_mod position width
  have remainder := mod_lt position positive
  apply (Nat.div_mod_unique positive).mpr
  rw [Nat.mul_add]
  omega

lemma next_position_stays (positive : 0 < width) (inner : ¬ width ≤ position % width + 1) :
    (position + 1) / width = position / width ∧ (position + 1) % width = position % width + 1 := by
  have division := Nat.div_add_mod position width
  apply (Nat.div_mod_unique positive).mpr
  omega

variable {currpa : Nat}

lemma advanced_scanAt (sized : Sized shift alloc) (passed : Bool)
    (small : currpa + 2 ^ shift < 2 ^ 64) :
    alloc.advanced (scanAt width start position passed currpa) =
      some (indicesAt width position, scanAt width start (position + 1) true
        (currpa + ((position + 1) / width - position / width) * 2 ^ shift)) := by
  have addr : (ofNat 64 currpa).toNat = currpa := by
    rw [toNat_ofNat, mod_eq_of_lt (Nat.lt_of_le_of_lt (Nat.le_add_right _ _) small)]
  by_cases last : width ≤ position % width + 1
  · obtain ⟨quotient, remainder⟩ := next_position_wraps sized.bytes last
    have grown : position / width + 1 - position / width = 1 := by omega
    simp only [advanced, scanAt, if_pos last, addr, sized.page, checkedAdd,
      if_pos small, map_some, quotient, remainder, grown, Nat.one_mul, indicesAt]
  obtain ⟨quotient, remainder⟩ := next_position_stays sized.bytes last
  simp only [advanced, scanAt, quotient, remainder, Nat.sub_self, Nat.zero_mul, Nat.add_zero,
    indicesAt]
  exact if_neg last

variable {passed : Bool}

lemma nextIndices_scanAt (sized : Sized shift alloc)
    (kept : alloc.rewound (scanAt width start position passed currpa) =
      scanAt width start position passed currpa) (small : currpa + 2 ^ shift < 2 ^ 64) :
    alloc.nextIndices (scanAt width start position passed currpa) =
      if passed = true ∧ position = start then some none
      else some (some (indicesAt width position, scanAt width start (position + 1) true
        (currpa + ((position + 1) / width - position / width) * 2 ^ shift))) := by
  have same : (scanAt width start position passed currpa).passedFirst = true ∧
      (scanAt width start position passed currpa).bitmapIdx =
        (scanAt width start position passed currpa).startBitmapIdx ∧
      (scanAt width start position passed currpa).byteIdx =
        (scanAt width start position passed currpa).startByteIdx ↔
      passed = true ∧ position = start := by
    constructor
    · rintro ⟨before, bitmap, byte⟩
      have equal : indicesAt width position = indicesAt width start :=
        congrArg₂ ByteIndices.mk bitmap byte
      exact ⟨before, indicesAt_injective equal⟩
    · rintro ⟨before, rfl⟩
      exact ⟨before, rfl, rfl⟩
  simp only [nextIndices, kept, advanced_scanAt sized passed small, map_some]
  by_cases ended : passed = true ∧ position = start
  · rw [if_pos ended, if_pos (same.mpr ended)]
  · rw [if_neg ended, if_neg (fun also => ended (same.mp also))]

lemma rewound_inside (inside : position / width < rows)
    (small : currpa < 2 ^ 64) (below : currpa < alloc.stop.toNat) :
    alloc.rewound (scanAt width start position passed currpa) =
      scanAt width start position passed currpa := by
  rw [rewound, if_neg]
  rintro (outside | beyond)
  · exact Nat.not_lt_of_le outside inside
  · change alloc.stop.toNat ≤ (ofNat 64 currpa).toNat at beyond
    rw [toNat_ofNat, mod_eq_of_lt small] at beyond
    omega

lemma rewound_outside (small : currpa < 2 ^ 64)
    (outside : rows ≤ position / width ∨ alloc.stop.toNat ≤ currpa) :
    alloc.rewound (scanAt width start position passed currpa) = scanAt width start 0 passed 0 := by
  have beyond : rows ≤ (scanAt width start position passed currpa).bitmapIdx ∨
      alloc.stop ≤ (scanAt width start position passed currpa).currpa := by
    rcases outside with outside | outside
    · exact Or.inl outside
    right
    change alloc.stop.toNat ≤ (ofNat 64 currpa).toNat
    rw [toNat_ofNat, mod_eq_of_lt small]
    exact outside
  rw [rewound, if_pos beyond]
  simp [scanAt]

lemma rewound_first (passed : Bool) :
    alloc.rewound (scanAt width start 0 passed 0) = scanAt width start 0 passed 0 := by
  rw [rewound]
  split
  · simp [scanAt]
  · rfl

lemma lagging (positive : 0 < width) (after : start ≤ position) :
    8 * start + (position / width - start / width) ≤ 8 * position := by
  have slow : position / width ≤ start / width + (position - start) := by
    have moved : (start + width * (position - start)) / width =
        start / width + (position - start) := Nat.add_mul_div_left _ _ positive
    have farther : position - start ≤ width * (position - start) :=
      Nat.le_mul_of_pos_left _ positive
    rw [← moved]
    exact Nat.div_le_div_right (by omega)
  omega

def firstLapPa (bitmapSizeBytes shift start position : Nat) : Nat :=
  (8 * start + (position / bitmapSizeBytes - start / bitmapSizeBytes)) * 2 ^ shift

lemma firstLapPa_lt (sized : Sized shift alloc) (after : start ≤ position)
    (inside : position ≤ rows * width) :
    firstLapPa width shift start position < 2 ^ 64 := by
  have lag := lagging sized.bytes after
  apply sized.addr_lt
  omega

def FirstLap (shift : Nat) (alloc : BitmapPageAlloc numBitmaps bitmapSizeBytes)
    (start position : Nat) :
    Prop :=
  ∃ last, position ≤ last ∧ last ≤ numBitmaps * bitmapSizeBytes ∧
    (last = numBitmaps * bitmapSizeBytes ∨ alloc.stop.toNat ≤ 8 * last * 2 ^ shift) ∧
    Yields alloc.nextIndices
      (scanAt bitmapSizeBytes start position true (firstLapPa bitmapSizeBytes shift start position))
      ((List.range' position (last - position) ++ List.range start).map (indicesAt bitmapSizeBytes))

lemma first_lap_call (sized : Sized shift alloc) (after : start ≤ position)
    (bounded : position < rows * width)
    (kept : alloc.rewound
      (scanAt width start position passed (firstLapPa width shift start position)) =
      scanAt width start position passed (firstLapPa width shift start position))
    (unfinished : ¬ (passed = true ∧ position = start)) :
    alloc.nextIndices (scanAt width start position passed
        (firstLapPa width shift start position)) =
      some (some (indicesAt width position, scanAt width start (position + 1) true
        (firstLapPa width shift start (position + 1)))) := by
  have grown : position / width ≤ (position + 1) / width := Nat.div_le_div_right (by omega)
  have begun : start / width ≤ position / width := Nat.div_le_div_right after
  have lag := lagging sized.bytes after
  have small : firstLapPa width shift start position + 2 ^ shift < 2 ^ 64 := by
    rw [firstLapPa, ← succ_mul]
    apply sized.addr_lt
    omega
  have next : firstLapPa width shift start position +
      ((position + 1) / width - position / width) * 2 ^ shift =
      firstLapPa width shift start (position + 1) := by
    rw [firstLapPa, firstLapPa, ← add_mul]
    congr 1
    omega
  rw [nextIndices_scanAt sized kept small, if_neg unfinished, next]

section

variable (sized : Sized shift alloc) (inside : start < rows * width)
  (early : start = 0 ∨ 8 * start * 2 ^ shift < alloc.stop.toNat) {gap : Nat}
include sized inside early

lemma second_lap_call (unfinished : position ≤ start) : alloc.nextIndices
      (scanAt width start position true (position / width * 2 ^ shift)) =
      if position = start then some none
      else some (some (indicesAt width position, scanAt width start (position + 1) true
        ((position + 1) / width * 2 ^ shift))) := by
  have fewer : position / width ≤ position := Nat.div_le_self _ _
  have grown : position / width ≤ (position + 1) / width := Nat.div_le_div_right (by omega)
  have small : position / width * 2 ^ shift + 2 ^ shift < 2 ^ 64 := by
    rw [← succ_mul]
    apply sized.addr_lt
    omega
  have kept : alloc.rewound (scanAt width start position true (position / width * 2 ^ shift)) =
        scanAt width start position true (position / width * 2 ^ shift) := by
    by_cases first : position = 0
    · have zero : position / width * 2 ^ shift = 0 := by simp [first]
      rw [zero, first]
      exact rewound_first true
    have below : position / width * 2 ^ shift ≤ 8 * start * 2 ^ shift :=
      Nat.mul_le_mul_right _ (by omega)
    apply rewound_inside
    · exact (position_inside sized.bytes (by omega)).1
    · exact Nat.lt_of_le_of_lt (Nat.le_add_right _ _) small
    · omega
  rw [nextIndices_scanAt sized kept small, ← add_mul, Nat.add_sub_cancel' grown]
  simp only [true_and]

lemma second_lap (left : position + gap = start) : Yields alloc.nextIndices
      (scanAt width start position true (position / width * 2 ^ shift))
      ((List.range' position gap).map (indicesAt width)) := by
  induction gap generalizing position with
  | zero =>
    have called := second_lap_call sized inside early (show position ≤ start by omega)
    rw [if_pos (show position = start by omega)] at called
    exact .done called
  | succ gap ih =>
    have called := second_lap_call sized inside early (show position ≤ start by omega)
    rw [if_neg (show ¬ position = start by omega)] at called
    exact .item called (ih (by omega))

lemma turns_back (after : start < position) (bounded : position ≤ rows * width)
    (outside : rows ≤ position / width ∨ alloc.stop.toNat ≤ firstLapPa width shift start position) :
    FirstLap shift alloc start position := by
  have small := firstLapPa_lt sized (Nat.le_of_lt after) bounded
  refine ⟨position, Nat.le_refl _, bounded, ?_, ?_⟩
  · rcases outside with outside | outside
    · have past := (Nat.le_div_iff_mul_le sized.bytes).mp outside
      exact Or.inl (by omega)
    · have lag := lagging sized.bytes (Nat.le_of_lt after)
      exact Or.inr (Nat.le_trans outside (Nat.mul_le_mul_right _ lag))
  · have lap := second_lap sized inside early (show 0 + start = start by omega)
    rw [Nat.zero_div, Nat.zero_mul, ← List.range_eq_range'] at lap
    rw [Nat.sub_self, List.range'_zero, List.nil_append]
    apply lap.of_eq
    simp only [nextIndices]
    rw [rewound_outside small outside, rewound_first]

lemma first_lap (left : position + gap = rows * width) (after : start < position) :
    FirstLap shift alloc start position := by
  induction gap generalizing position with
  | zero =>
    have past : rows ≤ position / width := by
      apply (Nat.le_div_iff_mul_le sized.bytes).mpr
      omega
    exact turns_back sized inside early after (by omega) (Or.inl past)
  | succ gap ih =>
    by_cases outside : rows ≤ position / width ∨ alloc.stop.toNat ≤
      firstLapPa width shift start position
    · exact turns_back sized inside early after (by omega) outside
    obtain ⟨within, below⟩ := not_or.mp outside
    have small := firstLapPa_lt sized (Nat.le_of_lt after) (by omega)
    have called := first_lap_call sized (Nat.le_of_lt after) (by omega)
      (rewound_inside (Nat.lt_of_not_le within) small (Nat.lt_of_not_le below))
      (show ¬ (true = true ∧ position = start) by omega)
    obtain ⟨last, later, bounded, skipped, lap⟩ :=
      ih (show position + 1 + gap = rows * width by omega) (by omega)
    refine ⟨last, by omega, bounded, skipped, ?_⟩
    rw [show last - position = last - (position + 1) + 1 by omega, List.range'_succ,
      List.cons_append, List.map_cons]
    exact .item called lap

lemma scan_begins : ∃ scan, alloc.indicesFrom (start / width) (start % width) = some scan ∧
      alloc.nextIndices scan =
        some (some (indicesAt width start, scanAt width start (start + 1) true
          (firstLapPa width shift start (start + 1)))) := by
  have first : firstLapPa width shift start start = 8 * start * 2 ^ shift := by
    rw [firstLapPa, Nat.sub_self, Nat.add_zero]
  have small := firstLapPa_lt sized (Nat.le_refl start) (Nat.le_of_lt inside)
  have addr := sized.indicesAsPhysaddr (show 8 * start ≤ 8 * (rows * width) by omega)
  rw [Nat.mul_div_cancel_left start (by omega), Nat.mul_mod_right, ← first] at addr
  have kept : alloc.rewound (scanAt width start start false (firstLapPa width shift start start)) =
      scanAt width start start false (firstLapPa width shift start start) := by
    rcases early with zero | below
    · rw [first, zero, Nat.mul_zero, Nat.zero_mul]
      exact rewound_first false
    rw [← first] at below
    exact rewound_inside (position_inside sized.bytes inside).1 small below
  refine ⟨_, ?_, first_lap_call sized (Nat.le_refl start) inside kept (by simp)⟩
  rw [BitmapPageAlloc.indicesFrom, addr]
  rfl

end

lemma scan_yields (closed : Closed shift alloc) (inside : start < rows * width)
    (early : start = 0 ∨ 8 * start * 2 ^ shift < alloc.stop.toNat) :
    ∃ scan last, alloc.indicesFrom (start / width) (start % width) = some scan ∧
      start < last ∧ last ≤ rows * width ∧
      (∀ page, isFree alloc page = true → page / 8 < last) ∧
      Yields alloc.nextIndices scan
        ((List.range' start (last - start) ++ List.range start).map (indicesAt width)) := by
  have sized := closed.toSized
  obtain ⟨scan, begins, called⟩ := scan_begins sized inside early
  obtain ⟨last, later, bounded, skipped, lap⟩ := first_lap sized inside early
    (show start + 1 + (rows * width - (start + 1)) = rows * width by omega)
    (by omega)
  refine ⟨scan, last, begins, by omega, bounded, ?_, ?_⟩
  · intro page free
    rcases skipped with whole | beyond
    · rw [whole]
      exact inside_of_isFree free
    have below := Nat.le_trans (closed.below page free) beyond
    have fewer : page + 1 ≤ 8 * last := Nat.le_of_mul_le_mul_right below (two_pow_pos shift)
    omega
  · rw [show last - start = last - (start + 1) + 1 by omega, List.range'_succ, List.cons_append,
      List.map_cons]
    exact .item called lap

end

/-! ## One allocation -/

/-- What one call of `allocate` does: it takes one free page below the end of memory, or there is
none. -/
def Allocates (alloc : BitmapPageAlloc numBitmaps bitmapSizeBytes)
    (result : Except PageAllocError PhysAddr)
    (next : BitmapPageAlloc numBitmaps bitmapSizeBytes) : Prop :=
  match result with
  | .ok pa => ∃ page, pa.toNat = page * alloc.allocPageSize ∧
      pa.toNat + alloc.allocPageSize ≤ alloc.stop.toNat ∧ isFree alloc page = true ∧
      ∀ other, isFree next other = if other = page then false else isFree alloc other
  | .error err => err = .outOfSpace ∧ next = alloc ∧
      ∀ page, page * alloc.allocPageSize < alloc.stop.toNat → isFree alloc page = false

lemma trailingOnes_clear : ∀ byte : BitVec 8, byte ≠ 0xff →
    trailingOnes byte < 8 ∧ byte.getLsbD (trailingOnes byte) = false := by
  decide +kernel

lemma full_getLsbD : ∀ bit, bit < 8 → (0xff : BitVec 8).getLsbD bit = true := by
  decide

section

variable {fuel : Nat} {position : Nat} {byte : BitVec 8}

lemma takeFrom_first (sized : Sized shift alloc) (inside : position < rows * width)
    (held : alloc.byte (indicesAt width position) = some byte) (unfilled : byte ≠ 0xff) :
    ∃ next, alloc.takeFrom (indicesAt width position) =
        some (ofNat 64 ((8 * position + trailingOnes byte) * 2 ^ shift), next) ∧
      next.allocPageSize = alloc.allocPageSize ∧ next.stop = alloc.stop ∧
      next.nextPaToScan = ofNat 64 ((8 * position + trailingOnes byte) * 2 ^ shift) ∧
      ∀ other, isFree next other =
        if other = 8 * position + trailingOnes byte then false else isFree alloc other := by
  obtain ⟨few, clear⟩ := trailingOnes_clear byte unfilled
  obtain ⟨bitmap, place⟩ := position_inside sized.bytes inside
  have contents : alloc.bitmaps ⟨position / width, bitmap⟩ ⟨position % width, place⟩ = byte := by
    rw [BitmapPageAlloc.byte, dif_pos ⟨bitmap, place⟩] at held
    exact some.inj held
  generalize taken : 8 * position + trailingOnes byte = page
  have byteIdx : page / 8 = position := by omega
  have bitIdx : page % 8 = trailingOnes byte := by omega
  have addr := sized.indicesAsPhysaddr (show page ≤ 8 * (rows * width) by omega)
  rw [byteIdx, bitIdx] at addr
  have bits : ∀ bit, bit < 8 → (byte ||| 1#8 <<< trailingOnes byte).getLsbD bit =
      if bit = page % 8 then true else
        (alloc.bitmaps ⟨position / width, bitmap⟩ ⟨position % width, place⟩).getLsbD bit := by
    intro bit bound
    rw [BitVec.getLsbD_or, getLsbD_oneBit _ bit bound, contents, bitIdx]
    by_cases same : bit = trailingOnes byte
    · simp [same]
    · simp [same]
  refine ⟨{ alloc.withBitmap ⟨_, bitmap⟩
    (update (alloc.bitmaps ⟨_, bitmap⟩) ⟨_, place⟩ (byte ||| 1#8 <<< trailingOnes byte)) with
      nextPaToScan := ofNat 64 (page * 2 ^ shift) }, ?_, rfl, rfl, rfl,
    isFree_withBitmap alloc ⟨_, bitmap⟩ ⟨_, place⟩ _ page (by rw [byteIdx]; rfl) bits⟩
  rw [takeFrom, dif_pos ⟨bitmap, place⟩]
  simp only [indicesAt, contents, if_pos few, addr, map_some]

lemma takeFrom_spec (closed : Closed shift alloc) (inside : position < rows * width)
    (held : alloc.byte (indicesAt width position) = some byte) (unfilled : byte ≠ 0xff) :
    ∃ pa next, alloc.takeFrom (indicesAt width position) = some (pa, next) ∧
      Closed shift next ∧ next.stop = alloc.stop ∧ Allocates alloc (.ok pa) next := by
  obtain ⟨few, clear⟩ := trailingOnes_clear byte unfilled
  obtain ⟨next, takes, size, stop, scan, marked⟩ :=
    takeFrom_first closed.toSized inside held unfilled
  generalize taken : 8 * position + trailingOnes byte = page at takes scan marked
  have byteIdx : page / 8 = position := by omega
  have bitIdx : page % 8 = trailingOnes byte := by omega
  have small := closed.addr_lt (show page ≤ 8 * (rows * width) by omega)
  have pa : (ofNat 64 (page * 2 ^ shift)).toNat = page * 2 ^ shift := by
    rw [toNat_ofNat, mod_eq_of_lt small]
  have free : isFree alloc page = true := by
    rw [isFree, byteIdx, held, bitIdx]
    simp only [clear, Bool.not_false]
  have below := closed.below page free
  refine ⟨_, next, takes, ⟨closed.of_page size, ?_, page, by rw [scan, pa], ?_, ?_⟩, stop, page, ?_,
    ?_, free, marked⟩
  · intro other unmarked
    rw [marked other] at unmarked
    split at unmarked
    · cases unmarked
    rw [stop]
    exact closed.below other unmarked
  · omega
  · rw [stop]
    rw [succ_mul] at below
    have positive : 0 < 2 ^ shift := two_pow_pos shift
    omega
  · rw [pa, closed.page]
  · rw [pa, closed.page, ← succ_mul]
    exact below

def unfilled (alloc : BitmapPageAlloc numBitmaps bitmapSizeBytes) (indices : ByteIndices) : Bool :=
  (alloc.byte indices).any fun byte => decide (byte ≠ 0xff)

lemma unfilled_of_isFree {page : Nat} (free : isFree alloc page = true) :
    unfilled alloc (indicesAt width (page / 8)) = true := by
  rw [isFree] at free
  split at free
  · rename_i byte held
    rw [unfilled, held, Option.any_some, decide_eq_true_iff]
    intro full
    rw [full, full_getLsbD _ (mod_lt _ (by omega))] at free
    cases free
  · cases free

lemma search_spec (closed : Closed shift alloc) (enough : rows * width < fuel) {start : Nat}
    (inside : start < rows * width) (early : start = 0 ∨ 8 * start * 2 ^ shift < alloc.stop.toNat) :
    ∃ scan found, alloc.indicesFrom (start / width) (start % width) = some scan ∧
      findNext alloc.nextIndices
        (fun indices => (alloc.byte indices).map fun byte => decide (byte ≠ 0xff)) fuel scan =
        some found ∧
      match found with
      | none => ∀ page, isFree alloc page = false
      | some indices => unfilled alloc indices = true ∧ ∃ position, position < rows * width ∧
            indices = indicesAt width position := by
  obtain ⟨scan, last, begins, after, bounded, covered, yields⟩ := scan_yields closed inside early
  generalize visiting : List.range' start (last - start) ++ List.range start = positions at yields
  have visited : ∀ position, position ∈ positions ↔ position < last := by
    intro position
    rw [← visiting, List.mem_append, List.mem_range'_1, List.mem_range]
    omega
  have few : (positions.map (indicesAt width)).length < fuel := by
    rw [← visiting, List.length_map, List.length_append, List.length_range', List.length_range]
    omega
  have tested : ∀ indices ∈ positions.map (indicesAt width),
      (alloc.byte indices).map (fun byte => decide (byte ≠ 0xff)) = some
      (unfilled alloc indices) := by
    intro _ member
    obtain ⟨position, listed, rfl⟩ := List.mem_map.mp member
    have within : position < rows * width :=
      Nat.lt_of_lt_of_le ((visited position).mp listed) bounded
    obtain ⟨_, held⟩ := byte_indicesAt closed.bytes alloc within
    rw [unfilled, held]
    rfl
  refine ⟨scan, _, begins, yields.find tested few, ?_⟩
  split
  · rename_i missing
    intro page
    by_contra free
    rw [Bool.not_eq_false] at free
    have listed := (visited (page / 8)).mpr (covered page free)
    exact List.find?_eq_none.mp missing _ (List.mem_map_of_mem listed) (unfilled_of_isFree free)
  rename_i first
  obtain ⟨position, listed, rfl⟩ := List.mem_map.mp (List.mem_of_find?_eq_some first)
  have within : position < rows * width := Nat.lt_of_lt_of_le ((visited position).mp listed) bounded
  exact ⟨List.find?_some first, position, within, rfl⟩

lemma allocate_spec (closed : Closed shift alloc) (enough : rows * width < fuel) :
    ∃ result next, alloc.allocate fuel = some (result, next) ∧ Closed shift next ∧
      next.stop = alloc.stop ∧ Allocates alloc result next := by
  obtain ⟨page, next, inside, early⟩ := closed.scan
  have early' : page / 8 = 0 ∨ 8 * (page / 8) * 2 ^ shift < alloc.stop.toNat := by
    rcases early with zero | below
    · exact Or.inl (by omega)
    have lower : 8 * (page / 8) * 2 ^ shift ≤ page * 2 ^ shift := Nat.mul_le_mul_right _ (by omega)
    exact Or.inr (by omega)
  obtain ⟨_, found, begins, searched, outcome⟩ := search_spec closed enough inside early'
  simp only [allocate, closed.physaddrAsIndices next, bind_some, begins, searched]
  cases found with
  | none => exact ⟨_, _, rfl, closed, rfl, rfl, rfl, fun other _ => outcome other⟩
  | some =>
    obtain ⟨passes, _, within, rfl⟩ := outcome
    obtain ⟨_, held, passes⟩ := (any_eq_true _ _).mp passes
    obtain ⟨_, _, takes, effect⟩ := takeFrom_spec closed within held (of_decide_eq_true passes)
    simp only [takes, map_some]
    exact ⟨_, _, rfl, effect⟩

/-! ## Usage -/

lemma count_free (held : alloc.byte (indicesAt width position) = some byte) :
    count (fun page => isFree alloc page = true) (8 * (position + 1)) =
      count (fun page => isFree alloc page = true) (8 * position) + countZeros byte := by
  have bits : ∀ bit, bit < 8 → (isFree alloc (8 * position + bit) = true ↔ byte.getLsbD bit =
    false) := by
    intro bit bound
    have quotient : (8 * position + bit) / 8 = position := by omega
    have remainder : (8 * position + bit) % 8 = bit := by omega
    rw [isFree, quotient, remainder, held]
    simp
  rw [Nat.mul_succ, Nat.count_add, countZeros]
  congr 1
  apply Nat.le_antisymm
  · exact Nat.count_mono_left fun bit bound => (bits bit bound).mp
  · exact Nat.count_mono_left fun bit bound => (bits bit bound).mpr

def addFree (alloc : BitmapPageAlloc numBitmaps bitmapSizeBytes) (freeBytes : Nat)
    (indices : ByteIndices) :
    Option Nat :=
  (alloc.byte indices).bind fun byte =>
    (checkedMul (countZeros byte) alloc.allocPageSize).bind fun bytes => checkedAdd freeBytes bytes

lemma foldlM_addFree (sized : Sized shift alloc) {seen : Nat} (inside : seen ≤ rows * width) :
    ((List.range seen).map (indicesAt width)).foldlM (addFree alloc) 0 =
      some (count (fun page => isFree alloc page = true) (8 * seen) * 2 ^ shift) := by
  induction seen with
  | zero => simp
  | succ seen ih =>
    obtain ⟨byte, held⟩ := byte_indicesAt sized.bytes alloc inside
    have counted := count_free held
    have total : count (fun page => isFree alloc page = true) (8 * (seen + 1)) ≤ 8 * (seen + 1) :=
      Nat.count_le _
    have small := sized.addr_lt
      (show count (fun page => isFree alloc page = true) (8 * (seen + 1)) ≤
      8 * (rows * width) by omega)
    rw [counted, add_mul] at small
    have product : checkedMul (countZeros byte) alloc.allocPageSize =
      some (countZeros byte * 2 ^ shift) := by
      rw [sized.page, checkedMul, if_pos (by omega)]
    rw [List.range_succ, List.map_append, List.foldlM_append, ih (by omega), counted, add_mul]
    simp only [List.map_cons, List.map_nil, Option.bind_eq_bind, bind_some, List.foldlM_cons,
      List.foldlM_nil, addFree, held, product, checkedAdd, if_pos small]
    rfl

lemma freePages_le (closed : Closed shift alloc) :
    freePages alloc * 2 ^ shift ≤ alloc.stop.toNat := by
  have positive : 0 < 2 ^ shift := two_pow_pos shift
  have early : ∀ page, isFree alloc page = true → page < alloc.stop.toNat / 2 ^ shift := by
    intro page free
    exact (Nat.le_div_iff_mul_le positive).mpr (closed.below page free)
  apply (Nat.le_div_iff_mul_le positive).mp
  rw [freePages, Nat.count_eq_card_filter_range]
  calc
    _ ≤ (Finset.range (alloc.stop.toNat / 2 ^ shift)).card := by
      apply Finset.card_le_card
      intro page member
      exact Finset.mem_range.mpr (early page (Finset.mem_filter.mp member).2)
    _ = alloc.stop.toNat / 2 ^ shift := Finset.card_range _

lemma usageBytes_spec (closed : Closed shift alloc) (enough : rows * width < fuel) :
    alloc.usageBytes fuel = some (alloc.stop.toNat - freePages alloc * 2 ^ shift,
      alloc.stop.toNat) := by
  obtain ⟨scan, last, begins, -, bounded, covered, yields⟩ :=
    scan_yields closed closed.total_pos (Or.inl rfl)
  rw [Nat.zero_div, Nat.zero_mod] at begins
  rw [Nat.sub_zero, List.range_zero, List.append_nil, ← List.range_eq_range'] at yields
  have few : ((List.range last).map (indicesAt width)).length < fuel := by
    rw [List.length_map, List.length_range]
    omega
  have counted : count (fun page => isFree alloc page = true) (8 * last) = freePages alloc := by
    have rest : count (fun page => isFree alloc (8 * last + page) = true)
      (8 * (rows * width) - 8 * last) = 0 := by
      apply Nat.count_iff_forall_not.mpr
      intro page _ free
      have before := covered _ free
      omega
    rw [freePages, show 8 * (rows * width) =
      8 * last + (8 * (rows * width) - 8 * last) by omega, Nat.count_add, rest,
      Nat.add_zero]
  have folded := yields.fold (addFree alloc) 0 few
  rw [foldlM_addFree closed.toSized bounded, counted] at folded
  rw [usageBytes, begins, bind_some]
  change (foldNext alloc.nextIndices (addFree alloc) fuel 0 scan).bind _ = _
  rw [folded, bind_some]
  exact if_pos (freePages_le closed)

end

/-! ## Runs of allocations -/

/-- A run of calls of `allocate`, with what each of them returns. -/
def allocations (fuel : Nat) : Nat → BitmapPageAlloc numBitmaps bitmapSizeBytes →
    Option (List (Except PageAllocError PhysAddr) × BitmapPageAlloc numBitmaps bitmapSizeBytes)
  | 0, alloc => some ([], alloc)
  | calls + 1, alloc =>
    (alloc.allocate fuel).bind fun (result, next) =>
      (allocations fuel calls next).map fun (results, final) => (result :: results, final)

/-- The addresses that a run returns. -/
def returned (results : List (Except PageAllocError PhysAddr)) : List PhysAddr :=
  results.filterMap Except.toOption

/-- A page that a run may return: aligned, below the end of memory, and free before the run. -/
def Available (alloc : BitmapPageAlloc numBitmaps bitmapSizeBytes) (pa : PhysAddr) : Prop :=
  ∃ page, pa.toNat = page * alloc.allocPageSize ∧
    pa.toNat + alloc.allocPageSize ≤ alloc.stop.toNat ∧ isFree alloc page = true

lemma Allocates.available {next : BitmapPageAlloc rows width}
    {pa other : PhysAddr} (allocates : Allocates alloc (.ok pa) next) (sized : Sized shift alloc)
    (sized' : Sized shift next) (stop : next.stop = alloc.stop) (available : Available next other) :
    Available alloc other ∧ other ≠ pa := by
  obtain ⟨page, addr, -, -, changed⟩ := allocates
  obtain ⟨page', addr', below, free⟩ := available
  rw [sized'.page] at addr' below
  rw [sized.page] at addr
  rw [changed page'] at free
  split at free
  · cases free
  rename_i apart
  constructor
  · refine ⟨page', ?_, ?_, free⟩
    · rw [sized.page, addr']
    · rw [sized.page, ← stop]
      exact below
  · rintro rfl
    exact apart (Nat.eq_of_mul_eq_mul_right (two_pow_pos shift) (addr'.symm.trans addr))

lemma allocations_spec {fuel : Nat}
    (closed : Closed shift alloc) (enough : rows * width < fuel) (calls : Nat) :
    ∃ results final, allocations fuel calls alloc = some (results, final) ∧ Closed shift final ∧
      final.stop = alloc.stop ∧ (returned results).Nodup ∧
      ∀ pa ∈ returned results, Available alloc pa := by
  induction calls generalizing alloc with
  | zero => exact ⟨[], alloc, rfl, closed, rfl, List.nodup_nil, nofun⟩
  | succ calls ih =>
    obtain ⟨result, _, allocated, closed', stop, allocates⟩ := allocate_spec closed enough
    obtain ⟨results, final, rest, closedFinal, stopFinal, distinct, available⟩ := ih closed'
    have all : allocations fuel (calls + 1) alloc = some (result :: results, final) := by
      simp only [allocations, allocated, bind_some, rest, map_some]
    refine ⟨result :: results, final, all, closedFinal, stopFinal.trans stop, ?_⟩
    cases result with
    | error =>
      obtain ⟨-, rfl, -⟩ := allocates
      exact ⟨distinct, available⟩
    | ok pa =>
      have later := fun other member =>
        allocates.available closed.toSized closed'.toSized stop (available other member)
      have here : Available alloc pa := by
        obtain ⟨page, addr, below, free, -⟩ := allocates
        exact ⟨page, addr, below, free⟩
      constructor
      · exact List.nodup_cons.mpr ⟨fun member => (later pa member).2 rfl, distinct⟩
      · intro other member
        rcases List.mem_cons.mp member with rfl | member
        · exact here
        · exact (later other member).1

/-- What holds after a run of allocations: what it returned, what `usage_bytes` reports, and what
one more call of `allocate` does. -/
structure RunAllocates (fuel : Nat) (alloc : BitmapPageAlloc numBitmaps bitmapSizeBytes)
    (results : List (Except PageAllocError PhysAddr))
    (final : BitmapPageAlloc numBitmaps bitmapSizeBytes) : Prop where
  distinct : (returned results).Nodup
  available : ∀ pa ∈ returned results, Available alloc pa
  fixed : final.stop = alloc.stop ∧ final.allocPageSize = alloc.allocPageSize
  bounded : freePages final * alloc.allocPageSize ≤ alloc.stop.toNat
  usage : final.usageBytes fuel =
    some (alloc.stop.toNat - freePages final * alloc.allocPageSize, alloc.stop.toNat)
  next : ∃ result after, final.allocate fuel = some (result, after) ∧ Allocates final result after
  space : (∃ after, final.allocate fuel = some (.error .outOfSpace, after)) ↔
    ∀ page, page * alloc.allocPageSize < alloc.stop.toNat → isFree final page = false

/-- Every run of allocations after a successful `free_unused_ranges`, for an allocator with at least
one byte of bitmap. -/
theorem allocations_sound (alloc after : BitmapPageAlloc numBitmaps bitmapSizeBytes)
    (availableMem : PhysRange) (usedRanges : List PhysRange) (fuel calls : Nat)
    (bitmaps : 0 < numBitmaps) (bytes : 0 < bitmapSizeBytes)
    (freed : alloc.freeUnusedRanges availableMem usedRanges = some (.ok (), after))
    (enough : numBitmaps * bitmapSizeBytes < fuel) :
    ∃ results final, allocations fuel calls after = some (results, final) ∧
      RunAllocates fuel after results final := by
  obtain ⟨shift, closed⟩ := freeUnusedRanges_closed bitmaps bytes freed
  obtain ⟨results, final, ran, closed', stop, distinct, available⟩ :=
    allocations_spec closed enough calls
  obtain ⟨result, last, allocated, -, -, allocates⟩ := allocate_spec closed' enough
  have size : final.allocPageSize = after.allocPageSize := closed'.page.trans closed.page.symm
  refine ⟨results, final, ran, distinct, available, ⟨stop, size⟩, ?_, ?_,
    ⟨result, last, allocated, allocates⟩,
    ?_⟩
  · rw [closed.page, ← stop]
    exact freePages_le closed'
  · rw [closed.page, ← stop]
    exact usageBytes_spec closed' enough
  · rw [allocated, ← stop, ← size]
    cases result with
    | ok =>
      obtain ⟨page, addr, below, free, -⟩ := allocates
      constructor
      · rintro ⟨_, same⟩
        cases (Prod.mk.inj (Option.some.inj same)).1
      · intro none
        have positive : 0 < final.allocPageSize := by
          rw [closed'.page]
          exact Nat.two_pow_pos shift
        have taken := none page (by omega)
        rw [free] at taken
        cases taken
    | error =>
      obtain ⟨rfl, rfl, none⟩ := allocates
      exact ⟨fun _ => none, fun _ => ⟨_, rfl⟩⟩

lemma created_freed (rows width size : Nat) (available : PhysRange) (used : List PhysRange)
    (evaluated : ((newAllAllocated rows width size).any fun alloc =>
      (alloc.freeUnusedRanges available used).any fun outcome => outcome.1.isOk) = true) :
    ∃ alloc after, newAllAllocated rows width size = some alloc ∧
      alloc.freeUnusedRanges available used = some (.ok (), after) := by
  obtain ⟨alloc, created, frees⟩ := (any_eq_true _ _).mp evaluated
  obtain ⟨⟨result, after⟩, freed, succeeds⟩ := (any_eq_true _ _).mp frees
  cases result with
  | error => cases succeeds
  | ok => exact ⟨alloc, after, created, freed⟩

/-- Four allocations from 32 pages of 4 bytes of which ten are used. -/
theorem allocations_sound_small : ∃ alloc after, newAllAllocated 2 2 4 = some alloc ∧
      alloc.freeUnusedRanges ⟨0, 128⟩ [⟨4, 44⟩] = some (.ok (), after) ∧
      ∃ results final, allocations 5 4 after = some (results, final) ∧
        RunAllocates 5 after results final := by
  obtain ⟨alloc, after, created, freed⟩ :=
    created_freed 2 2 4 ⟨0, 128⟩ [⟨4, 44⟩] (by decide +kernel)
  exact ⟨alloc, after, created, freed,
    allocations_sound alloc after ⟨0, 128⟩ [⟨4, 44⟩] 5 4 (by decide) (by decide) freed (by decide)⟩

lemma allocate_no_bitmaps (alloc : BitmapPageAlloc 0 width) (fuel : Nat) :
    alloc.allocate fuel = none := by
  have missing : ∀ indices, alloc.byte indices = none := by
    intro indices
    rw [BitmapPageAlloc.byte, dif_neg (by omega)]
  have first : ∀ scan : IndicesFrom, scan.passedFirst = false →
      alloc.nextIndices scan = (alloc.advanced (alloc.rewound scan)).map some := by
    intro scan unpassed
    have kept : (alloc.rewound scan).passedFirst = scan.passedFirst := by
      rw [rewound]
      split
      · rfl
      · rfl
    simp [nextIndices, kept, unpassed]
  simp only [allocate, Option.bind_eq_none_iff]
  intro _ _ _ begins
  obtain ⟨currpa, -, rfl⟩ := Option.map_eq_some_iff.mp begins
  cases fuel with
  | zero => rfl
  | succ =>
    rw [findNext, first _ rfl]
    cases alloc.advanced (alloc.rewound ⟨_, _, _, _, false, currpa⟩) with
    | none => rfl
    | some => simp [missing]

/-- An allocator without bitmaps is freed successfully, and then `allocate` never returns. -/
theorem freed_without_bitmaps : ∃ alloc after : BitmapPageAlloc 0 1, newAllAllocated 0 1 4096 =
    some alloc ∧
      alloc.freeUnusedRanges ⟨0, 0⟩ [] = some (.ok (), after) ∧ ∀ fuel, after.allocate fuel =
        none := by
  obtain ⟨alloc, after, created, freed⟩ := created_freed 0 1 4096 ⟨0, 0⟩ [] (by decide +kernel)
  exact ⟨alloc, after, created, freed, allocate_no_bitmaps after⟩

end R9x.Verif.PageBitmap
