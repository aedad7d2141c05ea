import R9x.Lib.Run
import R9x.Verif.PageBitmap

/-!
# Giving pages back to the page bitmap

`deallocate` tests the bit of its page and clears the bit at the same place in the first byte of the
bitmap.
-/

namespace R9x.Verif.PageBitmap

open Lib Port Aarch64.Vm
open Option (map_eq_some_iff bind_eq_some_iff bind_some map_some any_eq_true)
open BitmapPageAlloc (deallocate)

variable {numBitmaps bitmapSizeBytes : Nat}

/-- A call on the allocator. -/
inductive Call where
  | allocate
  | deallocate (pa : PhysAddr)

/-- The allocator after a call, whatever it returns. -/
def Call.step (fuel : Nat) (alloc : BitmapPageAlloc numBitmaps bitmapSizeBytes) :
    Call → Option (BitmapPageAlloc numBitmaps bitmapSizeBytes)
  | .allocate => (alloc.allocate fuel).map Prod.snd
  | .deallocate pa => (alloc.deallocate pa).map Prod.snd

/-- The page that starts at an address. -/
def pageOf (alloc : BitmapPageAlloc numBitmaps bitmapSizeBytes) (pa : PhysAddr) : Nat :=
  pa.toNat / alloc.allocPageSize

/-- The next allocation takes a page, and it takes this one if no earlier page of its byte is free.
-/
def ReturnsAgain (alloc : BitmapPageAlloc numBitmaps bitmapSizeBytes) (pa : PhysAddr) : Prop :=
  ∀ fuel, ∃ taken next, alloc.allocate (fuel + 1) = some (.ok taken, next) ∧
    ((∀ other < pageOf alloc pa, other / 8 = pageOf alloc pa / 8 → isFree alloc other = false) →
      taken = pa)

/-- What a call of `deallocate` is for: it frees its page if that is below the end of memory and
allocated, and otherwise reports an error and changes nothing. -/
def Deallocates (alloc : BitmapPageAlloc numBitmaps bitmapSizeBytes) (pa : PhysAddr) : Prop :=
  ∃ result next, alloc.deallocate pa = some (result, next) ∧
    (result = .ok () ↔ pa < alloc.stop ∧ isFree alloc (pageOf alloc pa) = false) ∧
    (result = .ok () → (∀ other, isFree next other = if other = pageOf alloc pa then true
      else isFree alloc other) ∧ next.stop = alloc.stop ∧ ReturnsAgain next pa) ∧
    (result ≠ .ok () → (result = .error .notAllocated ∨ result = .error .outOfBounds) ∧
      next = alloc)

/-- The calls that the code serves: the address is past the end of memory, or its page is free, or
it is below the end and its page is one of the first eight of a bitmap. -/
def Deallocatable (alloc : BitmapPageAlloc numBitmaps bitmapSizeBytes) (pa : PhysAddr) : Prop :=
  alloc.stop < pa ∨ isFree alloc (pageOf alloc pa) = true ∨
    pa < alloc.stop ∧ pageOf alloc pa / 8 < numBitmaps * bitmapSizeBytes ∧
      pageOf alloc pa / 8 % bitmapSizeBytes = 0

/-! ## The size of the pages -/

section

variable {alloc next : BitmapPageAlloc numBitmaps bitmapSizeBytes} {pa : PhysAddr} {fuel : Nat}

lemma takeFrom_size {indices : ByteIndices}
    (takes : alloc.takeFrom indices = some (pa, next)) :
    next.allocPageSize = alloc.allocPageSize := by
  rw [BitmapPageAlloc.takeFrom] at takes
  split at takes
  · simp only at takes
    split at takes
    · obtain ⟨_, -, same⟩ := map_eq_some_iff.mp takes
      cases same
      rfl
    · cases takes
  · cases takes

lemma allocate_size {result : Except PageAllocError PhysAddr}
    (allocates : alloc.allocate fuel = some (result, next)) :
    next.allocPageSize = alloc.allocPageSize := by
  obtain ⟨_, -, allocates⟩ := bind_eq_some_iff.mp allocates
  obtain ⟨_, -, allocates⟩ := bind_eq_some_iff.mp allocates
  simp only at allocates
  split at allocates
  · cases allocates
  · cases allocates
    rfl
  obtain ⟨_, takes, same⟩ := map_eq_some_iff.mp allocates
  cases same
  exact takeFrom_size takes

lemma deallocate_size {result : Except PageAllocError Unit}
    (deallocates : alloc.deallocate pa = some (result, next)) :
    next.allocPageSize = alloc.allocPageSize := by
  rw [deallocate] at deallocates
  split at deallocates
  · cases deallocates
    rfl
  obtain ⟨_, -, deallocates⟩ := bind_eq_some_iff.mp deallocates
  simp only at deallocates
  split at deallocates
  · obtain ⟨_, -, deallocates⟩ := bind_eq_some_iff.mp deallocates
    split at deallocates
    · obtain ⟨_, -, same⟩ := map_eq_some_iff.mp deallocates
      cases same
      rfl
    cases deallocates
    rfl
  · cases deallocates

lemma Call.step_size {call : Call} (taken : call.step fuel alloc = some next) :
    next.allocPageSize = alloc.allocPageSize := by
  cases call with
  | allocate =>
    obtain ⟨_, allocates, rfl⟩ := map_eq_some_iff.mp taken
    exact allocate_size allocates
  | deallocate =>
    obtain ⟨_, deallocates, rfl⟩ := map_eq_some_iff.mp taken
    exact deallocate_size deallocates

end

/-! ## One call -/

section

variable {shift page : Nat} {alloc : BitmapPageAlloc numBitmaps bitmapSizeBytes} {pa : PhysAddr}

lemma trailingOnes_first : ∀ byte : BitVec 8, ∀ bit < 8, byte.getLsbD bit = false →
    (∀ lower < bit, byte.getLsbD lower = true) → trailingOnes byte = bit := by
  decide +kernel

lemma returnsAgain (sized : Sized shift alloc) (addr : pa.toNat = page * 2 ^ shift)
    (scan : alloc.nextPaToScan = pa) (below : pa < alloc.stop) (free : isFree alloc page = true) :
    ReturnsAgain alloc pa := by
  have inside := inside_of_isFree free
  have same : pageOf alloc pa = page := by
    rw [pageOf, sized.page, addr, Nat.mul_div_cancel _ (Nat.two_pow_pos shift)]
  have early : page / 8 = 0 ∨ 8 * (page / 8) * 2 ^ shift < alloc.stop.toNat := by
    have lower : 8 * (page / 8) * 2 ^ shift ≤ page * 2 ^ shift := Nat.mul_le_mul_right _ (by omega)
    rw [BitVec.lt_def] at below
    exact Or.inr (by omega)
  obtain ⟨begun, begins, called⟩ := scan_begins sized inside early
  obtain ⟨byte, held⟩ := byte_indicesAt sized.bytes alloc inside
  have passes := unfilled_of_isFree free
  rw [unfilled, held, Option.any_some, decide_eq_true_iff] at passes
  obtain ⟨next, takes, -⟩ := takeFrom_first sized inside held passes
  have bits : ∀ other, other / 8 = page / 8 → isFree alloc other = !byte.getLsbD (other % 8) := by
    intro _ position
    rw [isFree, position, held]
  intro fuel
  refine ⟨BitVec.ofNat 64 ((8 * (page / 8) + trailingOnes byte) * 2 ^ shift), next, ?_, fun first =>
    ?_⟩
  · simp only [BitmapPageAlloc.allocate, scan, sized.physaddrAsIndices addr, bind_some, begins,
      findNext, called, held, map_some, decide_eq_true passes, takes]
  · have lowest : trailingOnes byte = page % 8 := by
      refine trailingOnes_first byte _ (Nat.mod_lt _ (by omega)) ?_ fun lower before => ?_
      · rw [bits page rfl, Bool.not_eq_true'] at free
        exact free
      · have taken := first (8 * (page / 8) + lower) (by omega) (by omega)
        rw [bits _ (by omega), show (8 * (page / 8) + lower) % 8 = lower by omega,
          Bool.not_eq_false'] at taken
        exact taken
    apply BitVec.eq_of_toNat_eq
    rw [lowest, Nat.div_add_mod, ← addr, BitVec.toNat_ofNat, Nat.mod_eq_of_lt pa.isLt]

lemma isSet_page (sized : Sized shift alloc) (inside : page / 8 / bitmapSizeBytes < numBitmaps) :
    (alloc.bitmaps ⟨_, inside⟩).isSet (8 * (page / 8 % bitmapSizeBytes) + page % 8) =
      some (!isFree alloc page) := by
  have bound : page / 8 % bitmapSizeBytes < bitmapSizeBytes := Nat.mod_lt _ sized.bytes
  have byteIdx : (8 * (page / 8 % bitmapSizeBytes) + page % 8) / 8 =
    page / 8 % bitmapSizeBytes := by omega
  have bitIdx : (8 * (page / 8 % bitmapSizeBytes) + page % 8) % 8 = page % 8 := by omega
  have tested : ∀ byte : BitVec 8, ∀ bit < 8, decide (0 < byte &&& 1#8 <<< bit) =
    byte.getLsbD bit := by
    decide +kernel
  have held : alloc.byte (indicesAt bitmapSizeBytes (page / 8)) =
      some (alloc.bitmaps ⟨_, inside⟩ ⟨_, bound⟩) := dif_pos ⟨inside, bound⟩
  rw [isFree, held]
  simp only [Bitmap.isSet, byteIdx, bitIdx, dif_pos bound, Bool.not_not]
  exact congrArg some (tested _ _ (Nat.mod_lt _ (by omega)))

lemma deallocate_clears (sized : Sized shift alloc) (addr : pa.toNat = page * 2 ^ shift)
    (within : ¬ alloc.stop < pa) (inside : page / 8 < numBitmaps * bitmapSizeBytes)
    (held : isFree alloc page = false) :
    ∃ next, alloc.deallocate pa = some (.ok (), next) ∧ next.stop = alloc.stop ∧
      next.nextPaToScan = pa ∧ ∀ other, isFree next other =
        if other = 8 * (page / 8 / bitmapSizeBytes * bitmapSizeBytes) + page % 8 then true
        else isFree alloc other := by
  obtain ⟨bitmap, -⟩ := position_inside sized.bytes inside
  have first : page % 8 / 8 < bitmapSizeBytes := by
    have bytes := sized.bytes
    omega
  have sets : ∃ cleared, (alloc.bitmaps ⟨_, bitmap⟩).set (page % 8) false = some cleared :=
    ⟨_, dif_pos first⟩
  obtain ⟨cleared, sets⟩ := sets
  refine ⟨{ alloc.withBitmap ⟨_, bitmap⟩ cleared with nextPaToScan := pa }, ?_, rfl, rfl, ?_⟩
  · simp only [deallocate, if_neg within, sized.physaddrAsIndices addr, bind_some,
      dif_pos bitmap, isSet_page sized bitmap, held, Bool.not_false, if_true, sets, map_some]
  · obtain ⟨_, written, rfl, bits⟩ := set_bits sets
    have place : (8 * (page / 8 / bitmapSizeBytes * bitmapSizeBytes) + page % 8) % 8 =
      page % 8 % 8 := by
      omega
    have position : (8 * (page / 8 / bitmapSizeBytes * bitmapSizeBytes) + page % 8) / 8 =
        page / 8 / bitmapSizeBytes * bitmapSizeBytes := by omega
    have zero : page % 8 / 8 = 0 := by omega
    rw [← place] at bits
    refine isFree_withBitmap alloc ⟨_, bitmap⟩ ⟨_, first⟩ written _ ?_ bits
    simp only [indicesAt, position, zero]
    rw [Nat.mul_div_cancel _ sized.bytes, Nat.mul_mod_left]

lemma deallocate_outside (within : ¬ alloc.stop < pa)
    (outside : ∀ indices, alloc.physaddrAsIndices pa = some indices → numBitmaps ≤ indices.1) :
    alloc.deallocate pa = none := by
  rw [deallocate, if_neg within, Option.bind_eq_none_iff]
  intro indices found
  exact dif_neg (Nat.not_lt_of_le (outside indices found))

lemma deallocates_beyond (beyond : alloc.stop < pa) : Deallocates alloc pa := by
  refine ⟨_, _, if_pos beyond, ⟨nofun, fun below => ?_⟩, nofun, fun _ => ⟨.inr rfl, rfl⟩⟩
  exact absurd (BitVec.lt_trans beyond below.1) (BitVec.lt_irrefl _)

lemma deallocates_iff_outside (within : ¬ alloc.stop < pa)
    (outside : ¬ pageOf alloc pa / 8 < numBitmaps * bitmapSizeBytes)
    (panics : alloc.deallocate pa = none) : Deallocates alloc pa ↔ Deallocatable alloc pa := by
  constructor
  · rintro ⟨_, _, returns, -⟩
    rw [panics] at returns
    cases returns
  · rintro (past | free | ⟨-, inside, -⟩)
    · exact absurd past within
    · exact absurd (inside_of_isFree free) outside
    · exact absurd inside outside

lemma Sized.deallocates_iff (sized : Sized shift alloc)
    (aligned : pa.toNat % alloc.allocPageSize = 0) :
    Deallocates alloc pa ↔ Deallocatable alloc pa := by
  have addr : pa.toNat = pageOf alloc pa * 2 ^ shift := by
    rw [pageOf, ← sized.page, Nat.div_mul_cancel (Nat.dvd_of_mod_eq_zero aligned)]
  by_cases beyond : alloc.stop < pa
  · exact ⟨fun _ => .inl beyond, fun _ => deallocates_beyond beyond⟩
  by_cases inside : pageOf alloc pa / 8 < numBitmaps * bitmapSizeBytes
  · rw [Deallocates, Deallocatable]
    generalize pageOf alloc pa = page at addr inside ⊢
    obtain ⟨bitmap, -⟩ := position_inside sized.bytes inside
    cases held : isFree alloc page with
    | true =>
      have reports : alloc.deallocate pa = some (.error .notAllocated, alloc) := by
        simp only [deallocate, if_neg beyond, sized.physaddrAsIndices addr,
          bind_some, dif_pos bitmap, isSet_page sized bitmap, held, Bool.not_true,
          Bool.false_eq_true, if_false]
      refine ⟨fun _ => .inr (.inl rfl), fun _ => ⟨_, _, reports, ⟨nofun, fun below => ?_⟩, nofun,
        fun _ => ⟨.inl rfl, rfl⟩⟩⟩
      cases below.2
    | false =>
      obtain ⟨next, returns, stop, scan, cleared⟩ := deallocate_clears sized addr beyond inside held
      have position := Nat.div_add_mod (page / 8) bitmapSizeBytes
      rw [Nat.mul_comm] at position
      constructor
      · rintro ⟨result, next', same, served, frees, -⟩
        obtain ⟨rfl, rfl⟩ := Prod.mk.inj (Option.some.inj (returns.symm.trans same))
        have freed := (frees rfl).1 page
        rw [cleared page, if_pos rfl, held] at freed
        refine .inr (.inr ⟨(served.mp rfl).1, inside, ?_⟩)
        by_contra later
        rw [if_neg (by omega)] at freed
        cases freed
      · rintro (past | free | ⟨below, -, first⟩)
        · exact absurd past beyond
        · cases free
        · have place : 8 * (page / 8 / bitmapSizeBytes * bitmapSizeBytes) + page % 8 = page := by
            omega
          rw [place] at cleared
          have free : isFree next page = true := by rw [cleared page, if_pos rfl]
          have again : ReturnsAgain next pa :=
            returnsAgain (sized.of_page (deallocate_size returns)) addr scan (by rwa [stop]) free
          exact ⟨_, next, returns, ⟨fun _ => ⟨below, rfl⟩, fun _ => rfl⟩,
            fun _ => ⟨cleared, stop, again⟩, fun refused => absurd rfl refused⟩
  · have panics : alloc.deallocate pa = none := by
      refine deallocate_outside beyond fun indices found => ?_
      rw [sized.physaddrAsIndices addr] at found
      cases found
      exact (Nat.le_div_iff_mul_le sized.bytes).mpr (Nat.le_of_not_lt inside)
    exact deallocates_iff_outside beyond inside panics

lemma deallocates_iff_of_empty (empty : numBitmaps * bitmapSizeBytes = 0) :
    Deallocates alloc pa ↔ Deallocatable alloc pa := by
  by_cases beyond : alloc.stop < pa
  · exact ⟨fun _ => .inl beyond, fun _ => deallocates_beyond beyond⟩
  have panics : alloc.deallocate pa = none := by
    refine deallocate_outside beyond fun indices found => ?_
    rcases Nat.mul_eq_zero.mp empty with none | none
    · omega
    rw [BitmapPageAlloc.physaddrAsIndices] at found
    split at found
    · cases found
    obtain ⟨_, perBitmap, found⟩ := bind_eq_some_iff.mp found
    obtain ⟨_, -, product⟩ := bind_eq_some_iff.mp perBitmap
    obtain ⟨rfl, -⟩ := checkedMul_some product
    rw [if_pos (by rw [none, Nat.zero_mul])] at found
    cases found
  exact deallocates_iff_outside beyond (by omega) panics

end

/-! ## Every state -/

/-- In every state that calls of the allocator reach after a successful `free_unused_ranges`, for
every number and size of bitmaps, `deallocate` does what it is for exactly in the calls that the
code serves. -/
theorem deallocate_correct_iff {alloc after reached : BitmapPageAlloc numBitmaps bitmapSizeBytes}
    {availableMem : PhysRange} {usedRanges : List PhysRange} {fuel : Nat} {calls : List Call}
    (freed : alloc.freeUnusedRanges availableMem usedRanges = some (.ok (), after))
    (runs : run (Call.step fuel) after calls = some reached) {pa : PhysAddr}
    (aligned : pa.toNat % reached.allocPageSize = 0) :
    Deallocates reached pa ↔ Deallocatable reached pa := by
  by_cases empty : numBitmaps * bitmapSizeBytes = 0
  · exact deallocates_iff_of_empty empty
  have bitmaps : 0 < numBitmaps := Nat.pos_of_ne_zero fun none => empty (by rw [none, Nat.zero_mul])
  have bytes : 0 < bitmapSizeBytes :=
    Nat.pos_of_ne_zero fun none => empty (by rw [none, Nat.mul_zero])
  obtain ⟨shift, closed⟩ := freeUnusedRanges_closed bitmaps bytes freed
  have sized : Sized shift reached := run_invariant (Sized shift)
    (fun _ _ _ before taken => before.of_page (Call.step_size taken)) closed.toSized runs
  exact sized.deallocates_iff aligned

/-- Nine allocations from sixteen pages of four bytes. -/
theorem deallocate_correct_iff_small : ∃ alloc after reached : BitmapPageAlloc 1 2,
    alloc.freeUnusedRanges ⟨0, 64⟩ [] = some (.ok (), after) ∧
    run (Call.step 3) after (List.replicate 9 .allocate) = some reached ∧
    (Deallocates reached 4 ↔ Deallocatable reached 4) := by
  have evaluated : ((BitmapPageAlloc.newAllAllocated 1 2 4).any fun alloc =>
      (alloc.freeUnusedRanges ⟨0, 64⟩ []).any fun outcome => outcome.1.isOk &&
        (run (Call.step 3) outcome.2 (List.replicate 9 .allocate)).any fun reached =>
          reached.allocPageSize = 4) = true := by
    decide +kernel
  obtain ⟨alloc, -, frees⟩ := (any_eq_true _ _).mp evaluated
  obtain ⟨⟨result, after⟩, freed, succeeds⟩ := (any_eq_true _ _).mp frees
  obtain ⟨good, allocates⟩ := Bool.and_eq_true_iff.mp succeeds
  obtain ⟨reached, runs, size⟩ := (any_eq_true _ _).mp allocates
  cases result with
  | error => cases good
  | ok =>
    refine ⟨alloc, after, reached, freed, runs, deallocate_correct_iff freed runs ?_⟩
    rw [of_decide_eq_true size]
    rfl

/-- The ninth page is given back, and the first one is free after it. -/
theorem deallocate_frees_first : ((BitmapPageAlloc.newAllAllocated 1 2 4).bind fun alloc =>
      (alloc.freeUnusedRanges ⟨0, 64⟩ []).bind fun freed =>
        (run (Call.step 3) freed.2 (List.replicate 9 .allocate)).bind fun reached =>
          (reached.deallocate 32).map fun outcome =>
          (outcome.1.isOk, isFree reached 0, isFree reached 8,
            isFree outcome.2 0, isFree outcome.2 8)) = some (true, false, false, true, false) := by
  decide +kernel

end R9x.Verif.PageBitmap
