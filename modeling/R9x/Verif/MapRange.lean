import R9x.Verif.MapCalls

/-!
# Ranges of pages

`map_phys_range` maps a range page by page.
-/

namespace R9x.Verif.PageTree

open Lib Aarch64.Vm
open BitVec (ofNat toNat_add toNat_ofNat testBit_toNat)

def block (size : PageSize) (va : VirtAddr) : Nat := va.toNat % 2 ^ 48 / size.size

/-- Neighbouring pages or blocks from a number on are mapped to the given addresses, and no others.
-/
structure Maps (root : PageNo) (entry : Entry) (size : PageSize) (pas : List PhysAddr) (first : Nat)
    (before after : Mem) : Prop where
  inside : ∀ other i pa, pas[i]? = some pa → block size other = first + i →
    walk after root other = some (size, size.entry (entry.withPhysAddr pa))
  outside : ∀ other, vaIndex other .level0 ≠ recursiveSlot →
    (block size other < first ∨ first + pas.length ≤ block size other) →
    walk after root other = walk before root other

section

variable {ttbr : Ttbr} {root : PageNo} {entry : Entry} {size : PageSize}
  {pgtype : RootPageTableType}
  {pas : List PhysAddr} {first : Nat} {va : VirtAddr}

lemma maps_nil {before after : Mem} (same : SameWalks root before after) :
    Maps root entry size [] first before after :=
  ⟨fun _ _ _ impossible => (by cases impossible), fun other outside _ => same other outside⟩

lemma Maps.cons {before middle after : Mem} {pa : PhysAddr}
    (mapped : Mapped root (entry.withPhysAddr pa) va size before middle)
    (slot : vaIndex va .level0 ≠ recursiveSlot) (place : block size va = first)
    (maps : Maps root entry size pas (first + 1) middle after) :
    Maps root entry size (pa :: pas) first before after where
  inside other i pa' listed here := by
    cases i with
    | zero =>
      cases listed
      have covered : Covers size va other := here.trans place.symm
      rw [maps.outside other (covered.first ▸ slot) (.inl (by omega)), mapped.inside other covered]
    | succ i => exact maps.inside other i pa' listed (by omega)
  outside other elsewhere apart := by
    rw [List.length_cons] at apart
    have uncovered : ¬ Covers size va other := fun covered => by
      have here : block size other = first := covered.trans place
      omega
    rw [maps.outside other elsewhere (by omega), mapped.outside other elsewhere uncovered]

lemma block_next (room : va.toNat % 2 ^ 48 + 2 * size.size ≤ 2 ^ 48) :
    block size (va + ofNat 64 size.size) = block size va + 1 := by
  rw [block, block, toNat_add]
  cases size <;> simp only [PageSize.size, toNat_ofNat] at room ⊢ <;> omega

/-- The loop of `map_phys_range` maps pages up to some number, and all of them if it succeeds. -/
lemma mapPages_maps {phys after : Phys} {result : Except PageTableError VirtAddr}
    (callable : Callable phys root (ttbr.root pgtype)) (valid : entry.valid = true)
    (plain : entry.pageOrTable = false) (fits : va.toNat % 2 ^ 48 + pas.length * size.size ≤ 2 ^ 48)
    (place : pas ≠ [] → block size va = first)
    (returns : mapPages ttbr root entry size pgtype pas va phys = some (result, after)) :
    ∃ taken done, Touched root phys after taken ∧ done ≤ pas.length ∧
      Maps root entry size (pas.take done) first phys.mem after.mem ∧
      ∀ last, result = .ok last → done = pas.length ∧ last.toNat =
        va.toNat + pas.length * size.size := by
  induction pas generalizing va phys first with
  | nil =>
    cases returns
    refine ⟨[], 0, .refl callable.tree, Nat.le_refl 0, maps_nil fun _ _ => rfl, fun last same => ?_⟩
    rw [← Except.ok.inj same]
    exact ⟨rfl, (Nat.add_zero _).symm.trans (by simp)⟩
  | cons pa pas ih =>
    have valid' : (entry.withPhysAddr pa).valid = true := by rw [Entry.valid_withPhysAddr, valid]
    have plain' : (entry.withPhysAddr pa).pageOrTable = false := by
      rw [Entry.pageOrTable_withPhysAddr, plain]
    obtain ⟨answer, middle, taken, maps, touched, answers, -⟩ :=
      mapTo_spec callable va size valid' plain'
    have here := place (by simp)
    rw [List.length_cons, Nat.succ_mul] at fits ⊢
    rw [mapPages] at returns
    split at returns
    · rename_i small
      rw [maps] at returns
      cases answer with
      | error =>
        cases returns
        exact ⟨taken, 0, touched, Nat.zero_le _, maps_nil answers, fun _ impossible => by
          cases impossible⟩
      | ok =>
        have slot : vaIndex va .level0 ≠ recursiveSlot := by
          intro slot
          rw [mapTo_refused slot] at maps
          cases maps
        have number : (va + ofNat 64 size.size).toNat = va.toNat + size.size := by
          rw [toNat_add, toNat_ofNat]
          cases size <;> simp only [PageSize.size] at small ⊢ <;> omega
        have fits' : (va + ofNat 64 size.size).toNat % 2 ^ 48 + pas.length * size.size ≤
          2 ^ 48 := by
          have wraps := Nat.mod_le (va.toNat % 2 ^ 48 + size.size) (2 ^ 48)
          omega
        have place' : pas ≠ [] → block size (va + ofNat 64 size.size) = first + 1 := by
          intro more
          have room := Nat.le_mul_of_pos_left size.size (List.length_pos_iff.mpr more)
          rw [block_next (by omega), here]
        obtain ⟨more, done, touched', bound, rest, all⟩ :=
          ih (callable.touched touched) fits' place' returns
        refine ⟨taken ++ more, done + 1, touched.trans touched', by omega,
          Maps.cons answers slot here rest, fun last same => ?_⟩
        obtain ⟨whole, ends⟩ := all last same
        exact ⟨by omega, by omega⟩
    · cases returns

end

/-! ## Physical addresses -/

def sizeShift : PageSize → Nat
  | .page4K => 12
  | .page2M => 21
  | .page1G => 30

lemma size_eq (size : PageSize) : size.size = 2 ^ sizeShift size := by cases size <;> rfl

lemma toNat_splice {shift : Nat} (small : shift ≤ 36) (high low : PageNo) :
    ((high &&& ~~~ofNat 36 (2 ^ shift - 1)) ||| (low &&& ofNat 36 (2 ^ shift - 1))).toNat =
      2 ^ shift * (high.toNat / 2 ^ shift) + low.toNat % 2 ^ shift := by
  apply Nat.eq_of_testBit_eq
  intro bit
  have ones : (ofNat 36 (2 ^ shift - 1)).getLsbD bit = decide (bit < shift) := by
    rw [BitVec.getLsbD_ofNat, Nat.testBit_two_pow_sub_one]
    by_cases below : bit < shift
    · simp [below, show bit < 36 by omega]
    · simp [below]
  rw [testBit_toNat, BitVec.getLsbD_or, BitVec.getLsbD_and, BitVec.getLsbD_and,
    BitVec.getLsbD_not, ones, Nat.testBit_two_pow_mul_add _ (Nat.mod_lt _ (Nat.two_pow_pos shift)),
    Nat.testBit_mod_two_pow, Nat.testBit_div_two_pow, testBit_toNat, testBit_toNat]
  by_cases below : bit < shift
  · simp [below]
  rw [if_neg below, Nat.sub_add_cancel (by omega)]
  by_cases inside : bit < 36
  · simp [below, inside]
  · simp [below, inside, BitVec.getLsbD_of_ge high bit (by omega)]

lemma toNat_addr_withPhysAddr (entry : Entry) (pa : PhysAddr) :
    (entry.withPhysAddr pa).addr.toNat = pa.toNat / 4096 % 2 ^ 36 := by
  rw [Entry.addr, Entry.withPhysAddr, Entry.withAddr, Bits.extract_setField entry 12 _ (by omega),
    BitVec.toNat_setWidth, BitVec.toNat_ushiftRight, Nat.shiftRight_eq_div_pow]

lemma toNat_frame (size : PageSize) (entry : Entry) {pa : PhysAddr} (va : VirtAddr)
    (aligned : pa.toNat % size.size = 0) (low : pa.toNat < 2 ^ 48) :
    (frame size (size.entry (entry.withPhysAddr pa)) va).toNat * 4096 + va.toNat % 4096 =
      pa.toNat + va.toNat % size.size := by
  have page : ((va >>> 12).setWidth 36 : PageNo).toNat = va.toNat / 4096 % 2 ^ 36 := by
    rw [BitVec.toNat_setWidth, BitVec.toNat_ushiftRight, Nat.shiftRight_eq_div_pow]
  have addr := toNat_addr_withPhysAddr entry pa
  cases size with
  | page4K =>
    rw [PageSize.size] at aligned ⊢
    rw [frame, PageSize.entry, if_pos rfl, Entry.addr_withPageOrTable, addr]
    omega
  | page2M =>
    rw [PageSize.size] at aligned ⊢
    rw [frame, PageSize.entry, if_neg (by decide)]
    have spliced := toNat_splice (show 9 ≤ 36 by decide) (entry.withPhysAddr pa).addr
      ((va >>> 12).setWidth 36)
    rw [show (0x1ff : PageNo) = ofNat 36 (2 ^ 9 - 1) from rfl, spliced]
    omega
  | page1G =>
    rw [PageSize.size] at aligned ⊢
    rw [frame, PageSize.entry, if_neg (by decide)]
    have spliced := toNat_splice (show 18 ≤ 36 by decide) (entry.withPhysAddr pa).addr
      ((va >>> 12).setWidth 36)
    rw [show (0x3ffff : PageNo) = ofNat 36 (2 ^ 18 - 1) from rfl, spliced]
    omega

/-! ## A whole range -/

section

variable {ttbr : Ttbr} {root : PageNo} {entry : Entry} {size : PageSize}
  {pgtype : RootPageTableType}
  {range : PhysRange} {mapping : VaMapping} {phys after : Phys} {vr : VirtRange}

lemma mapPhysRange_ok
    (returns : mapPhysRange ttbr root range mapping entry size pgtype phys = some (.ok vr, after)) :
    range.start.toNat % size.size = 0 ∧ range.stop.toNat % size.size = 0 ∧
      range.start.toNat < range.stop.toNat ∧ vr.start = mapping.map range.start ∧
      mapPages ttbr root entry size pgtype
        ((List.range ((range.stop.toNat - range.start.toNat) / size.size)).map fun k =>
          range.start + ofNat 64 (k * size.size)) (mapping.map range.start) phys =
        some (.ok vr.stop, after) := by
  rw [mapPhysRange] at returns
  split at returns
  · cases returns
  rename_i aligned
  obtain ⟨first, last⟩ := not_or.mp aligned
  have positive : 0 < size.size := by cases size <;> decide
  have small : sizeShift size < 64 := by cases size <;> decide
  have steps := stepByRounded_aligned small (size_eq size ▸ not_not.mp first)
    (size_eq size ▸ not_not.mp last)
  rw [← size_eq] at steps
  rw [steps] at returns
  split at returns
  · cases returns
  · cases returns
  rename_i pa pas listed
  split at listed
  · have listed := Option.some.inj listed
    have more : 0 < (range.stop.toNat - range.start.toNat) / size.size := by
      have length := congrArg List.length listed
      rw [List.length_map, List.length_range, List.length_cons] at length
      omega
    have head : pa = range.start := by
      obtain ⟨_, same⟩ := Nat.exists_eq_succ_of_ne_zero (Nat.pos_iff_ne_zero.mp more)
      rw [same, List.range_succ_eq_map, List.map_cons] at listed
      rw [← (List.cons.inj listed).1]
      simp
    subst head
    rw [← listed] at returns
    dsimp only at returns
    split at returns
    · cases returns
    · cases returns
    rename_i stop last' maps
    obtain ⟨same, rfl⟩ := Prod.mk.inj (Option.some.inj returns)
    cases same
    refine ⟨not_not.mp first, not_not.mp last, ?_, rfl, maps⟩
    have below := Nat.div_mul_le_self (range.stop.toNat - range.start.toNat) size.size
    have some := Nat.le_mul_of_pos_left size.size more
    omega
  · cases listed

/-- A virtual range maps a physical range linearly, and nothing else of its half is changed. -/
structure Linear (root : PageNo) (entry : Entry) (size : PageSize) (pgtype : RootPageTableType)
    (range : PhysRange) (vr : VirtRange) (before after : Mem) : Prop where
  aligned : range.start.toNat % size.size = 0 ∧ range.stop.toNat % size.size = 0
  filled : range.start.toNat < range.stop.toNat
  length : vr.stop.toNat = vr.start.toNat + (range.stop.toNat - range.start.toNat)
  translates : ∀ k, k < range.stop.toNat - range.start.toNat → ∃ pa,
    walk after root (vr.start + ofNat 64 k) = some (size, size.entry (entry.withPhysAddr pa)) ∧
    (frame size (size.entry (entry.withPhysAddr pa)) (vr.start + ofNat 64 k)).toNat * 4096 +
      (vr.start + ofNat 64 k).toNat % 4096 = range.start.toNat + k
  kept : ∀ other, other.toNat / 2 ^ 48 = topBits pgtype → vaIndex other .level0 ≠ recursiveSlot →
    (other.toNat < vr.start.toNat ∨ vr.stop.toNat ≤ other.toNat) →
    walk after root other = walk before root other

/-- `map_phys_range` that succeeds maps its range linearly, if the range fits in 48 bits. -/
theorem mapPhysRange_linear (callable : Callable phys root (ttbr.root pgtype))
    (valid : entry.valid = true) (plain : entry.pageOrTable = false)
    (multiple : (mapping.map range.start).toNat % size.size = 0)
    (half : (mapping.map range.start).toNat / 2 ^ 48 = topBits pgtype)
    (inside : (mapping.map range.start).toNat % 2 ^ 48 + (range.stop.toNat - range.start.toNat) ≤
      2 ^ 48)
    (low : range.stop.toNat ≤ 2 ^ 48)
    (returns : mapPhysRange ttbr root range mapping entry size pgtype phys = some (.ok vr, after)) :
    Linear root entry size pgtype range vr phys.mem after.mem := by
  obtain ⟨first, last, filled, start, maps⟩ := mapPhysRange_ok returns
  rw [← start] at multiple half inside maps
  have positive : 0 < size.size := by cases size <;> decide
  have whole : (range.stop.toNat - range.start.toNat) / size.size * size.size =
      range.stop.toNat - range.start.toNat :=
    Nat.div_mul_cancel (Nat.dvd_sub (Nat.dvd_of_mod_eq_zero last) (Nat.dvd_of_mod_eq_zero first))
  obtain ⟨taken, done, -, -, mapped, all⟩ := mapPages_maps callable valid plain
    (by rwa [List.length_map, List.length_range, whole]) (fun _ => rfl) maps
  obtain ⟨rfl, ends⟩ := all vr.stop rfl
  rw [List.length_map, List.length_range, whole] at ends
  rw [List.take_length] at mapped
  refine ⟨⟨first, last⟩, filled, ends, fun k bound => ?_, fun other same elsewhere apart => ?_⟩
  · have wide := vr.stop.isLt
    have split := Nat.div_add_mod k size.size
    rw [Nat.mul_comm] at split
    have index : k / size.size < (range.stop.toNat - range.start.toNat) / size.size :=
      Nat.div_lt_div_of_lt_of_dvd
        (Nat.dvd_sub (Nat.dvd_of_mod_eq_zero last) (Nat.dvd_of_mod_eq_zero first)) bound
    have number : (vr.start + ofNat 64 k).toNat = vr.start.toNat + k := by
      rw [toNat_add, toNat_ofNat, Nat.mod_eq_of_lt (by omega : k < 2 ^ 64),
        Nat.mod_eq_of_lt (by omega)]
    have value : (range.start + ofNat 64 (k / size.size * size.size)).toNat =
        range.start.toNat + k / size.size * size.size := by
      rw [toNat_add, toNat_ofNat,
        Nat.mod_eq_of_lt (by omega : k / size.size * size.size < 2 ^ 64),
          Nat.mod_eq_of_lt (by omega)]
    have here : block size (vr.start + ofNat 64 k) = block size vr.start + k / size.size := by
      rw [block, block, number]
      cases size <;> simp only [PageSize.size] at multiple ⊢ <;> omega
    refine ⟨range.start + ofNat 64 (k / size.size * size.size), mapped.inside _ (k / size.size) _
      ?_ here, ?_⟩
    · rw [List.getElem?_map, List.getElem?_range index]
      rfl
    · rw [toNat_frame size entry _ ?_ (by omega), value, number, Nat.add_mod, multiple,
        Nat.zero_add,
        Nat.mod_mod]
      · omega
      · rw [value, Nat.add_mod, first, Nat.mul_mod_left]
        rfl
  · refine mapped.outside other elsewhere ?_
    rw [List.length_map, List.length_range]
    have wide := other.isLt
    rw [block, block]
    cases size <;> simp only [PageSize.size] at multiple whole ⊢ <;> omega

end

def beyond : PhysRange := ⟨0x1000000000000, 0x1000000001000⟩

/-- The page of a device is mapped linearly. -/
theorem mapPhysRange_linear_page : ∃ vr after,
    Linear 0 .rwDevice .page4K .user ⟨0x3000, 0x5000⟩ vr Call.firstPage.phys.mem after := by
  have callable : Callable Call.firstPage.phys 0 (Ttbr.root ⟨0, 0⟩ .user) :=
    Call.firstPage_admitted.callable (tree_empty rfl)
  have serves : ((mapPhysRange ⟨0, 0⟩ 0 ⟨0x3000, 0x5000⟩ (.addr 0x7000) .rwDevice .page4K .user
      Call.firstPage.phys).any fun outcome => outcome.1.toBool) = true := by decide +kernel
  obtain ⟨⟨answer, after⟩, returns, good⟩ := (Option.any_eq_true _ _).mp serves
  cases answer with
  | error => cases good
  | ok vr =>
    exact ⟨vr, after.mem, mapPhysRange_linear callable (by decide) (by decide) (by decide)
      (by decide)
      (by decide) (by decide) returns⟩

/-- Above 48 bits the mapping succeeds, and leads to the page whose number is left when the high
bits are lost. -/
theorem mapPhysRange_beyond :
    (mapPhysRange ⟨0, 0⟩ 0 beyond (.addr 0x7000) .rwDevice .page4K .user Call.firstPage.phys).any
      (fun outcome => outcome.1 = .ok ⟨0x7000, 0x8000⟩ ∧
        (walk outcome.2.mem 0 0x7000).map (fun found => (frame found.1 found.2 0x7000).toNat) =
          some 0) = true := by
  decide +kernel

end R9x.Verif.PageTree
