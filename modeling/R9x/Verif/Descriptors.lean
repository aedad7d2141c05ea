import R9x.Aarch64.Vm

/-!
# Descriptors and addresses, bit by bit

What the descriptor accessors read after the updates the code makes, and which indices the hardware
takes from an address, in particular from a recursive one.
-/

namespace R9x.Aarch64.Vm

open Lib
open BitVec (ofBool eq_of_getLsbD_eq getLsbD_and toNat ofNat toNat_ofNat le_def testBit_toNat
  getLsbD_extractLsb')
open PhysRange (ofPage)
open PageSize (page4K)
open Nat (mod_eq_of_lt)

/-! ## Descriptors -/

namespace Entry

variable (entry : Entry)
include entry

lemma valid_withPageOrTable (value : Bool) : (entry.withPageOrTable value).valid = entry.valid := by
  rw [valid, valid, withPageOrTable, Bits.getLsbD_setField]
  simp

lemma pageOrTable_withPageOrTable (value : Bool) :
    (entry.withPageOrTable value).pageOrTable = value := by
  rw [pageOrTable, withPageOrTable, Bits.getLsbD_setField]
  simp

lemma addr_withPageOrTable (value : Bool) : (entry.withPageOrTable value).addr = entry.addr :=
  Bits.extract_setField_other entry 1 (ofBool value) 12 36 (by omega)

lemma accessPermission_withPageOrTable (value : Bool) :
    (entry.withPageOrTable value).accessPermission = entry.accessPermission := by
  rw [accessPermission, accessPermission, withPageOrTable,
    Bits.extract_setField_other entry 1 (ofBool value) 6 2 (by omega)]

lemma valid_withPhysAddr (pa : PhysAddr) : (entry.withPhysAddr pa).valid = entry.valid := by
  rw [valid, valid, withPhysAddr, withAddr, Bits.getLsbD_setField]
  simp

lemma pageOrTable_withPhysAddr (pa : PhysAddr) : (entry.withPhysAddr pa).pageOrTable =
    entry.pageOrTable := by
  rw [pageOrTable, pageOrTable, withPhysAddr, withAddr, Bits.getLsbD_setField]
  simp

lemma accessPermission_withPhysAddr (pa : PhysAddr) :
    (entry.withPhysAddr pa).accessPermission = entry.accessPermission := by
  rw [accessPermission, accessPermission, withPhysAddr, withAddr,
    Bits.extract_setField_other entry 12 _ 6 2 (by omega)]

lemma addr_withPhysAddr (page : PageNo) : (entry.withPhysAddr (pageAddr page)).addr = page := by
  rw [addr, withPhysAddr, withAddr, Bits.extract_setField entry 12 _ (by omega)]
  apply eq_of_getLsbD_eq
  intro bit bounded
  have small : 12 + bit < 64 := by omega
  simp [pageAddr, bounded, small]

end Entry

section

variable (page : PageNo)

lemma valid_tableEntry : (tableEntry page).valid = true := by
  rw [tableEntry, Entry.valid_withPageOrTable, Entry.valid_withPhysAddr]
  rfl

lemma pageOrTable_tableEntry : (tableEntry page).pageOrTable = true :=
  Entry.pageOrTable_withPageOrTable _ true

lemma addr_tableEntry : (tableEntry page).addr = page := by
  rw [tableEntry, Entry.addr_withPageOrTable, Entry.addr_withPhysAddr]

lemma accessPermission_tableEntry : (tableEntry page).accessPermission = .privRw := by
  rw [tableEntry, Entry.accessPermission_withPageOrTable, Entry.accessPermission_withPhysAddr]
  rfl

lemma tableOf_tableEntry : tableOf (tableEntry page) = some page := by
  rw [tableOf, valid_tableEntry, pageOrTable_tableEntry, addr_tableEntry]
  rfl

end

lemma tableOf_zero : tableOf 0 = none := rfl

/-! ## Indices -/

def Level.shift : Level → Nat
  | .level0 => 39
  | .level1 => 30
  | .level2 => 21
  | .level3 => 12

lemma getLsbD_low9 : ∀ bit : Fin 64, (0x1ff#64).getLsbD bit = decide (bit.val < 9) := by
  decide

variable {bit : Nat}

lemma getLsbD_vaIndex (va : VirtAddr) (level : Level) (bounded : bit < 9) :
    (vaIndex va level).getLsbD bit = va.getLsbD (level.shift + bit) := by
  have low := getLsbD_low9 ⟨bit, by omega⟩
  cases level <;> simp only [vaIndex, Level.shift, BitVec.getLsbD_setWidth, getLsbD_and,
      BitVec.getLsbD_ushiftRight, low, bounded, decide_true, Bool.true_and, Bool.and_true]

lemma toNat_vaIndex (va : VirtAddr) (level : Level) :
    (vaIndex va level).toNat = va.toNat / 2 ^ level.shift % 512 := by
  have extracted : vaIndex va level = va.extractLsb' level.shift 9 := by
    apply eq_of_getLsbD_eq
    intro _ bounded
    rw [getLsbD_vaIndex va level bounded, getLsbD_extractLsb']
    simp [bounded]
  rw [extracted, BitVec.extractLsb'_toNat, Nat.shiftRight_eq_div_pow]

lemma indices_page {one two : VirtAddr} (same : one.toNat / 4096 = two.toNat / 4096) :
    indices one = indices two := by
  have index : ∀ level, vaIndex one level = vaIndex two level := by
    intro level
    apply BitVec.eq_of_toNat_eq
    rw [toNat_vaIndex, toNat_vaIndex]
    cases level <;> simp only [Level.shift] <;> omega
  simp only [indices, index]

/-! ## Recursive addresses -/

lemma getLsbD_indicesMask : ∀ bit : Fin 64, indicesMask.getLsbD bit = decide
    (12 ≤ bit.val ∧ bit.val < 48) := by
  decide

lemma getLsbD_recursiveIndices (level : Level) : ∀ bit :
    Fin 64, (recursiveIndices level).getLsbD bit =
      decide (48 - recursiveShift level ≤ bit.val ∧ bit.val < 48) := by
  cases level <;> decide

section

variable (pgtype : RootPageTableType)
include pgtype

lemma getLsbD_msbits : ∀ bit : Fin 48, (msbits pgtype).getLsbD bit = false := by
  cases pgtype <;> decide

variable (va : VirtAddr) (level : Level)
include va level

lemma getLsbD_recursiveTableAddr (high : 12 ≤ bit) (bounded : bit < 48) :
    (recursiveTableAddr pgtype va level).getLsbD bit =
      if 48 - recursiveShift level ≤ bit then true else va.getLsbD
        (recursiveShift level + bit) := by
  have slots := getLsbD_recursiveIndices level ⟨bit, by omega⟩
  have mask := getLsbD_indicesMask ⟨bit, by omega⟩
  have half := getLsbD_msbits pgtype ⟨bit, bounded⟩
  simp only [high, bounded, and_self, decide_true, and_true] at mask slots half
  simp only [recursiveTableAddr, BitVec.getLsbD_or, getLsbD_and, BitVec.getLsbD_ushiftRight,
    mask, half, slots, Bool.false_or, Bool.and_true]
  by_cases top : 48 - recursiveShift level ≤ bit
  · simp [top]
  have inner := getLsbD_indicesMask ⟨recursiveShift level + bit, by omega⟩
  have inside : 12 ≤ recursiveShift level + bit ∧ recursiveShift level + bit < 48 := by omega
  simp only [inside, and_self, decide_true] at inner
  simp [top, inner]

lemma getLsbD_recursiveTableAddr_outside (bounded : bit < 64) (outside : bit < 12 ∨ 48 ≤ bit) :
    (recursiveTableAddr pgtype va level).getLsbD bit = (msbits pgtype).getLsbD bit := by
  have slots := getLsbD_recursiveIndices level ⟨bit, bounded⟩
  have mask := getLsbD_indicesMask ⟨bit, bounded⟩
  have shift : 12 ≤ 48 - recursiveShift level := by cases level <;> decide
  have notSlot : ¬ (48 - recursiveShift level ≤ bit ∧ bit < 48) := by omega
  have notIndex : ¬ (12 ≤ bit ∧ bit < 48) := by omega
  simp only [notSlot, decide_false] at slots
  simp only [notIndex, decide_false] at mask
  simp only [recursiveTableAddr, BitVec.getLsbD_or, getLsbD_and, mask, slots, Bool.or_false,
    Bool.and_false]

lemma recursiveTableAddr_aligned : (recursiveTableAddr pgtype va level).toNat % 4096 = 0 := by
  have zero : (recursiveTableAddr pgtype va level).extractLsb' 0 12 = 0 := by
    apply eq_of_getLsbD_eq
    intro bit bounded
    rw [getLsbD_extractLsb', Nat.zero_add,
      getLsbD_recursiveTableAddr_outside pgtype va level (by omega) (Or.inl bounded),
      getLsbD_msbits pgtype ⟨bit, by omega⟩]
    simp
  have number := congrArg toNat zero
  exact number

lemma recursiveTableAddr_half :
    (recursiveTableAddr pgtype va level).toNat / 2 ^ 48 = (msbits pgtype).toNat / 2 ^ 48 := by
  have top : (recursiveTableAddr pgtype va level).extractLsb' 48 16 =
    (msbits pgtype).extractLsb' 48 16 := by
    apply eq_of_getLsbD_eq
    intro bit bounded
    rw [getLsbD_extractLsb', getLsbD_extractLsb',
      getLsbD_recursiveTableAddr_outside pgtype va level (by omega) (Or.inr (by omega))]
  have number := congrArg toNat top
  rw [BitVec.extractLsb'_toNat, BitVec.extractLsb'_toNat, Nat.shiftRight_eq_div_pow,
    Nat.shiftRight_eq_div_pow] at number
  omega

end

lemma Level.shift_range (level : Level) (bounded : bit < 9) :
    12 ≤ level.shift + bit ∧ level.shift + bit < 48 := by
  cases level <;> simp only [Level.shift] <;> omega

variable {level place : Level}

section

variable (pgtype : RootPageTableType) (va : VirtAddr)
include pgtype va

lemma vaIndex_recursive_slot (top : 48 - recursiveShift level ≤ place.shift) :
    vaIndex (recursiveTableAddr pgtype va level) place = recursiveSlot := by
  apply eq_of_getLsbD_eq
  intro bit bounded
  obtain ⟨high, low⟩ := place.shift_range bounded
  rw [getLsbD_vaIndex _ _ bounded, getLsbD_recursiveTableAddr pgtype va level high low,
    if_pos (by omega)]
  have ones := (by decide : ∀ bit : Fin 9, recursiveSlot.getLsbD bit = true) ⟨bit, bounded⟩
  exact ones.symm

lemma vaIndex_recursive_moved (origin : Level) (below : place.shift + 9 ≤ 48 - recursiveShift level)
    (moved : origin.shift = recursiveShift level + place.shift) :
    vaIndex (recursiveTableAddr pgtype va level) place = vaIndex va origin := by
  apply eq_of_getLsbD_eq
  intro bit bounded
  obtain ⟨high, low⟩ := place.shift_range bounded
  rw [getLsbD_vaIndex _ _ bounded, getLsbD_vaIndex _ _ bounded,
    getLsbD_recursiveTableAddr pgtype va level high low, if_neg (by omega), moved, Nat.add_assoc]

lemma indices_recursive_level1 : indices (recursiveTableAddr pgtype va .level1) =
      [recursiveSlot, recursiveSlot, recursiveSlot, vaIndex va .level0] := by
  rw [indices, vaIndex_recursive_slot pgtype va (by decide),
    vaIndex_recursive_slot pgtype va (by decide), vaIndex_recursive_slot pgtype va (by decide),
    vaIndex_recursive_moved pgtype va .level0 (by decide) rfl]

lemma indices_recursive_level2 : indices (recursiveTableAddr pgtype va .level2) =
      [recursiveSlot, recursiveSlot, vaIndex va .level0, vaIndex va .level1] := by
  rw [indices, vaIndex_recursive_slot pgtype va (by decide),
    vaIndex_recursive_slot pgtype va (by decide),
    vaIndex_recursive_moved pgtype va .level0 (by decide) rfl,
    vaIndex_recursive_moved pgtype va .level1 (by decide) rfl]

lemma indices_recursive_level3 : indices (recursiveTableAddr pgtype va .level3) =
      [recursiveSlot, vaIndex va .level0, vaIndex va .level1, vaIndex va .level2] := by
  rw [indices, vaIndex_recursive_slot pgtype va (by decide),
    vaIndex_recursive_moved pgtype va .level0 (by decide) rfl,
    vaIndex_recursive_moved pgtype va .level1 (by decide) rfl,
    vaIndex_recursive_moved pgtype va .level2 (by decide) rfl]

end

/-! ## The range of one page -/

lemma toNat_pageAddr (page : PageNo) : (pageAddr page).toNat = page.toNat * 4096 := by
  rw [pageAddr, BitVec.toNat_shiftLeft, BitVec.toNat_setWidth, Nat.shiftLeft_eq,
    mod_eq_of_lt (by omega), mod_eq_of_lt (by omega)]

variable {shift : Nat}

lemma toNat_roundDown2_pow (value : BitVec 64) (small : shift < 64) :
    (roundDown2 value (ofNat 64 (2 ^ shift))).toNat = value.toNat / 2 ^ shift * 2 ^ shift := by
  have bound : 2 ^ shift < 2 ^ 64 := Nat.pow_lt_pow_right (by omega) small
  have positive : 0 < 2 ^ shift := Nat.two_pow_pos shift
  have ones : (ofNat 64 (2 ^ shift) - 1).toNat = 2 ^ shift - 1 := by
    rw [BitVec.toNat_sub_of_le, toNat_ofNat, mod_eq_of_lt bound]
    · rfl
    · rw [le_def, toNat_ofNat, mod_eq_of_lt bound]
      exact positive
  apply Nat.eq_of_testBit_eq
  intro bit
  rw [Nat.testBit_mul_two_pow, Nat.testBit_div_two_pow, testBit_toNat, testBit_toNat,
    roundDown2, getLsbD_and, BitVec.getLsbD_not, ← testBit_toNat (ofNat 64 _ - 1),
    ones, Nat.testBit_two_pow_sub_one]
  by_cases bounded : bit < 64
  · by_cases above : shift ≤ bit
    · simp [above, bounded]
    · have below : bit < shift := by omega
      simp [above, below]
  have above : shift ≤ bit := by omega
  simp [above, BitVec.getLsbD_of_ge value bit (by omega)]

lemma toNat_roundDown2 (value : BitVec 64) :
    (roundDown2 value 4096#64).toNat = value.toNat / 4096 * 4096 := by
  have general := toNat_roundDown2_pow value (show 12 < 64 by decide)
  exact general

lemma toNat_roundUp2_pow {value rounded : BitVec 64} (small : shift < 64)
    (rounds : roundUp2 value (ofNat 64 (2 ^ shift)) = some rounded) :
    rounded.toNat = (value.toNat + 2 ^ shift - 1) / 2 ^ shift * 2 ^ shift := by
  have bound : 2 ^ shift < 2 ^ 64 := Nat.pow_lt_pow_right (by omega) small
  have positive : 0 < 2 ^ shift := Nat.two_pow_pos shift
  have size : (ofNat 64 (2 ^ shift)).toNat = 2 ^ shift := by
    rw [toNat_ofNat, mod_eq_of_lt bound]
  rw [roundUp2, size] at rounds
  split at rounds
  · rename_i fits
    have sum : (value + ofNat 64 (2 ^ shift)).toNat = value.toNat + 2 ^ shift := by
      rw [BitVec.toNat_add, size, mod_eq_of_lt fits]
    have less : (value + ofNat 64 (2 ^ shift) - 1).toNat = value.toNat + 2 ^ shift - 1 := by
      rw [BitVec.toNat_sub_of_le, sum]
      · rfl
      · rw [le_def, sum]
        change 1 ≤ _
        omega
    have down := toNat_roundDown2_pow (value + ofNat 64 (2 ^ shift) - 1) small
    rw [roundDown2, less] at down
    rw [← Option.some.inj rounds, down]
  · cases rounds

lemma stepByRounded_aligned {range : PhysRange} (small : shift < 64)
    (first : range.start.toNat % 2 ^ shift = 0) (last : range.stop.toNat % 2 ^ shift = 0) :
    range.stepByRounded (2 ^ shift) = if range.stop.toNat + 2 ^ shift < 2 ^ 64 then
      some ((List.range ((range.stop.toNat - range.start.toNat) / 2 ^ shift)).map fun k =>
        range.start + ofNat 64 (k * 2 ^ shift)) else none := by
  have positive : 0 < 2 ^ shift := Nat.two_pow_pos shift
  have size : (ofNat 64 (2 ^ shift)).toNat = 2 ^ shift := by
    rw [toNat_ofNat, mod_eq_of_lt (Nat.pow_lt_pow_right (by omega) small)]
  have down : roundDown2 range.start (ofNat 64 (2 ^ shift)) = range.start := by
    apply BitVec.eq_of_toNat_eq
    rw [toNat_roundDown2_pow range.start small, Nat.div_mul_cancel (Nat.dvd_of_mod_eq_zero first)]
  have exact : ∀ value, value % 2 ^ shift = 0 → (value + 2 ^ shift - 1) / 2 ^ shift =
    value / 2 ^ shift := by
    intro _ aligned
    obtain ⟨count, rfl⟩ := Nat.dvd_of_mod_eq_zero aligned
    rw [Nat.mul_div_cancel_left count positive, Nat.add_sub_assoc positive,
      Nat.mul_add_div positive,
      Nat.div_eq_of_lt (Nat.sub_lt positive Nat.one_pos), Nat.add_zero]
  rw [PhysRange.stepByRounded, down]
  cases rounds : roundUp2 range.stop (ofNat 64 (2 ^ shift)) with
  | none =>
    have large : ¬ range.stop.toNat + 2 ^ shift < 2 ^ 64 := by
      intro fits
      rw [roundUp2, size, if_pos fits] at rounds
      cases rounds
    rw [if_neg large]
    rfl
  | some stop =>
    have fits : range.stop.toNat + 2 ^ shift < 2 ^ 64 := by
      rw [roundUp2, size] at rounds
      split at rounds
      · assumption
      · cases rounds
    have up : stop.toNat = range.stop.toNat := by
      rw [toNat_roundUp2_pow small rounds, exact _ last,
        Nat.div_mul_cancel (Nat.dvd_of_mod_eq_zero last)]
    have whole : (range.stop.toNat - range.start.toNat) % 2 ^ shift = 0 :=
      Nat.mod_eq_zero_of_dvd
        (Nat.dvd_sub (Nat.dvd_of_mod_eq_zero last) (Nat.dvd_of_mod_eq_zero first))
    rw [if_pos fits, Option.map_some, up, exact _ whole]

lemma toNat_ofPage_stop (page : PageNo) : (ofPage page).stop.toNat = page.toNat * 4096 + 4096 := by
  change (pageAddr page + 4096#64).toNat = _
  rw [BitVec.toNat_add, toNat_pageAddr]
  exact mod_eq_of_lt (by simp; omega)

lemma ofPage_aligned (page : PageNo) : ¬ ((ofPage page).start.toNat % page4K.size ≠ 0 ∨
      (ofPage page).stop.toNat % page4K.size ≠ 0) := by
  have first : (ofPage page).start.toNat = page.toNat * 4096 := toNat_pageAddr page
  rw [first, toNat_ofPage_stop, PageSize.size]
  omega

lemma stepByRounded_ofPage (page : PageNo) : (ofPage page).stepByRounded page4K.size = some
    [pageAddr page] := by
  have aligned := not_or.mp (ofPage_aligned page)
  have first : (ofPage page).start.toNat = page.toNat * 4096 := toNat_pageAddr page
  have last := toNat_ofPage_stop page
  have steps := stepByRounded_aligned (show 12 < 64 by decide) (not_not.mp aligned.1)
    (not_not.mp aligned.2)
  have one : (page.toNat * 4096 + 4096 - page.toNat * 4096) / 2 ^ 12 = 1 := by omega
  rw [first, last, if_pos (by omega), one] at steps
  exact steps.trans (by simp [List.range_one, ofPage])

lemma mapPhysRange_ofPage (ttbr : Ttbr) (root page : PageNo) (mapping : VaMapping) (entry : Entry)
    (pgtype : RootPageTableType) (phys : Phys) :
    mapPhysRange ttbr root (.ofPage page) mapping entry .page4K pgtype phys =
      if (mapping.map (pageAddr page)).toNat + 4096 < 2 ^ 64 then
        (mapTo ttbr root (entry.withPhysAddr (pageAddr page)) (mapping.map (pageAddr page)) .page4K
          pgtype phys).map fun outcome => (outcome.1.map fun _ =>
            ⟨mapping.map (pageAddr page), mapping.map (pageAddr page) + 4096#64⟩, outcome.2)
      else none := by
  have size : page4K.size = 4096 := rfl
  simp only [mapPhysRange, if_neg (ofPage_aligned page), stepByRounded_ofPage, mapPages]
  by_cases fits : (mapping.map (pageAddr page)).toNat + 4096 < 2 ^ 64
  · simp only [size, if_pos fits]
    rcases mapTo ttbr root (entry.withPhysAddr (pageAddr page)) (mapping.map (pageAddr page))
      .page4K
      pgtype phys with _ | ⟨_ | _, after⟩
    · rfl
    · rfl
    · rfl
  · simp only [size, if_neg fits]

end R9x.Aarch64.Vm
