import R9x.Verif.QuickLists

/-!
# Allocating and freeing blocks of a power of two bytes

A layout is steady if its adjusted size and alignment agree.
-/

namespace R9x.Verif.QuickAlloc

open Lib Port.Allocator QuickLists
open Nat (pow_le_pow_right)

/-! ## Layouts -/

/-- The adjusted size and alignment of a layout agree. -/
def Matched (layout : Layout) : Prop := (adjust layout).1 = (adjust layout).2

instance (layout : Layout) : Decidable (Matched layout) := inferInstanceAs (Decidable (_ = _))

/-- Blocks of the layout are freed to a quick list. -/
def Small (layout : Layout) : Prop := Matched layout ∧ (adjust layout).1 ≤ maxQuickSize

instance (layout : Layout) : Decidable (Small layout) := inferInstanceAs (Decidable (_ ∧ _))

lemma nextPowerOfTwo_eq (value : Nat) : ∃ shift, nextPowerOfTwo value = 2 ^ shift ∧
    value ≤ 2 ^ shift := by
  by_cases tiny : value ≤ 1
  · exact ⟨0, if_pos tiny, tiny⟩
  refine ⟨(value - 1).log2 + 1, if_neg tiny, ?_⟩
  have above : value - 1 < 2 ^ ((value - 1).log2 + 1) := Nat.lt_log2_self
  omega

lemma nextPowerOfTwo_le {value : Nat} (small : value ≤ 2 ^ 14) : nextPowerOfTwo value ≤ 2 ^ 14 := by
  by_cases tiny : value ≤ 1
  · rw [nextPowerOfTwo, if_pos tiny]
    decide
  rw [nextPowerOfTwo, if_neg tiny]
  have below : (value - 1).log2 < 14 := (Nat.log2_lt (by omega)).mpr (by omega)
  exact pow_le_pow_right (by decide) below

variable {layout : Layout}

lemma Matched.shift (steady : Matched layout) :
    ∃ shift, adjust layout = (2 ^ shift, 2 ^ shift) ∧ 6 ≤ shift ∧ shift ≤ 62 ∧
      layout.size ≤ 2 ^ shift ∧ layout.align ∣ 2 ^ shift := by
  obtain ⟨power, align⟩ := layout.power
  rw [Matched, adjust] at steady
  rw [adjust]
  split at steady
  · rename_i large
    have fits := layout.fits
    dsimp only at steady
    rw [if_pos large]
    refine ⟨power, ?_, ?_, ?_, ?_, ?_⟩
    · rw [steady, align]
    · by_contra less
      have bound : 2 ^ power ≤ 2 ^ 5 := pow_le_pow_right (by decide) (by omega)
      rw [steady, align, maxQuickSize] at large
      omega
    · by_contra more
      have bound : 2 ^ 63 ≤ 2 ^ power := pow_le_pow_right (by decide) (by omega)
      omega
    · exact Nat.le_of_eq (steady.trans align)
    · exact align ▸ Nat.dvd_refl _
  rename_i large
  obtain ⟨shift, next, above⟩ := nextPowerOfTwo_eq layout.size
  have below : nextPowerOfTwo layout.size ≤ 2 ^ 14 := nextPowerOfTwo_le (Nat.le_of_not_lt large)
  have least : max minAllocSize (nextPowerOfTwo layout.size) = 2 ^ max 6 shift := by
    rw [next]
    rcases Nat.le_total 6 shift with more | less
    · rw [Nat.max_eq_right more]
      exact Nat.max_eq_right (pow_le_pow_right (by decide) more)
    rw [Nat.max_eq_left less]
    exact Nat.max_eq_left (pow_le_pow_right (by decide) less)
  dsimp only at steady
  rw [least] at steady
  rw [if_neg large]
  dsimp only
  rw [least, ← steady]
  have smaller : layout.align ≤ 2 ^ max 6 shift := by omega
  refine ⟨max 6 shift, rfl, Nat.le_max_left _ _, ?_, ?_, ?_⟩
  · rw [next] at below
    have := (Nat.pow_le_pow_iff_right (by decide : 1 < 2)).mp below
    omega
  · exact Nat.le_trans above (pow_le_pow_right (by decide) (Nat.le_max_right _ _))
  · rw [align] at smaller ⊢
    exact Nat.pow_dvd_pow 2 ((Nat.pow_le_pow_iff_right (by decide)).mp smaller)

lemma nextPowerOfTwo_power {shift : Nat} (low : 6 ≤ shift) :
    nextPowerOfTwo (2 ^ shift) = 2 ^ shift := by
  have large : 2 ^ 6 ≤ 2 ^ shift := pow_le_pow_right (by decide) low
  have half : 2 ^ (shift - 1) * 2 = 2 ^ shift := by
    rw [← Nat.pow_succ, Nat.succ_eq_add_one, Nat.sub_add_cancel (by omega)]
  have below : (2 ^ shift - 1).log2 < shift := (Nat.log2_lt (by omega)).mpr (by omega)
  have above : shift - 1 ≤ (2 ^ shift - 1).log2 := (Nat.le_log2 (by omega)).mpr (by omega)
  have exponent : (2 ^ shift - 1).log2 + 1 = shift := by omega
  rw [nextPowerOfTwo, if_neg (by omega), exponent]

lemma adjust_power {shift : Nat} (size : layout.size = 2 ^ shift)
    (align : layout.align = 2 ^ shift) (low : 6 ≤ shift) :
    adjust layout = (2 ^ shift, 2 ^ shift) := by
  have large : 2 ^ 6 ≤ 2 ^ shift := pow_le_pow_right (by decide) low
  rw [adjust, size, align, nextPowerOfTwo_power low]
  split
  · rfl
  change (max (2 ^ 6) (2 ^ shift), max (2 ^ shift) (max (2 ^ 6) (2 ^ shift))) = _
  rw [Nat.max_eq_right large, Nat.max_self]

lemma Small.index (small : Small layout) : ∃ k :
    Fin numQlists, adjust layout = (quickSize k, quickSize k) := by
  obtain ⟨shift, adjusted, low, -⟩ := small.1.shift
  have high : 2 ^ shift ≤ 2 ^ 14 := by
    have bound := small.2
    rw [adjusted] at bound
    exact bound
  have bound := (Nat.pow_le_pow_iff_right (by decide : 1 < 2)).mp high
  refine ⟨⟨shift - 6, show shift - 6 < 9 by omega⟩, ?_⟩
  rw [adjusted, quickSize, allocUnitShift, Nat.sub_add_cancel low]

/-! ## Allocating -/

/-- What an allocation of a number of bytes leaves behind. -/
structure Granted (quick : QuickFit) (own : Nat → Owner) (size : Nat) (result : Option Nat)
    (after : QuickFit) (own' : Nat → Owner) : Prop where
  rep : ∃ lists, Rep after own' lists
  spares : Spares quick own after own'
  inside : ∀ ptr, result = some ptr → after.base ≤ ptr ∧ ptr + size ≤ after.base + after.cursor
  aligned : ∀ ptr, result = some ptr → size ∣ ptr
  lost : ∀ ptr, result = some ptr → Owns own' ptr size .lost

variable {quick : QuickFit} {own : Nat → Owner} {lists : Fin numQlists → List Nat}
  {shift fuel : Nat}

lemma Granted.refused (rep : Rep quick own lists) (size : Nat) :
    Granted quick own size none quick own :=
  ⟨⟨lists, rep⟩, .refl quick own, nofun, nofun, nofun⟩

lemma allocQuick_small (rep : Rep quick own lists) (k : Fin numQlists) (some_fuel : 0 < fuel) :
    ∃ result after own', quick.allocQuick fuel (quickSize k) (quickSize k) = some (result, after) ∧
      Granted quick own (quickSize k) result after own' := by
  obtain ⟨fuel, rfl⟩ : ∃ less, fuel = less + 1 := ⟨fuel - 1, by omega⟩
  cases listed : lists k with
  | nil => exact ⟨none, quick, own, rep.pop_nil listed fuel, .refused rep _⟩
  | cons block =>
    have here : block ∈ lists k := by
      rw [listed]
      exact List.mem_cons_self
    obtain ⟨after, taken, rep', spares, cursor⟩ := rep.pop_cons listed fuel
    refine ⟨some block, after, _, taken, ⟨_, rep'⟩, spares, ?_, ?_, ?_⟩
    · rintro _ ⟨⟩
      rw [spares.arena.1, cursor]
      exact rep.placed.inside k block here
    · rintro _ ⟨⟩
      exact rep.placed.aligned k block here
    · rintro _ ⟨⟩
      exact owns_claim

variable {size : Nat}

lemma allocQuick_large (rep : Rep quick own lists) (large : maxQuickSize < size)
    (some_fuel : 0 < fuel) : quick.allocQuick fuel size size = some (none, quick) := by
  obtain ⟨fuel, rfl⟩ : ∃ less, fuel = less + 1 := ⟨fuel - 1, by omega⟩
  have misc := rep.misc
  rw [QuickFit.allocQuick, if_neg (by omega), QuickFit.allocMisc, unlink, if_pos misc]
  rfl

lemma allocQuick_granted (rep : Rep quick own lists) (low : 6 ≤ shift) (some_fuel : 0 < fuel) :
    ∃ result after own', quick.allocQuick fuel (2 ^ shift) (2 ^ shift) = some (result, after) ∧
      Granted quick own (2 ^ shift) result after own' := by
  by_cases small : 2 ^ shift ≤ maxQuickSize
  · have bound : shift ≤ 14 := (Nat.pow_le_pow_iff_right (by decide : 1 < 2)).mp small
    have size : quickSize (⟨shift - 6, show shift - 6 < 9 by omega⟩ : Fin numQlists) =
      2 ^ shift := by
      rw [quickSize, allocUnitShift, Nat.sub_add_cancel low]
    rw [← size]
    exact allocQuick_small rep _ some_fuel
  · exact ⟨none, quick, own, allocQuick_large rep (by omega) some_fuel, .refused rep _⟩

lemma tryAlloc_power {quick : QuickFit} (isize : quick.len < 2 ^ 63)
    (ends : quick.base + quick.len ≤ 2 ^ 64) (cursor : quick.cursor ≤ quick.len) (high : shift ≤ 62)
    (positive : 0 < size) (small : size ≤ 2 ^ 62) :
    ∃ gap, alignOffset (wrappingAdd quick.base quick.cursor) (2 ^ shift) = some gap ∧
      ((quick.len < quick.cursor + gap + size ∧ quick.tryAlloc (2 ^ shift) size =
        some (none, quick)) ∨
        quick.cursor + gap + size ≤ quick.len ∧ 2 ^ shift ∣ quick.base + quick.cursor + gap ∧
          quick.tryAlloc (2 ^ shift) size =
            some (some (⟨quick.base + quick.cursor, gap⟩, ⟨quick.base + quick.cursor + gap, size⟩),
              { quick with cursor := quick.cursor + (gap + size) })) := by
  have limit : 2 ^ shift ≤ 2 ^ 62 := pow_le_pow_right (by decide) high
  obtain ⟨gap, offset, less, aligned⟩ :=
    alignOffset_spec (wrappingAdd quick.base quick.cursor) ⟨shift, rfl⟩
  have second : checkedAdd quick.cursor gap = some (quick.cursor + gap) := if_pos (by omega)
  have third : checkedAdd (quick.cursor + gap) size = some (quick.cursor + gap + size) :=
    if_pos (by omega)
  have result : quick.tryAlloc (2 ^ shift) size =
    some (if quick.cursor + gap + size ≤ quick.len then
        (some (⟨wrappingAdd quick.base quick.cursor, gap⟩,
          ⟨wrappingAdd (wrappingAdd quick.base quick.cursor) gap, size⟩),
          { quick with cursor := quick.cursor + gap + size }) else (none, quick)) := by
    simp only [QuickFit.tryAlloc, offset, second, third, Option.bind_some, Option.map_some]
  refine ⟨gap, offset, ?_⟩
  by_cases room : quick.cursor + gap + size ≤ quick.len
  · have first : wrappingAdd quick.base quick.cursor = quick.base + quick.cursor :=
      Nat.mod_eq_of_lt (by omega)
    have start : wrappingAdd (quick.base + quick.cursor) gap = quick.base + quick.cursor + gap :=
      Nat.mod_eq_of_lt (by omega)
    rw [if_pos room, first, start, Nat.add_assoc quick.cursor] at result
    rw [first] at aligned
    exact .inr ⟨room, aligned, result⟩
  rw [if_neg room] at result
  exact .inl ⟨Nat.lt_of_not_le room, result⟩

lemma allocTail_granted (rep : Rep quick own lists) (low : 6 ≤ shift) (high : shift ≤ 62)
    (enough : quick.len < 64 * fuel) :
    ∃ result after own', quick.allocTail fuel (2 ^ shift) (2 ^ shift) = some (result, after) ∧
      Granted quick own (2 ^ shift) result after own' := by
  have unit : 64 ∣ 2 ^ shift := Nat.pow_dvd_pow 2 low
  have positive := Nat.two_pow_pos shift
  have arena := rep.arena
  obtain ⟨gap, -, ⟨-, none_left⟩ | ⟨room, aligned, cut⟩⟩ :=
    tryAlloc_power arena.2.1 arena.2.2 rep.cursor high positive
      (pow_le_pow_right (by decide) high : 2 ^ shift ≤ 2 ^ 62)
  · refine ⟨none, quick, own, ?_, .refused rep _⟩
    rw [QuickFit.allocTail, none_left]
  · obtain ⟨rep', spares⟩ := rep.bump (Nat.add_assoc .. ▸ room)
    have lost : Owns (claim own (quick.base + quick.cursor) (gap + 2 ^ shift) .lost)
        (quick.base + quick.cursor) (gap + 2 ^ shift) .lost := owns_claim
    have before : Owns (claim own (quick.base + quick.cursor) (gap + 2 ^ shift) .lost)
        (quick.base + quick.cursor) gap .lost := fun place first last => lost place first (by omega)
    have most : gap < 64 * fuel := by omega
    have cut_high : quick.base + quick.cursor + gap ≤
      quick.base + (quick.cursor + (gap + 2 ^ shift)) := by omega
    have small : quick.base + quick.cursor + gap < 2 ^ 64 := by omega
    obtain ⟨after, own', freed, filed⟩ :=
      rep'.freePrefix (Nat.le_add_right _ _) cut_high small before
      (Nat.dvd_trans unit aligned) most
    refine ⟨some (quick.base + quick.cursor + gap), after, own', ?_, filed.rep,
      spares.trans filed.spares, ?_, ?_, ?_⟩
    · simp only [QuickFit.allocTail, cut, freed, Option.map_some]
    · rintro ptr ⟨⟩
      rw [filed.spares.arena.1, filed.cursor]
      dsimp only
      omega
    · rintro _ ⟨⟩
      exact aligned
    · rintro ptr ⟨⟩ place first last
      rw [filed.outside place (by dsimp only; omega)]
      exact lost place (by omega) (by omega)

lemma malloc_granted (rep : Rep quick own lists) {layout : Layout} (steady : Matched layout)
    (sized : (adjust layout).1 = size) (enough : quick.len < 64 * fuel) :
    ∃ result after own', quick.malloc fuel layout = some (result.getD 0, after) ∧
      Granted quick own size result after own' := by
  obtain ⟨shift, adjusted, low, high, -⟩ := steady.shift
  obtain rfl : 2 ^ shift = size := by
    rw [← sized, adjusted]
  have positive : 0 < fuel := by omega
  obtain ⟨result, middle, own', listed, granted⟩ := allocQuick_granted rep low positive
  cases result with
  | some ptr =>
    refine ⟨some ptr, middle, own', ?_, granted⟩
    simp only [QuickFit.malloc, adjusted, listed, Option.getD_some]
  | none =>
    obtain ⟨_, rep'⟩ := granted.rep
    have spares := granted.spares
    have enough' : middle.len < 64 * fuel := by
      rw [spares.arena.2]
      exact enough
    obtain ⟨result, after, own'', cut, granted'⟩ := allocTail_granted rep' low high enough'
    refine ⟨result, after, own'', ?_, granted'.rep, spares.trans granted'.spares, granted'.inside,
      granted'.aligned, granted'.lost⟩
    simp only [QuickFit.malloc, adjusted, listed, cut, Option.map_some]

end R9x.Verif.QuickAlloc
