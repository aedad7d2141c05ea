import R9x.Verif.FdtCells

/-!
# The nodes of a block and the walk to the root

The nodes that the reader can hand out are those of the forest, and the nodes that it finds above
one are those between it and the root, or none if it is below another first node.
-/

namespace R9x.Verif.FdtWalk

open Lib Core.Fdt FdtTokens FdtForest FdtBlocks
  FdtCells
open Option (bind_eq_bind bind_some)

/-! ## The nodes of a block -/

/-- A node of a forest, its depth, and the nodes that the reader finds above it, the nearest first.
-/
inductive Known (forest : Forest) : Branch → Nat → List Branch → Prop where
  | below {root branch : Branch} {others ancestors : List Branch}
      (tops : forest.tops = root :: others)
      (line : Line root branch ancestors) : Known forest branch ancestors.length ancestors
  | apart {root top branch : Branch} {others ancestors : List Branch}
      (tops : forest.tops = root :: others)
      (member : top ∈ others) (line : Line top branch ancestors) :
      Known forest branch ancestors.length []

def AllNamed (dt : DeviceTree) (forest : Forest) : Prop :=
  ∀ branch depth seen, Known forest branch depth seen → Named dt branch

section

variable {dt : DeviceTree} {structs : List UInt8} {forest : Forest} {torn : List FdtToken}
  {branch child bus : Branch} {seen above : List Branch} {depth : Nat}

lemma Known.site (block : Block dt structs forest torn) (known : Known forest branch depth seen) :
    ∃ tail, Site structs depth branch tail := by
  cases known with
  | below tops line =>
    apply block.site _ line
    rw [tops]
    exact List.mem_cons_self
  | apart tops member line =>
    apply block.site _ line
    rw [tops]
    exact List.mem_cons_of_mem _ member

lemma Known.parent (block : Block dt structs forest torn) (known : Known forest branch depth seen) :
    dt.parent (branch.node depth) = some (seen.head?.map (Branch.node (depth - 1))) := by
  cases known with
  | @below _ _ _ _ tops line =>
    cases line with
    | top =>
      apply block.parent_top
      rw [tops]
      exact List.mem_cons_self
    | child line member => exact block.parent_child tops (line.child member)
  | apart tops member line => exact block.parent_other tops member line

lemma Known.nearest (known : Known forest branch depth (bus :: above)) :
    Known forest bus (depth - 1) above := by
  cases known with
  | below tops line =>
    cases line with
    | child line => exact .below tops line

lemma Known.inner (known : Known forest branch depth seen) (member : child ∈ branch.body.tops) :
    ∃ seen', Known forest child (depth + 1) seen' := by
  cases known with
  | below tops line => exact ⟨_, .below tops (line.child member)⟩
  | apart tops among line => exact ⟨_, .apart tops among (line.child member)⟩

lemma known_iff {node : Node} :
    node ∈ forest.preorder 0 ↔ ∃ branch depth seen, Known forest branch depth seen ∧
      node = branch.node depth := by
  rw [mem_preorder]
  constructor
  · rintro ⟨_, member, _, branch, descends, rfl⟩
    obtain ⟨_, line, length⟩ := exists_line descends Line.top
    rw [List.length_nil] at length
    rw [← length]
    cases tops : forest.tops with
    | nil =>
      rw [tops] at member
      cases member
    | cons =>
      rw [tops] at member
      rcases List.mem_cons.mp member with rfl | among
      · exact ⟨branch, _, _, .below tops line, rfl⟩
      · exact ⟨branch, _, _, .apart tops among line, rfl⟩
  · rintro ⟨branch, _, seen, known, rfl⟩
    cases known with
    | @below root _ _ _ tops line =>
      refine ⟨root, ?_, seen.length, branch, line.descends, ?_⟩
      · rw [tops]
        exact List.mem_cons_self
      · rw [Nat.zero_add]
    | @apart _ top _ _ ancestors tops member line =>
      refine ⟨top, ?_, ancestors.length, branch, line.descends, ?_⟩
      · rw [tops]
        exact List.mem_cons_of_mem _ member
      · rw [Nat.zero_add]

end

/-! ## Register blocks and ranges -/

section

variable {dt : DeviceTree} {structs : List UInt8} {forest : Forest} {torn : List FdtToken}
  {branch : Branch}
  {seen : List Branch} {depth : Nat}

section

variable (block : Block dt structs forest torn) (named : AllNamed dt forest)
  (known : Known forest branch depth seen)
include block named known

lemma Known.cells : dt.nodeAddressSizeCells (seen.head?.map (Branch.node (depth - 1))) =
      some (cells dt structs seen.head? "#address-cells" 2,
        cells dt structs seen.head? "#size-cells" 1) := by
  apply nodeAddressSizeCells_eq block.opened
  intro bus nearest
  obtain ⟨_, rfl⟩ := List.head?_eq_some_iff.mp nearest
  exact ⟨named bus _ _ known.nearest, known.nearest.site block⟩

lemma Known.regs : ∃ iter, dt.propertyRegIter (branch.node depth) = some iter ∧
      Yields (RegIter.next dt) iter (regs dt structs seen.head? branch) := by
  obtain ⟨_, site⟩ := known.site block
  have order := bounds_near dt block.opened.small site "reg"
  refine ⟨_, ?_, reg_yields block.opened order.1 order.2 (Nat.sub_le _ _)⟩
  rw [DeviceTree.propertyRegIter, known.parent block]
  simp only [bind_eq_bind, bind_some]
  rw [known.cells block named, valueBounds_eq block.opened site (named _ _ _ known)]
  rfl

lemma Known.ranges : ∃ iter, dt.propertyRangeIter (branch.node depth) = some iter ∧
      Yields (RangeIter.next dt) iter (ranges dt structs seen.head? branch) := by
  obtain ⟨tail, site⟩ := known.site block
  have order := bounds_near dt block.opened.small site "ranges"
  have own := nodeAddressSizeCells_eq block.opened depth (some branch) fun other same =>
    Option.some.inj same ▸ ⟨named _ _ _ known, tail, site⟩
  refine ⟨⟨FdtCells.cells dt structs seen.head? "#address-cells" 2,
    FdtCells.cells dt structs (some branch) "#address-cells" 2,
    FdtCells.cells dt structs (some branch) "#size-cells" 1,
    decide ((bounds dt branch "ranges").1 = (bounds dt branch "ranges").2), false,
    (bounds dt branch "ranges").1, (bounds dt branch "ranges").2⟩, ?_, ?_⟩
  · rw [DeviceTree.propertyRangeIter, known.parent block]
    simp only [bind_eq_bind, bind_some]
    rw [known.cells block named]
    simp only [bind_some]
    rw [← Option.map_some, own, valueBounds_eq block.opened site (named _ _ _ known)]
    rfl
  · rw [FdtCells.ranges]
    by_cases empty : (bounds dt branch "ranges").1 = (bounds dt branch "ranges").2
    · rw [if_pos empty, decide_eq_true empty]
      exact .item rfl (.done rfl)
    rw [if_neg empty, decide_eq_false empty]
    exact rangesFrom_yields block.opened order.1 order.2 (Nat.sub_le _ _)

end

lemma ranges_length_lt (block : Block dt structs forest torn)
    (known : Known forest branch depth seen) :
    (ranges dt structs seen.head? branch).length < dt.rounds := by
  have length := structs_length block.opened.block
  obtain ⟨tail, site⟩ := known.site block
  have inside := site.reads.1
  rw [FdtCells.ranges, DeviceTree.rounds]
  split
  · rw [List.length_singleton]
    omega
  apply Nat.lt_succ_of_le
  rw [← length]
  exact Nat.le_trans rangesFrom_length_le (Nat.sub_le _ _)

end

/-! ## Translation -/

/-- No range that is tried on a register block overflows 64 bits. -/
def Sums (reg : RegBlock) : List Range → Prop
  | [] => True
  | .identity :: _ => True
  | .translated map :: rest =>
    if map.childBusAddr ≤ reg.addr then
      map.childBusAddr + map.len < 2 ^ 64 ∧ if reg.addr < map.childBusAddr + map.len then
          reg.addr - map.childBusAddr + map.parentBusAddr < 2 ^ 64
        else Sums reg rest
    else Sums reg rest

/-- The register block as the bus above sees it, by the first range that holds it. -/
def moved (reg : RegBlock) : List Range → Option RegBlock
  | [] => none
  | .identity :: _ => some reg
  | .translated map :: rest =>
    if map.childBusAddr ≤ reg.addr ∧ reg.addr < map.childBusAddr + map.len then
      some ⟨reg.addr - map.childBusAddr + map.parentBusAddr, reg.len⟩
    else moved reg rest

/-- The range holds the start of the register block. -/
def starts (reg : RegBlock) : Range → Bool
  | .identity => true
  | .translated map => decide (map.childBusAddr ≤ reg.addr ∧ reg.addr < map.childBusAddr + map.len)

/-- The register block as the bus above sees it, by a range. -/
def applied (reg : RegBlock) : Range → RegBlock
  | .identity => reg
  | .translated map => ⟨reg.addr - map.childBusAddr + map.parentBusAddr, reg.len⟩

/-- A register block carried through the ranges of some buses, by the first at each that holds it.
-/
def through (holds : RegBlock → Range → Bool) : RegBlock → List (List Range) → TranslatedReg
  | reg, [] => .translated reg
  | reg, list :: outer =>
    (list.find? (holds reg)).elim .unreachable fun range => through holds (applied reg range) outer

def busRanges (dt : DeviceTree) (structs : List UInt8) : List Branch → List (List Range)
  | bus :: above :: rest => ranges dt structs (some above) bus :: busRanges dt structs
      (above :: rest)
  | _ => []

/-- No range that is tried on the way of a register block through the buses above overflows 64 bits.
The root, which is the last of them, has no ranges to try. -/
def Carried (dt : DeviceTree) (structs : List UInt8) : RegBlock → List Branch → Prop
  | _, [] => True
  | _, [_] => True
  | reg, bus :: above :: rest =>
    Sums reg (ranges dt structs (some above) bus) ∧
      ∀ outer, moved reg (ranges dt structs (some above) bus) = some outer →
        Carried dt structs outer (above :: rest)

section

variable {dt : DeviceTree} {structs : List UInt8} {forest : Forest} {torn : List FdtToken}
  {root branch bus : Branch} {others above seen : List Branch} {reg : RegBlock} {fuel depth : Nat}
  {list : List Range}

lemma moved_eq (list : List Range) : moved reg list = (list.find? (starts reg)).map
    (applied reg) := by
  induction list with
  | nil => rfl
  | cons range _ ih =>
    cases range with
    | identity => rfl
    | translated map =>
      rw [moved, List.find?_cons, starts]
      by_cases holds : map.childBusAddr ≤ reg.addr ∧ reg.addr < map.childBusAddr + map.len
      · rw [if_pos holds, decide_eq_true holds]
        rfl
      rw [if_neg holds, decide_eq_false holds]
      exact ih

lemma first_sums (sums : Sums reg list) :
    firstList (fun range => range.translate reg) list = some (moved reg list) := by
  induction list with
  | nil => rfl
  | cons range _ ih =>
    cases range with
    | identity => rfl
    | translated map =>
      rw [Sums] at sums
      rw [firstList, Range.translate, moved]
      by_cases starts : map.childBusAddr ≤ reg.addr
      · rw [if_pos starts] at sums ⊢
        rw [checkedAdd_of_lt sums.1]
        simp only [bind_eq_bind, bind_some]
        by_cases holds : reg.addr < map.childBusAddr + map.len
        · rw [if_pos holds] at sums
          rw [if_pos holds, if_pos ⟨starts, holds⟩, checkedAdd_of_lt sums.2]
          rfl
        rw [if_neg holds] at sums
        rw [if_neg holds, if_neg (fun both => holds both.2)]
        exact ih sums.2
      rw [if_neg starts] at sums
      rw [if_neg starts, if_neg (fun both => starts both.1)]
      exact ih sums

lemma first_panics (overflows : ¬ Sums reg list) :
    firstList (fun range => range.translate reg) list = none := by
  induction list with
  | nil => exact absurd trivial overflows
  | cons range rest ih =>
    cases range with
    | identity => exact absurd trivial overflows
    | translated map =>
      rw [Sums] at overflows
      rw [firstList, Range.translate]
      by_cases starts : map.childBusAddr ≤ reg.addr
      · rw [if_pos starts] at overflows ⊢
        by_cases small : map.childBusAddr + map.len < 2 ^ 64
        · rw [checkedAdd_of_lt small]
          simp only [bind_eq_bind, bind_some]
          by_cases holds : reg.addr < map.childBusAddr + map.len
          · rw [if_pos holds] at overflows
            have large : ¬ reg.addr - map.childBusAddr + map.parentBusAddr < 2 ^ 64 :=
              fun bound => overflows ⟨small, bound⟩
            rw [if_pos holds, checkedAdd, if_neg large]
            rfl
          rw [if_neg holds] at overflows
          rw [if_neg holds]
          exact ih fun sums => overflows ⟨small, sums⟩
        rw [checkedAdd, if_neg small]
        rfl
      rw [if_neg starts] at overflows
      rw [if_neg starts]
      exact ih overflows

lemma translateUp_bus (reg : RegBlock) (fuel : Nat) (block : Block dt structs forest torn)
    (named : AllNamed dt forest) (known : Known forest bus (depth + 1) seen) :
    dt.translateUp (fuel + 1) reg (some (bus.node (depth + 1))) =
      (firstList (fun range => range.translate reg) (ranges dt structs seen.head? bus)).bind fun
        | none => some (some .unreachable)
        | some outer => dt.translateUp fuel outer (seen.head?.map (Branch.node depth)) := by
  obtain ⟨_, listed, yields⟩ := known.ranges block named
  have deeper : (bus.node (depth + 1)).isRoot = false := rfl
  rw [DeviceTree.translateUp, deeper, if_neg Bool.false_ne_true, listed]
  simp only [bind_eq_bind, bind_some]
  rw [yields.first _ (ranges_length_lt block known), known.parent block]
  rfl

variable (block : Block dt structs forest torn) (named : AllNamed dt forest)
    (tops : forest.tops = root :: others) (line : Line root bus above)
include block named tops line

lemma translateUp_carried (enough : above.length < fuel)
    (carried : Carried dt structs reg (bus :: above)) :
    dt.translateUp fuel reg (some (bus.node above.length)) =
      some (some (through starts reg (busRanges dt structs (bus :: above)))) := by
  induction line generalizing reg fuel with
  | top =>
    obtain ⟨_, rfl⟩ := Nat.exists_eq_succ_of_ne_zero (Nat.ne_of_gt enough)
    rfl
  | @child parent branch _ line member ih =>
    obtain ⟨fuel, rfl⟩ := Nat.exists_eq_succ_of_ne_zero (Nat.ne_of_gt (Nat.zero_lt_of_lt enough))
    have step := translateUp_bus reg fuel block named (.below tops (line.child member))
    rw [List.head?_cons, first_sums carried.1] at step
    have later := carried.2
    rw [moved_eq] at step later
    rw [busRanges, through]
    cases found : (FdtCells.ranges dt structs (some parent) branch).find? (starts reg) with
    | none =>
      rw [found] at step
      exact step
    | some =>
      rw [found] at step later
      exact step.trans (ih (Nat.lt_of_succ_lt_succ enough) (later _ rfl))

lemma translateUp_panics (overflows : ¬ Carried dt structs reg (bus :: above)) :
    dt.translateUp fuel reg (some (bus.node above.length)) = none := by
  induction line generalizing reg fuel with
  | top => exact absurd trivial overflows
  | @child parent branch ancestors line member ih =>
    cases fuel with
    | zero => rfl
    | succ fuel =>
      have step := translateUp_bus reg fuel block named (.below tops (line.child member))
      rw [List.head?_cons] at step
      apply step.trans
      by_cases sums : Sums reg (FdtCells.ranges dt structs (some parent) branch)
      · rw [first_sums sums]
        cases outcome : moved reg (FdtCells.ranges dt structs (some parent) branch) with
        | none =>
          have carried : Carried dt structs reg (branch :: parent :: ancestors) :=
            ⟨sums, fun outer found => nomatch outcome.symm.trans found⟩
          exact absurd carried overflows
        | some =>
          apply ih
          intro carried
          apply overflows
          refine ⟨sums, ?_⟩
          intro _ found
          cases outcome.symm.trans found
          exact carried
      rw [first_panics sums]
      rfl

end

/-! ## Translated register blocks -/

variable {dt : DeviceTree} {structs : List UInt8} {forest : Forest} {torn : List FdtToken}
  {branch : Branch}
  {seen : List Branch} {reg : RegBlock} {depth : Nat} {iter : RegIter} {list : List RegBlock}

lemma take_yields (yields : Yields (RegIter.next dt) iter list) :
    ∃ rest, iter.take dt = some (list.head?, rest) ∧ Yields (RegIter.next dt) rest list.tail := by
  cases yields with
  | done ended =>
    refine ⟨iter, ?_, .done ended⟩
    rw [RegIter.take, ended]
    rfl
  | @item _ rest _ _ given more =>
    refine ⟨rest, ?_, more⟩
    rw [RegIter.take, given]
    rfl

lemma translatedNext_eq (reg : RegBlock) (block : Block dt structs forest torn)
    (known : Known forest branch depth seen) (yields : Yields (RegIter.next dt) iter list) :
    ∃ rest, Yields (RegIter.next dt) rest list.tail ∧
      TranslatedIter.next dt ⟨branch.node depth, iter, some reg⟩ =
        (dt.translateUp dt.rounds reg (seen.head?.map (Branch.node (depth - 1)))).bind fun
          | none => some none
          | some translated => some (some (translated, ⟨branch.node depth, rest, list.head?⟩)) := by
  obtain ⟨rest, taken, more⟩ := take_yields yields
  refine ⟨rest, more, ?_⟩
  rw [TranslatedIter.next]
  simp only [taken, bind_eq_bind, bind_some, known.parent block]
  rfl

lemma walk_spec (reg : RegBlock) (block : Block dt structs forest torn) (named : AllNamed dt forest)
    (known : Known forest branch depth seen) :
    (Carried dt structs reg seen →
      dt.translateUp dt.rounds reg (seen.head?.map (Branch.node (depth - 1))) =
      some (seen.head?.map fun _ => through starts reg (busRanges dt structs seen))) ∧
    (¬ Carried dt structs reg seen →
      dt.translateUp dt.rounds reg (seen.head?.map (Branch.node (depth - 1))) = none) := by
  cases known with
  | apart => exact ⟨fun _ => rfl, fun overflows => absurd trivial overflows⟩
  | below tops line =>
    cases line with
    | top => exact ⟨fun _ => rfl, fun overflows => absurd trivial overflows⟩
    | @child parent _ ancestors line =>
      constructor
      · intro carried
        have whole : Known forest parent ancestors.length ancestors := .below tops line
        obtain ⟨tail, site⟩ := whole.site block
        have deep := site.deep
        have inside := site.reads.1
        have length := structs_length block.opened.block
        have enough : ancestors.length < dt.rounds := by
          rw [DeviceTree.rounds]
          omega
        exact translateUp_carried block named tops line enough carried
      · exact translateUp_panics block named tops line

variable (block : Block dt structs forest torn) (named : AllNamed dt forest)
  (known : Known forest branch depth seen)
include block named known

lemma translated_items (below : seen ≠ []) (yields : Yields (RegIter.next dt) iter list)
    (carried : ∀ each ∈ reg :: list, Carried dt structs each seen) :
    Yields (TranslatedIter.next dt) ⟨branch.node depth, iter, some reg⟩
      ((reg :: list).map fun reg => through starts reg (busRanges dt structs seen)) := by
  induction list generalizing reg iter with
  | nil =>
    obtain ⟨_, -, step⟩ := translatedNext_eq reg block known yields
    rw [(walk_spec reg block named known).1 (carried _ List.mem_cons_self)] at step
    obtain ⟨_, _, rfl⟩ := List.exists_cons_of_ne_nil below
    exact .item step (.done rfl)
  | cons _ _ ih =>
    obtain ⟨_, more, step⟩ := translatedNext_eq reg block known yields
    rw [(walk_spec reg block named known).1 (carried _ List.mem_cons_self)] at step
    have later := ih more fun each member => carried each (List.mem_cons_of_mem _ member)
    obtain ⟨_, _, rfl⟩ := List.exists_cons_of_ne_nil below
    exact .item step later

lemma translated_ends (yields : Yields (RegIter.next dt) iter list) :
    (∃ items, Yields (TranslatedIter.next dt) ⟨branch.node depth, iter, some reg⟩ items) ↔
      ∀ each ∈ reg :: list, Carried dt structs each seen := by
  by_cases top : seen = []
  · subst top
    obtain ⟨rest, -, step⟩ := translatedNext_eq reg block known yields
    exact ⟨fun _ _ _ => trivial, fun _ => ⟨[], .done step⟩⟩
  refine ⟨?_, fun all => ⟨_, translated_items block named known top yields all⟩⟩
  rintro ⟨items, ends⟩
  have first : ∀ {reg iter list items}, Yields (RegIter.next dt) iter list →
      Yields (TranslatedIter.next dt) ⟨branch.node depth, iter, some reg⟩ items →
        Carried dt structs reg seen := by
    intro reg _ _ _ yields ends
    obtain ⟨_, -, step⟩ := translatedNext_eq reg block known yields
    by_contra overflows
    rw [(walk_spec reg block named known).2 overflows] at step
    cases ends with
    | done ended => cases step.symm.trans ended
    | item given => cases step.symm.trans given
  induction list generalizing reg iter items with
  | nil => exact List.forall_mem_singleton.mpr (first yields ends)
  | cons _ _ ih =>
    refine List.forall_mem_cons.mpr ⟨first yields ends, ?_⟩
    obtain ⟨_, more, step⟩ := translatedNext_eq reg block known yields
    rw [(walk_spec reg block named known).1 (first yields ends)] at step
    obtain ⟨_, _, rfl⟩ := List.exists_cons_of_ne_nil top
    cases ends with
    | done ended => cases step.symm.trans ended
    | item given later =>
      cases step.symm.trans given
      exact ih more _ later

lemma Known.translatedIter : ∃ rest, dt.propertyTranslatedRegIter (branch.node depth) =
        some ⟨branch.node depth, rest, (FdtCells.regs dt structs seen.head? branch).head?⟩ ∧
      Yields (RegIter.next dt) rest (FdtCells.regs dt structs seen.head? branch).tail := by
  obtain ⟨_, listed, yields⟩ := known.regs block named
  obtain ⟨rest, taken, more⟩ := take_yields yields
  refine ⟨rest, ?_, more⟩
  rw [DeviceTree.propertyTranslatedRegIter, listed]
  simp only [bind_eq_bind, bind_some, taken]
  rfl

lemma Known.translated :
    (∃ iter items, dt.propertyTranslatedRegIter (branch.node depth) = some iter ∧
      Yields (TranslatedIter.next dt) iter items) ↔
      ∀ reg ∈ FdtCells.regs dt structs seen.head? branch, Carried dt structs reg seen := by
  obtain ⟨_, created, more⟩ := known.translatedIter block named
  rw [created]
  cases blocks : FdtCells.regs dt structs seen.head? branch with
  | nil => exact ⟨fun _ => nofun, fun _ => ⟨_, [], rfl, .done rfl⟩⟩
  | cons =>
    rw [blocks, List.tail_cons] at more
    rw [← translated_ends block named known more]
    constructor
    · rintro ⟨_, items, same, ends⟩
      cases same
      exact ⟨items, ends⟩
    · rintro ⟨items, ends⟩
      exact ⟨_, items, rfl, ends⟩

/-- The register blocks of the root yield no item. -/
lemma Known.root_yields (top : seen = []) : ∃ iter,
    dt.propertyTranslatedRegIter (branch.node depth) = some iter ∧
      Yields (TranslatedIter.next dt) iter [] := by
  obtain ⟨_, created, more⟩ := known.translatedIter block named
  refine ⟨_, created, ?_⟩
  cases blocks : FdtCells.regs dt structs seen.head? branch with
  | nil => exact .done rfl
  | cons reg =>
    rw [blocks, List.tail_cons] at more
    obtain ⟨_, -, step⟩ := translatedNext_eq reg block known more
    subst top
    exact .done step

lemma Known.carries (below : FdtCells.regs dt structs seen.head? branch ≠ [] → seen ≠ [])
    (carried : ∀ reg ∈ FdtCells.regs dt structs seen.head? branch, Carried dt structs reg seen) :
    ∃ iter, dt.propertyTranslatedRegIter (branch.node depth) = some iter ∧
      Yields (TranslatedIter.next dt) iter ((FdtCells.regs dt structs seen.head? branch).map
        fun reg =>
        through starts reg (busRanges dt structs seen)) := by
  obtain ⟨_, created, more⟩ := known.translatedIter block named
  refine ⟨_, created, ?_⟩
  cases blocks : FdtCells.regs dt structs seen.head? branch with
  | nil => exact .done rfl
  | cons =>
    rw [blocks, List.tail_cons] at more
    rw [blocks] at below carried
    exact translated_items block named known (below (List.cons_ne_nil _ _)) more carried

end R9x.Verif.FdtWalk
