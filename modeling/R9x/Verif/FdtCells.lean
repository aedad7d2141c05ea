import R9x.Core.FdtRegs
import R9x.Verif.FdtBlocks

/-!
# Properties, cells, registers and ranges of a node

What the properties of a node of the forest say, read from the bytes of the structure block without
any bound on the arithmetic.
-/

namespace R9x.Verif.FdtCells

open Lib Core.Fdt FdtTokens FdtForest FdtNodes
open Option (bind_eq_bind bind_some map_some)
open Property (ofToken)

variable {dt : DeviceTree} {structs : List UInt8}

/-! ## Properties -/

def Named (dt : DeviceTree) (branch : Branch) : Prop := branch.body.props ≠ [] → dt.strings.isSome

/-- The first property of a node that has the name. -/
def lookup (dt : DeviceTree) (branch : Branch) (propName : String) : Option FdtPropContext :=
  branch.body.props.find? fun ctx =>
    decide ((dt.strings.bind fun strings => inlineStr strings ctx.nameStart) = some propName)

/-- Where the value of a property starts and stops, both 0 if there is none. -/
def bounds (dt : DeviceTree) (branch : Branch) (propName : String) : Nat × Nat :=
  (lookup dt branch propName).elim (0, 0) fun ctx => (ctx.valueStart, ctx.valueStart + ctx.valueLen)

/-- The first cell of a property of a node, or a default. -/
def cells (dt : DeviceTree) (structs : List UInt8) (node : Option Branch) (propName : String)
    (default : Nat) :
    Nat :=
  (node.bind (lookup dt · propName)).elim default fun ctx =>
    ((getRange structs ctx.valueStart (ctx.valueStart + ctx.valueLen)).bind bytesToU32).getD default

section

variable {i depth : Nat} {forest : Forest} {branch : Branch} {tail : List FdtToken}
  {ctx : FdtPropContext}
  {propName : String}

lemma prop_near (small : structs.length < 2 ^ 32)
    (parsed : parseToken structs i = some (some (.prop ctx))) :
    ctx.valueStart < 2 ^ 33 ∧ ctx.valueLen < 2 ^ 32 := by
  have inside := (parsed_of_parseToken small parsed).inside
  cases tag : (getFrom structs i).bind bytesToU32 with
  | none =>
    rw [parseToken, tag] at parsed
    cases parsed
  | some word =>
    by_cases property : word = 3
    · subst property
      rw [parseToken_prop small tag] at parsed
      cases parsed
      have short := wordAt_getD_lt structs (i + 4)
      exact ⟨show i + 12 < 2 ^ 33 by omega, short⟩
    by_cases begins : word = 1
    · subst begins
      rw [parseToken_begin small tag] at parsed
      cases parsed
    rcases parseToken_tag tag begins property with other | other | other | other <;>
      cases other.symm.trans parsed

lemma props_parsed (reads : Reads structs i (forest.tokens ++ tail)) (member : ctx ∈ forest.props) :
    ∃ j < structs.length, parseToken structs j = some (some (.prop ctx)) := by
  induction forest generalizing i with
  | nil | node => cases member
  | leaf mark _ ih =>
    cases mark with
    | prop =>
      rcases List.mem_cons.mp member with rfl | later
      · exact ⟨i, reads.1, reads.2.1⟩
      · exact ih reads.2.2 later
    | nop => exact ih reads.2.2 member
    | fdtEnd => cases member

lemma property_lookup (opened : Opened dt structs) (site : Site structs depth branch tail)
    (named : Named dt branch) (propName : String) :
    dt.property (branch.node depth) propName = some ((lookup dt branch propName).map ofToken) := by
  obtain ⟨iter, listed, yields⟩ := properties_yields opened site
  have fewer := opened.enough site.body
  have count := props_length_le branch.body
  rw [List.length_append] at fewer
  rw [DeviceTree.property, listed]
  have tested : ∀ prop ∈ branch.body.props.map ofToken,
      ((dt.propertyName prop).map fun name => decide (name = some propName)) =
        some (decide ((dt.strings.bind fun strings => inlineStr strings prop.nameStart) =
          some propName)) := by
    intro _ member
    obtain ⟨_, among, rfl⟩ := List.mem_map.mp member
    obtain ⟨_, block⟩ := Option.isSome_iff_exists.mp (named (List.ne_nil_of_mem among))
    rw [DeviceTree.propertyName, block]
    rfl
  have enough : (branch.body.props.map ofToken).length < dt.rounds := by
    rw [List.length_map]
    omega
  apply (yields.find tested enough).trans
  rw [List.find?_map]
  rfl

lemma property_panic (opened : Opened dt structs) (site : Site structs depth branch tail)
    (some_property : branch.body.props ≠ []) (outside : dt.strings = none) (propName : String) :
    dt.property (branch.node depth) propName = none := by
  obtain ⟨_, listed, yields⟩ := properties_yields opened site
  obtain ⟨_, _, props⟩ := List.exists_cons_of_ne_nil some_property
  rw [props, List.map_cons] at yields
  cases yields with
  | item given =>
    rw [DeviceTree.property, listed]
    simp only [bind_eq_bind, bind_some, DeviceTree.rounds, findNext, given, DeviceTree.propertyName,
      outside, Option.bind_none, Option.map_none]

lemma lookup_near (small : structs.length < 2 ^ 32) (site : Site structs depth branch tail)
    (found : lookup dt branch propName = some ctx) : ctx.valueStart + ctx.valueLen < 2 ^ 34 := by
  obtain ⟨j, -, parsed⟩ := props_parsed site.body (List.mem_of_find?_eq_some found)
  have near := prop_near small parsed
  omega

lemma valueBounds_eq (opened : Opened dt structs) (site : Site structs depth branch tail)
    (named : Named dt branch) (propName : String) :
    dt.valueBounds (branch.node depth) propName = some (bounds dt branch propName) := by
  rw [DeviceTree.valueBounds, property_lookup opened site named, bounds]
  simp only [bind_eq_bind, bind_some]
  cases found : lookup dt branch propName with
  | none => rfl
  | some =>
    have near := lookup_near opened.small site found
    simp only [map_some, Option.elim_some, ofToken]
    rw [checkedAdd_of_lt (by omega)]
    rfl

lemma bounds_near (dt : DeviceTree) (small : structs.length < 2 ^ 32)
    (site : Site structs depth branch tail) (propName : String) :
    (bounds dt branch propName).1 ≤ (bounds dt branch propName).2 ∧ (bounds dt branch propName).2 <
    2 ^ 34 := by
  rw [bounds]
  cases found : lookup dt branch propName with
  | none => exact ⟨Nat.le_refl 0, Nat.two_pow_pos 34⟩
  | some => exact ⟨Nat.le_add_right _ _, lookup_near small site found⟩

lemma propertyValueAsU32_eq (opened : Opened dt structs) (site : Site structs depth branch tail)
    (found : lookup dt branch propName = some ctx) :
    dt.propertyValueAsU32 (ofToken ctx) =
      some ((getRange structs ctx.valueStart (ctx.valueStart + ctx.valueLen)).bind bytesToU32) := by
  have near := lookup_near opened.small site found
  rw [DeviceTree.propertyValueAsU32, ofToken]
  simp only [bind_eq_bind]
  rw [checkedAdd_of_lt (by omega), opened.block]
  rfl

lemma nodeCells_eq (opened : Opened dt structs) (site : Site structs depth branch tail)
    (named : Named dt branch) (propName : String) (default : Nat) :
    dt.nodeCells (some (branch.node depth)) propName default =
      some (cells dt structs (some branch) propName default) := by
  rw [DeviceTree.nodeCells, property_lookup opened site named, cells]
  simp only [bind_eq_bind, bind_some]
  cases found : lookup dt branch propName with
  | none => rfl
  | some =>
    simp only [map_some, propertyValueAsU32_eq opened site found]
    rfl

lemma nodeAddressSizeCells_eq (opened : Opened dt structs) (depth : Nat) (node : Option Branch)
    (placed : ∀ branch, node = some branch → Named dt branch ∧
      ∃ tail, Site structs depth branch tail) :
    dt.nodeAddressSizeCells (node.map (Branch.node depth)) =
      some (cells dt structs node "#address-cells" 2, cells dt structs node "#size-cells" 1) := by
  cases node with
  | none => rfl
  | some branch =>
    obtain ⟨named, _, site⟩ := placed branch rfl
    rw [map_some, DeviceTree.nodeAddressSizeCells, nodeCells_eq opened site named,
      nodeCells_eq opened site named]
    rfl

end

/-! ## Cells -/

/-- The number in some cells. -/
def cellsAt (structs : List UInt8) (i numCells : Nat) : Option Nat :=
  (getRange structs i (i + numCells * 4)).bind (if numCells = 1 then bytesToU32 else bytesToU64)

section

variable {i stop numCells : Nat}

lemma consumeCells_eq (opened : Opened dt structs) (few : numCells ≤ 2) (near : i < 2 ^ 35) :
    dt.consumeCells i numCells = some (cellsAt structs i numCells) := by
  rw [DeviceTree.consumeCells, checkedMul_of_lt (by omega)]
  simp only [bind_eq_bind, bind_some]
  rw [checkedAdd_of_lt (by omega), opened.block]
  rfl

lemma cellsAt_inside {cell : Nat} (read : cellsAt structs i numCells = some cell) :
    i + numCells * 4 ≤ structs.length := by
  obtain ⟨_, sliced, -⟩ := Option.bind_eq_some_iff.mp read
  exact (getRange_some sliced).2.1

lemma u32Next_eq (opened : Opened dt structs) (ordered : i ≤ stop) (near : stop < 2 ^ 34) :
    U32Iter.next dt ⟨i, stop⟩ = if stop - i < 4 then some none else
      some (((getRange structs i (i + 4)).bind bytesToU32).map fun cell =>
        (cell, ⟨i + 4, stop⟩)) := by
  rw [U32Iter.next]
  simp only [bind_eq_bind]
  rw [checkedSub_of_le ordered, checkedAdd_of_lt (by omega), opened.block]
  rfl

lemma u32_yields (opened : Opened dt structs) (ordered : i ≤ stop) (near : stop < 2 ^ 34) :
    ∃ items, Yields (U32Iter.next dt) ⟨i, stop⟩ items := by
  induction remaining : stop - i using Nat.strongRecOn generalizing i with
  | ind count ih =>
    have step := u32Next_eq opened ordered near
    by_cases short : stop - i < 4
    · rw [if_pos short] at step
      exact ⟨[], .done step⟩
    rw [if_neg short] at step
    cases read : (getRange structs i (i + 4)).bind bytesToU32 with
    | none =>
      rw [read] at step
      exact ⟨[], .done step⟩
    | some cell =>
      rw [read] at step
      obtain ⟨items, more⟩ := ih (stop - (i + 4)) (by omega) (by omega) rfl
      exact ⟨cell :: items, .item step more⟩

end

/-! ## Register blocks -/

/-- The register blocks in some cells. -/
def regsFrom (structs : List UInt8) (addressCells sizeCells stop : Nat) : Nat → Nat → List RegBlock
  | 0, _ => []
  | count + 1, i =>
    if addressCells = 0 ∨ addressCells > 2 ∨ sizeCells > 2 then []
    else if stop - i < addressCells * 4 + sizeCells * 4 then []
    else match cellsAt structs i addressCells with
      | none => []
      | some addr =>
        ⟨addr, if sizeCells > 0 then cellsAt structs (i + addressCells * 4) sizeCells else none⟩ ::
          regsFrom structs addressCells sizeCells stop count (i + addressCells * 4 + sizeCells * 4)

/-- The register blocks of a node on a bus. -/
def regs (dt : DeviceTree) (structs : List UInt8) (bus : Option Branch) (branch : Branch) :
    List RegBlock :=
  regsFrom structs (cells dt structs bus "#address-cells" 2) (cells dt structs bus "#size-cells" 1)
    (bounds dt branch "reg").2 (bounds dt branch "reg").2 (bounds dt branch "reg").1

section

variable {addressCells sizeCells stop count i : Nat}

lemma regNext_eq (opened : Opened dt structs) (ordered : i ≤ stop) (near : stop < 2 ^ 34)
    (usable : ¬ (addressCells = 0 ∨ addressCells > 2 ∨ sizeCells > 2)) :
    RegIter.next dt ⟨addressCells, sizeCells, i, stop⟩ =
      if stop - i < addressCells * 4 + sizeCells * 4 then some none
      else match cellsAt structs i addressCells with
        | none => some none
        | some addr => some (some
            (⟨addr, if sizeCells > 0 then cellsAt structs (i + addressCells * 4) sizeCells
              else none⟩,
              ⟨addressCells, sizeCells, i + addressCells * 4 + sizeCells * 4, stop⟩)) := by
  have few : addressCells ≤ 2 ∧ sizeCells ≤ 2 := by omega
  rw [RegIter.next, if_neg usable]
  simp only [bind_eq_bind]
  rw [checkedMul_of_lt (by omega), checkedMul_of_lt (by omega), checkedSub_of_le ordered]
  simp only [bind_some]
  rw [checkedAdd_of_lt (by omega), checkedAdd_of_lt (by omega),
    consumeCells_eq opened few.1 (by omega)]
  simp only [bind_some, gt_iff_lt]
  split
  · rfl
  cases cellsAt structs i addressCells with
  | none => rfl
  | some =>
    rw [checkedAdd_of_lt (by omega), consumeCells_eq opened few.2 (by omega)]
    dsimp only
    split <;> rfl

lemma reg_yields (opened : Opened dt structs) (ordered : i ≤ stop) (near : stop < 2 ^ 34)
    (enough : stop - i ≤ count) :
    Yields (RegIter.next dt) ⟨addressCells, sizeCells, i, stop⟩
      (regsFrom structs addressCells sizeCells stop count i) := by
  by_cases usable : addressCells = 0 ∨ addressCells > 2 ∨ sizeCells > 2
  · have none : regsFrom structs addressCells sizeCells stop count i = [] := by
      cases count with
      | zero => rfl
      | succ => rw [regsFrom, if_pos usable]
    rw [none]
    exact .done (if_pos usable)
  induction count generalizing i with
  | zero =>
    apply Yields.done
    rw [regNext_eq opened ordered near usable, if_pos (by omega)]
  | succ count ih =>
    have step := regNext_eq opened ordered near usable
    rw [regsFrom, if_neg usable]
    by_cases short : stop - i < addressCells * 4 + sizeCells * 4
    · rw [if_pos short] at step ⊢
      exact .done step
    rw [if_neg short] at step ⊢
    cases read : cellsAt structs i addressCells with
    | none =>
      rw [read] at step
      exact .done step
    | some =>
      rw [read] at step
      exact .item step (ih (by omega) (by omega))

end

/-! ## Ranges -/

/-- The ranges in some cells. -/
def rangesFrom (structs : List UInt8) (parentAddressCells addressCells sizeCells stop : Nat) :
    Nat → Nat → List Range
  | 0, _ => []
  | count + 1, i =>
    if addressCells = 0 ∨ sizeCells = 0 ∨ addressCells > 2 ∨ sizeCells > 2 then []
    else if parentAddressCells = 0 ∨ parentAddressCells > 2 then []
    else if stop - i < addressCells * 4 + parentAddressCells * 4 + sizeCells * 4 then []
    else match cellsAt structs i addressCells, cellsAt structs (i + addressCells * 4)
      parentAddressCells,
        cellsAt structs (i + addressCells * 4 + parentAddressCells * 4) sizeCells with
      | some childBusAddr, some parentBusAddr, some len =>
        .translated ⟨childBusAddr, parentBusAddr, len⟩ ::
          rangesFrom structs parentAddressCells addressCells sizeCells stop count
            (i + addressCells * 4 + parentAddressCells * 4 + sizeCells * 4)
      | _, _, _ => []

/-- The ranges of a bus that is on another one. -/
def ranges (dt : DeviceTree) (structs : List UInt8) (above : Option Branch) (bus : Branch) :
    List Range :=
  if (bounds dt bus "ranges").1 = (bounds dt bus "ranges").2 then [.identity]
  else rangesFrom structs (cells dt structs above "#address-cells" 2)
    (cells dt structs (some bus) "#address-cells" 2) (cells dt structs (some bus) "#size-cells" 1)
    (bounds dt bus "ranges").2 (bounds dt bus "ranges").2 (bounds dt bus "ranges").1

variable {parentAddressCells addressCells sizeCells stop count i : Nat} {returned : Bool}

lemma rangeNext_eq (opened : Opened dt structs) (ordered : i ≤ stop) (near : stop < 2 ^ 34)
    (usable : ¬ (addressCells = 0 ∨ sizeCells = 0 ∨ addressCells > 2 ∨ sizeCells > 2))
    (fitting : ¬ (parentAddressCells = 0 ∨ parentAddressCells > 2)) :
    RangeIter.next dt ⟨parentAddressCells, addressCells, sizeCells, false, returned, i, stop⟩ =
      if stop - i < addressCells * 4 + parentAddressCells * 4 + sizeCells * 4 then some none
      else match cellsAt structs i addressCells, cellsAt structs (i + addressCells * 4)
        parentAddressCells,
          cellsAt structs (i + addressCells * 4 + parentAddressCells * 4) sizeCells with
        | some childBusAddr, some parentBusAddr, some len =>
          some (some (.translated ⟨childBusAddr, parentBusAddr, len⟩,
            ⟨parentAddressCells, addressCells, sizeCells, false, returned,
              i + addressCells * 4 + parentAddressCells * 4 + sizeCells * 4, stop⟩))
        | _, _, _ => some none := by
  have few : addressCells ≤ 2 ∧ sizeCells ≤ 2 ∧ parentAddressCells ≤ 2 := by omega
  rw [RangeIter.next, if_neg Bool.false_ne_true, if_neg usable, if_neg fitting]
  simp only [bind_eq_bind]
  rw [checkedMul_of_lt (by omega), checkedMul_of_lt (by omega), checkedMul_of_lt (by omega),
    checkedSub_of_le ordered]
  simp only [bind_some]
  rw [checkedAdd_of_lt (by omega), bind_some, checkedAdd_of_lt (by omega),
    consumeCells_eq opened few.1 (by omega), checkedAdd_of_lt (by omega)]
  simp only [bind_some, gt_iff_lt]
  split
  · rfl
  cases cellsAt structs i addressCells with
  | none => rfl
  | some =>
    rw [consumeCells_eq opened few.2.2 (by omega)]
    simp only [bind_some]
    cases cellsAt structs (i + addressCells * 4) parentAddressCells with
    | none => rfl
    | some =>
      rw [checkedAdd_of_lt (by omega)]
      simp only [bind_some]
      rw [consumeCells_eq opened few.2.1 (by omega), checkedAdd_of_lt (by omega)]
      cases cellsAt structs (i + addressCells * 4 + parentAddressCells * 4) sizeCells with
      | none | some len => rfl

lemma rangesFrom_yields (opened : Opened dt structs) (ordered : i ≤ stop) (near : stop < 2 ^ 34)
    (enough : stop - i ≤ count) :
    Yields (RangeIter.next dt) ⟨parentAddressCells, addressCells, sizeCells, false, returned, i,
      stop⟩
      (rangesFrom structs parentAddressCells addressCells sizeCells stop count i) := by
  by_cases usable : addressCells = 0 ∨ sizeCells = 0 ∨ addressCells > 2 ∨ sizeCells > 2
  · have none : rangesFrom structs parentAddressCells addressCells sizeCells stop count i = [] := by
      cases count with
      | zero => rfl
      | succ => rw [rangesFrom, if_pos usable]
    rw [none]
    exact .done (if_pos usable)
  by_cases fitting : parentAddressCells = 0 ∨ parentAddressCells > 2
  · have none : rangesFrom structs parentAddressCells addressCells sizeCells stop count i = [] := by
      cases count with
      | zero => rfl
      | succ => rw [rangesFrom, if_neg usable, if_pos fitting]
    rw [none]
    apply Yields.done
    rw [RangeIter.next, if_neg Bool.false_ne_true, if_neg usable, if_pos fitting]
  induction count generalizing i with
  | zero =>
    apply Yields.done
    rw [rangeNext_eq opened ordered near usable fitting, if_pos (by omega)]
  | succ count ih =>
    have step := @rangeNext_eq _ _ _ _ _ _ _ returned opened ordered near usable fitting
    rw [rangesFrom, if_neg usable, if_neg fitting]
    by_cases short : stop - i < addressCells * 4 + parentAddressCells * 4 + sizeCells * 4
    · rw [if_pos short] at step ⊢
      exact .done step
    rw [if_neg short] at step ⊢
    split at step
    · exact .item step (ih (by omega) (by omega))
    · exact .done step

lemma rangesFrom_length_le :
    (rangesFrom structs parentAddressCells addressCells sizeCells stop count i).length ≤
    structs.length - i := by
  induction count generalizing i with
  | zero => exact Nat.zero_le _
  | succ count ih =>
    rw [rangesFrom]
    split
    · exact Nat.zero_le _
    split
    · exact Nat.zero_le _
    split
    · exact Nat.zero_le _
    split
    · rename_i read _ _
      have inside := cellsAt_inside read
      have fewer := @ih (i + addressCells * 4 + parentAddressCells * 4 + sizeCells * 4)
      rw [List.length_cons]
      omega
    · exact Nat.zero_le _

end R9x.Verif.FdtCells
