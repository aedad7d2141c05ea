import Mathlib.Data.List.Forall2
import R9x.Verif.FdtFlatten
import R9x.Verif.FdtWalk

/-!
# The cells of the properties of a tree

What the iterators over cells, register blocks and ranges yield for a node of a device tree is a
function of the bytes of the property, and of the cell counts that its bus and the bus above give.
-/

namespace R9x.Verif.FdtValues

open Lib Core.Fdt FdtTokens FdtForest FdtNodes FdtBlocks
  FdtTrees FdtRecover FdtFlatten FdtCells FdtWalk
open List (range)

/-! ## Values -/

/-- The number in some cells of a value. -/
def cellsOf (value : List UInt8) (i numCells : Nat) : Nat :=
    fromBeBytes ((value.drop i).take (numCells * 4))

def words (value : List UInt8) : List Nat :=
  (range (value.length / 4)).map fun k => cellsOf value (k * 4) 1

/-- The register blocks of a value with `a` cells for an address and `s` for a size. -/
def regEntries (a s : Nat) (value : List UInt8) : List RegBlock :=
  if a = 0 ∨ a > 2 ∨ s > 2 then []
  else (range (value.length / (a * 4 + s * 4))).map fun k =>
    let i := k * (a * 4 + s * 4)
    ⟨cellsOf value i a, if s > 0 then some (cellsOf value (i + a * 4) s) else none⟩

/-- The ranges of a value with `a` cells for an address, `p` for one on the parent bus and `s` for a
size. -/
def rangeEntries (p a s : Nat) (value : List UInt8) : List Range :=
  if a = 0 ∨ s = 0 ∨ a > 2 ∨ s > 2 ∨ p = 0 ∨ p > 2 then []
  else (range (value.length / (a * 4 + p * 4 + s * 4))).map fun k =>
    let i := k * (a * 4 + p * 4 + s * 4)
    .translated ⟨cellsOf value i a, cellsOf value (i + a * 4) p,
      cellsOf value (i + a * 4 + p * 4) s⟩

/-- A cell count that a node gives, or its default. -/
def cellCount (node : Option (FdtTrees.Tree Node)) (propName : String) (default : Nat) : Nat :=
  (node.bind fun node => node.props.lookup propName).elim default fun value =>
    (bytesToU32 value).getD default

/-- The register blocks of a node on a bus. -/
def regsOf (bus : Option (FdtTrees.Tree Node)) (node : FdtTrees.Tree Node) : List RegBlock :=
  regEntries (cellCount bus "#address-cells" 2) (cellCount bus "#size-cells" 1)
    ((node.props.lookup "reg").getD [])

/-- The ranges of a bus that is on another one. -/
def rangesOf (above : Option (FdtTrees.Tree Node)) (bus : FdtTrees.Tree Node) : List Range :=
  let value := (bus.props.lookup "ranges").getD []
  if value = [] then [.identity]
  else rangeEntries (cellCount above "#address-cells" 2) (cellCount (some bus) "#address-cells" 2)
    (cellCount (some bus) "#size-cells" 1) value

/-- A node of a tree, with the nodes above it, the nearest first. -/
inductive Hangs (top : FdtTrees.Tree Node) : FdtTrees.Tree Node → List (FdtTrees.Tree Node) →
    Prop where
  | top : Hangs top top []
  | child {parent node : FdtTrees.Tree Node} {above : List (FdtTrees.Tree Node)}
      (hangs : Hangs top parent above)
      (member : node ∈ parent.children) : Hangs top node (parent :: above)

/-! ## Reading entries -/

lemma yields_entries {σ α : Type} {next : σ → Option (Option (α × σ))} (state : Nat → σ)
    (item : Nat → α)
    (width : Nat) {len : Nat} (positive : 0 < width)
    (step : ∀ off ≤ len, next (state off) =
      if len - off < width then some none else some (some (item off, state (off + width))))
    {off : Nat} (inside : off ≤ len) :
    Yields next (state off) ((range ((len - off) / width)).map fun k =>
      item (off + k * width)) := by
  induction left : (len - off) / width generalizing off with
  | zero =>
    apply Yields.done
    rw [step off inside, if_pos (by rw [Nat.div_eq_zero_iff] at left; omega)]
  | succ count ih =>
    have long : ¬ len - off < width := fun short => by
      rw [Nat.div_eq_of_lt short] at left
      cases left
    have later : (len - (off + width)) / width = count := by
      have one : (len - (off + width)) / width + 1 = (len - off) / width := by
        rw [← Nat.add_div_right _ positive]
        congr 1
        omega
      omega
    have first := step off inside
    rw [if_neg long] at first
    have shifted : ((range count).map fun k => item (off + width + k * width)) =
        ((range count).map Nat.succ).map fun k => item (off + k * width) := by
      rw [List.map_map]
      refine List.map_congr_left fun k _ => ?_
      rw [Function.comp_apply, Nat.succ_mul]
      congr 1
      omega
    have rest := ih (show off + width ≤ len by omega) later
    rw [shifted] at rest
    rw [List.range_succ_eq_map, List.map_cons, Nat.zero_mul, Nat.add_zero]
    exact .item first rest

section

variable {dt : DeviceTree} {structs value : List UInt8} {start len : Nat}
  (opened : Opened dt structs)
  (held : getRange structs start (start + len) = some value)

include held in
lemma held_length : value.length = len := by
  rw [(getRange_some held).2.2]
  omega

include held in
lemma cellsAt_value {off n : Nat} (few : n = 1 ∨ n = 2) (inside : off + n * 4 ≤ len) :
    cellsAt structs (start + off) n = some (cellsOf value off n) := by
  obtain ⟨-, bound, -⟩ := getRange_some held
  rw [getRange, if_pos ⟨Nat.le_add_right _ _, bound⟩, Nat.add_sub_cancel_left] at held
  cases held
  have slice : getRange structs (start + off) (start + off + n * 4) =
      some ((structs.drop (start + off)).take (n * 4)) := by
    rw [getRange, if_pos (by omega), Nat.add_sub_cancel_left]
  have same : (((structs.drop start).take len).drop off).take (n * 4) =
      (structs.drop (start + off)).take (n * 4) := by
    rw [List.drop_take, List.drop_drop, List.take_take, Nat.min_eq_left (by omega)]
  have whole : ((structs.drop (start + off)).take (n * 4)).length = n * 4 := by
    rw [List.length_take, List.length_drop]
    omega
  rw [cellsAt, slice, Option.bind_some, cellsOf, same]
  rcases few with rfl | rfl
  · rw [if_pos rfl, bytesToU32, getRange, if_pos (by omega), List.drop_zero, Nat.sub_zero,
      List.take_of_length_le (by omega)]
    rfl
  rw [if_neg (by decide), bytesToU64, getRange, if_pos (by omega), List.drop_zero, Nat.sub_zero,
    List.take_of_length_le (by omega)]
  rfl

include opened held

lemma held_near : start + len < 2 ^ 34 := by
  have inside := (getRange_some held).2.1
  have small := opened.small
  omega

lemma u32_words : Yields (U32Iter.next dt) ⟨start, start + len⟩ (words value) := by
  have near := held_near opened held
  have all := @yields_entries _ _ (U32Iter.next dt) (fun off => ⟨start + off, start + len⟩)
    (fun off => cellsOf value off 1) 4 len (by decide) ?_ _ (Nat.zero_le _)
  · rw [words, held_length held]
    simpa only [Nat.zero_add, Nat.add_zero, Nat.sub_zero] using all
  · intro off inside
    rw [u32Next_eq opened (by omega) near, Nat.add_sub_add_left]
    split
    · rfl
    have read := @cellsAt_value _ _ _ _ held off 1 (.inl rfl) (by omega)
    rw [cellsAt, if_pos rfl] at read
    rw [read]
    rfl

lemma reg_entries (a s : Nat) : Yields (RegIter.next dt) ⟨a, s, start, start + len⟩
    (regEntries a s value) := by
  have near := held_near opened held
  rw [regEntries]
  split
  · rename_i unusable
    exact .done (if_pos unusable)
  rename_i usable
  have all := @yields_entries _ _ (RegIter.next dt) (fun off => ⟨a, s, start + off, start + len⟩)
    (fun off => ⟨cellsOf value off a, if s > 0 then some (cellsOf value (off + a * 4) s) else none⟩)
    (a * 4 + s * 4) len (by omega) ?_ _ (Nat.zero_le _)
  · rw [held_length held]
    simpa only [Nat.zero_add, Nat.add_zero, Nat.sub_zero] using all
  · intro off inside
    rw [regNext_eq opened (by omega) near usable, Nat.add_sub_add_left]
    split
    · rfl
    rw [cellsAt_value held (by omega) (by omega), Nat.add_assoc start, Nat.add_assoc start,
      Nat.add_assoc off]
    dsimp only
    congr 4
    split
    · exact cellsAt_value held (by omega) (by omega)
    · rfl

lemma range_entries (p a s : Nat) :
    Yields (RangeIter.next dt) ⟨p, a, s, false, false, start, start + len⟩
      (rangeEntries p a s value) := by
  have near := held_near opened held
  rw [rangeEntries]
  by_cases usable : a = 0 ∨ s = 0 ∨ a > 2 ∨ s > 2
  · rw [if_pos (by omega)]
    exact .done (if_pos usable)
  by_cases fitting : p = 0 ∨ p > 2
  · rw [if_pos (by omega)]
    apply Yields.done
    rw [RangeIter.next, if_neg Bool.false_ne_true, if_neg usable, if_pos fitting]
  rw [if_neg (by omega)]
  have all := @yields_entries _ _ (RangeIter.next dt)
    (fun off => ⟨p, a, s, false, false, start + off, start + len⟩)
    (fun off => .translated ⟨cellsOf value off a, cellsOf value (off + a * 4) p,
      cellsOf value (off + a * 4 + p * 4) s⟩)
    (a * 4 + p * 4 + s * 4) len (by omega) ?_ _ (Nat.zero_le _)
  · rw [held_length held]
    simpa only [Nat.zero_add, Nat.add_zero, Nat.sub_zero] using all
  · intro off inside
    rw [rangeNext_eq opened (by omega) near usable fitting, Nat.add_sub_add_left]
    split
    · rfl
    simp only [Nat.add_assoc start]
    rw [cellsAt_value held (by omega) (by omega), cellsAt_value held (by omega) (by omega),
      cellsAt_value held (by omega) (by omega)]
    rw [Nat.add_assoc off, Nat.add_assoc off]

end

/-! ## The nodes of a tree -/

/-- What the iterators over the cells of a tree yield. -/
structure Decodes (dt : DeviceTree) (top : FdtTrees.Tree Node) : Prop where
  nodes : ∃ iter, dt.nodes = some iter ∧
    Yields (NodesIter.next dt) iter ((top.nodes 0).map fun found => found.2.label)
  words : ∀ node above, Hangs top node above → ∃ iter found, dt.properties node.label = some iter ∧
    Yields (PropertiesIter.next dt) iter found ∧
    List.Forall₂ (fun prop (shown : String × List UInt8) => dt.propertyName prop =
      some (some shown.1) ∧
      ∃ iter, dt.propertyValueAsU32Iter prop = some iter ∧
        Yields (U32Iter.next dt) iter (FdtValues.words shown.2)) found node.props
  regs : ∀ node above, Hangs top node above → ∃ iter, dt.propertyRegIter node.label = some iter ∧
    Yields (RegIter.next dt) iter (regsOf above.head? node)
  ranges : ∀ node above, Hangs top node above → ∃ iter, dt.propertyRangeIter node.label =
    some iter ∧
    Yields (RangeIter.next dt) iter (rangesOf above.head? node)

section

variable {dt : DeviceTree} {structs strings : List UInt8} {forest : Forest} {torn : List FdtToken}
  {top node : FdtTrees.Tree Node} {above : List (FdtTrees.Tree Node)} {root branch : Branch}
  {seen : List Branch}
  {depth : Nat} {props : List (String × List UInt8)}

lemma line_of_hangs (fits : FitsBranch structs strings 0 root top) (hangs : Hangs top node above) :
    ∃ branch seen, Line root branch seen ∧ seen.length = above.length ∧
      FitsBranch structs strings above.length branch node ∧
      List.Forall₂ (fun branch tree => ∃ depth, FitsBranch structs strings depth branch tree)
        seen above := by
  induction hangs with
  | top => exact ⟨root, [], .top, rfl, fits, .nil⟩
  | child _ member ih =>
    obtain ⟨parent, seen, line, length, found, rest⟩ := ih
    obtain ⟨branch, among, inner⟩ := branch_of_mem found.inner.branches member
    exact ⟨branch, parent :: seen, line.child among, congrArg Nat.succ length, inner,
      .cons ⟨_, found⟩ rest⟩

lemma known_of_hangs (fits : Fits structs strings 0 forest props [top])
    (hangs : Hangs top node above) :
    ∃ branch seen, Known forest branch above.length seen ∧ FitsBranch structs strings above.length
      branch node ∧
      List.Forall₂ (fun branch tree => ∃ depth, FitsBranch structs strings depth branch tree)
        seen above := by
  have branches := fits.branches
  cases tops : forest.tops with
  | nil =>
    rw [tops] at branches
    cases branches
  | cons =>
    rw [tops] at branches
    cases branches with
    | cons first =>
      obtain ⟨branch, seen, line, length, found, all⟩ := line_of_hangs first hangs
      exact ⟨branch, seen, length ▸ .below tops line, found, all⟩

lemma nodes_of_fits (block : Block dt structs forest torn)
    (fits : Fits structs strings 0 forest props [top]) :
    ∃ iter, dt.nodes = some iter ∧
      Yields (NodesIter.next dt) iter ((top.nodes 0).map fun found => found.2.label) := by
  have order : forest.preorder 0 = (top.nodes 0).map fun found => found.2.label := by
    rw [fits.preorder, Tree.nodesAll, Tree.nodesAll, List.append_nil]
  rw [← order]
  exact block.nodes

variable (strung : dt.strings = some strings)
include strung

lemma bounds_value (fits : FitsBranch structs strings depth branch node) (propName : String) :
    ∃ start len, bounds dt branch propName = (start, start + len) ∧
      getRange structs start (start + len) = some ((node.props.lookup propName).getD []) := by
  rw [bounds]
  rcases shown_lookup strung propName fits.inner.shown with ⟨missing, none⟩ | ⟨ctx, _, one,
    same, shown⟩
  · rw [missing, none]
    exact ⟨0, 0, rfl, if_pos ⟨Nat.le_refl 0, Nat.zero_le _⟩⟩
  rw [one, same]
  exact ⟨ctx.valueStart, ctx.valueLen, rfl, shown.2⟩

lemma cells_value (fits : FitsBranch structs strings depth branch node) (propName : String)
    (default : Nat) :
    cells dt structs (some branch) propName default = cellCount (some node) propName default := by
  rw [cells, cellCount, Option.bind_some, Option.bind_some]
  rcases shown_lookup strung propName fits.inner.shown with ⟨missing, none⟩ | ⟨_, _, one,
    same, shown⟩
  · rw [missing, none]
    rfl
  rw [one, same, Option.elim_some, shown.2]
  rfl

lemma cells_above (all : List.Forall₂ (fun branch tree => ∃ depth, FitsBranch structs strings depth
    branch tree) seen above)
    (propName : String) (default : Nat) :
    cells dt structs seen.head? propName default = cellCount above.head? propName default := by
  cases all with
  | nil => rfl
  | cons first =>
    obtain ⟨_, fits⟩ := first
    exact cells_value strung fits propName default

variable (opened : Opened dt structs) (fits : FitsBranch structs strings depth branch node)
  (all : List.Forall₂ (fun branch tree => ∃ depth, FitsBranch structs strings depth branch tree)
    seen above)
include opened fits all

lemma regs_value : regs dt structs seen.head? branch = regsOf above.head? node := by
  obtain ⟨_, _, bounds, held⟩ := bounds_value strung fits "reg"
  rw [regs, regsOf, bounds, cells_above strung all, cells_above strung all]
  exact (reg_yields opened (Nat.le_add_right _ _) (held_near opened held) (Nat.sub_le _ _)).unique
    (reg_entries opened held _ _)

lemma ranges_value : ranges dt structs seen.head? branch = rangesOf above.head? node := by
  obtain ⟨start, len, bounds, held⟩ := bounds_value strung fits "ranges"
  rw [ranges, rangesOf, bounds, cells_above strung all, cells_value strung fits,
    cells_value strung fits]
  have length := held_length held
  by_cases empty : len = 0
  · rw [if_pos (by rw [empty]; rfl), if_pos (List.eq_nil_of_length_eq_zero (length.trans empty))]
  rw [if_neg (by omega), if_neg (fun none => empty (by rw [← length, none]; rfl))]
  exact (rangesFrom_yields opened (Nat.le_add_right _ _) (held_near opened held)
    (Nat.sub_le _ _)).unique
    (range_entries opened held _ _ _)

end

/-- The iterators over the cells of a blob that a device tree is flattened into yield what the
values of the properties say, whatever else is in the blob. -/
theorem cells_decoded (tree : FdtTrees.Tree Unit) (header : FdtHeader) (tokens : List (Token Nat))
    (strings data : List UInt8) (flat : Flattens tree header tokens strings data) :
    ∃ dt marked, DeviceTree.new data = .ok dt ∧ marked.erase = tree ∧ Decodes dt marked := by
  obtain ⟨dt, structs, forest, torn, marked, props, accepted, same, block, strung, fits⟩ :=
    flat_block flat
  have named : AllNamed dt forest := fun _ _ _ _ _ => strung ▸ rfl
  refine ⟨dt, marked, accepted, same, nodes_of_fits block fits, ?_, ?_, ?_⟩
  · intro node above hangs
    obtain ⟨branch, seen, known, found, -⟩ := known_of_hangs fits hangs
    obtain ⟨tail, site⟩ := known.site block
    obtain ⟨iter, listed, yields⟩ := properties_yields block.opened site
    rw [found.label]
    refine ⟨iter, _, listed, yields, List.forall₂_map_left_iff.mpr (found.inner.shown.imp ?_)⟩
    intro ctx prop shown
    have near := held_near block.opened shown.2
    refine ⟨(shown_property block.opened strung shown).1, _, ?_, u32_words block.opened shown.2⟩
    change (checkedAdd ctx.valueStart ctx.valueLen).bind _ = _
    rw [checkedAdd_of_lt (by omega)]
    rfl
  · intro _ _ hangs
    obtain ⟨_, _, known, found, all⟩ := known_of_hangs fits hangs
    rw [found.label, ← regs_value strung block.opened found all]
    exact known.regs block named
  · intro _ _ hangs
    obtain ⟨_, _, known, found, all⟩ := known_of_hangs fits hangs
    rw [found.label, ← ranges_value strung block.opened found all]
    exact known.ranges block named

/-- The small tree, with its ranges and register block. -/
theorem cells_decoded_small :
    ∃ dt marked, DeviceTree.new smallBlob = .ok dt ∧ marked.erase = smallTree ∧ Decodes dt marked :=
  cells_decoded smallTree smallHeader smallTokens _ smallBlob small_flattens

end R9x.Verif.FdtValues
