import R9x.Verif.FdtValues

/-!
# Register blocks translated to the root

What the register blocks of a node are at the root: at each bus below the root a range has to hold
all of the block, and a bus without the property has none.
-/

namespace R9x.Verif.FdtTranslation

open Lib Core.Fdt FdtTrees FdtFlatten FdtWalk FdtValues

/-- The range holds all of the register block. -/
def whole (reg : RegBlock) : Range → Bool
  | .identity => true
  | .translated map =>
    decide (map.childBusAddr ≤ reg.addr ∧ reg.addr + reg.len.getD 0 ≤ map.childBusAddr + map.len)

/-- The ranges that the reader finds at the buses above a node. -/
def levels : List (FdtTrees.Tree Node) → List (List Range)
  | bus :: above :: rest => rangesOf (some above) bus :: levels (above :: rest)
  | _ => []

/-- The ranges that the buses above a node have, none without the property. -/
def declared : List (FdtTrees.Tree Node) → List (List Range)
  | bus :: above :: rest =>
    (if (bus.props.lookup "ranges").isSome then rangesOf (some above) bus else []) :: declared
    (above :: rest)
  | _ => []

/-- No sum overflows on the way of a register block by the first range at each bus that holds its
start. -/
def InRange : RegBlock → List (List Range) → Prop
  | _, [] => True
  | reg, list :: outer => Sums reg list ∧
    ∀ range, list.find? (starts reg) = some range → InRange (applied reg range) outer

/-- The way of a register block by the first range at each bus that holds its start ends like the
way by the first that holds all of it. Where the two part, whether because they take different
ranges or because only one of them finds any, what the buses further up do has to make up for it. -/
def EndsAlike : RegBlock → List (List Range) → List (List Range) → Prop
  | reg, tried :: outer, own :: rest =>
    match tried.find? (starts reg), own.find? (whole reg) with
    | some taken, some right =>
      if applied reg taken = applied reg right then EndsAlike (applied reg taken) outer rest
      else through starts (applied reg taken) outer = through whole (applied reg right) rest
    | some taken, none => through starts (applied reg taken) outer = .unreachable
    | none, some right => through whole (applied reg right) rest = .unreachable
    | none, none => True
  | _, _, _ => True

/-- The register blocks of a node are translated as the ranges of the buses say. -/
structure Translatable (node : FdtTrees.Tree Node) (above : List (FdtTrees.Tree Node)) : Prop where
  below : regsOf above.head? node ≠ [] → above ≠ []
  sums : ∀ reg ∈ regsOf above.head? node, InRange reg (levels above)
  alike : ∀ reg ∈ regsOf above.head? node, EndsAlike reg (levels above) (declared above)

lemma endsAlike_iff {reg : RegBlock} {tried own : List (List Range)}
    (length : tried.length = own.length) :
    EndsAlike reg tried own ↔ through starts reg tried = through whole reg own := by
  induction tried generalizing reg own with
  | nil =>
    obtain rfl := List.eq_nil_of_length_eq_zero length.symm
    simp only [EndsAlike, through]
  | cons list outer ih =>
    cases own with
    | nil => cases length
    | cons mine rest =>
      have shorter : outer.length = rest.length := Nat.succ.inj length
      rw [EndsAlike, through, through]
      cases list.find? (starts reg) with
      | none =>
        cases mine.find? (whole reg) with
        | none => simp only [Option.elim]
        | some => simp only [Option.elim, eq_comm]
      | some taken =>
        cases mine.find? (whole reg) with
        | none => simp only [Option.elim]
        | some right =>
          simp only [Option.elim]
          split
          · rename_i same
            rw [ih shorter, same]
          · rfl

lemma length_declared (above : List (FdtTrees.Tree Node)) :
    (levels above).length = (declared above).length := by
  induction above with
  | nil => rfl
  | cons _ above ih =>
    cases above with
    | nil => rfl
    | cons => rw [levels, declared, List.length_cons, List.length_cons, ih]

section

variable {dt : DeviceTree} {structs strings : List UInt8} {seen : List FdtForest.Branch}
  {above : List (FdtTrees.Tree Node)} {reg : RegBlock} (strung : dt.strings = some strings)
  (opened : FdtTokens.Opened dt structs)
  (all : List.Forall₂ (fun branch tree => ∃ depth, FitsBranch structs strings depth branch tree)
    seen above)
include strung opened all

lemma busRanges_levels : busRanges dt structs seen = levels above := by
  induction all with
  | nil => rfl
  | cons first rest ih =>
    cases rest with
    | nil => rfl
    | cons next others =>
      obtain ⟨_, fits⟩ := first
      have ranges := ranges_value strung opened fits (.cons next others)
      rw [busRanges, levels, ih]
      exact congrArg (· :: _) ranges

lemma carried_iff : Carried dt structs reg seen ↔ InRange reg (levels above) := by
  induction all generalizing reg with
  | nil => exact Iff.rfl
  | cons first rest ih =>
    cases rest with
    | nil => exact Iff.rfl
    | cons next others =>
      obtain ⟨_, fits⟩ := first
      have ranges := ranges_value strung opened fits (.cons next others)
      rw [List.head?_cons, List.head?_cons] at ranges
      rw [Carried, ranges, levels, InRange]
      refine and_congr_right fun _ => ?_
      simp only [moved_eq, Option.map_eq_some_iff, forall_exists_index, and_imp,
        forall_apply_eq_imp_iff₂, ih]

end

/-- The nodes of a tree are listed, and exactly the register blocks that can be translated are. -/
structure Translates (dt : DeviceTree) (top : FdtTrees.Tree Node) : Prop where
  nodes : ∃ iter, dt.nodes = some iter ∧
    Yields (NodesIter.next dt) iter ((top.nodes 0).map fun found => found.2.label)
  regs : ∀ node above, Hangs top node above →
    ((∃ iter, dt.propertyTranslatedRegIter node.label = some iter ∧
      Yields (TranslatedIter.next dt) iter
        ((regsOf above.head? node).map fun reg => through whole reg (declared above))) ↔
      Translatable node above)

def busTree : FdtTrees.Tree Unit :=
  .node () "" [] [.node () "bus" [] [.node () "dev" [("reg", [0, 0, 0, 0, 0, 0, 0, 16, 0, 0, 0, 4])]
    []]]

def busTokens : List (Token Nat) :=
  [.beginNode "", .beginNode "bus", .beginNode "dev", .prop 0 [0, 0, 0, 0, 0, 0, 0, 16, 0, 0, 0, 4],
    .endNode, .endNode, .endNode, .fdtEnd]

def busHeader : FdtHeader := ⟨0xd00dfeed, 108, 40, 104, 0, 17, 16, 0, 4, 64⟩

def busBlob : List UInt8 :=
  (headerWords busHeader).flatMap word ++ (busTokens.flatMap tokenBytes ++ (utf8 "reg" ++ [0]))

end R9x.Verif.FdtTranslation
