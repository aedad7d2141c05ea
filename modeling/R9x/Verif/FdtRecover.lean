import R9x.Verif.FdtCells
import R9x.Verif.FdtTrees

/-!
# The tree that the reader recovers

On a structure block whose forest fits a device tree, the functions of the reader return the tree:
`nodes` its nodes in preorder, `children` and `parent` its edges, `properties` and `property` what
is at its nodes, and `find_by_path` the node that a path leads to.
-/

namespace R9x.Verif.FdtRecover

open Lib Core.Fdt FdtTokens FdtForest FdtNodes FdtBlocks
  FdtCells FdtTrees
open DeviceTree (findSubpath nodeName)
open Option (bind_some bind_eq_bind pure_def)
open List (cons_append map_cons mem_cons_self)
open FdtTrees.Tree (label)
open String (toList)

variable {dt : DeviceTree} {structs strings : List UInt8}

/-! ## Order -/

lemma preorder_sorted (small : structs.length < 2 ^ 32) {i depth : Nat} {forest : Forest}
    {tail : List FdtToken}
    (reads : Reads structs i (forest.tokens ++ tail)) :
    (∀ node ∈ forest.preorder depth, i ≤ node.start ∧
      ∀ token tail', tail = token :: tail' → node.start < token.start) ∧
    (forest.preorder depth).Pairwise fun first second => first.start < second.start := by
  induction forest generalizing i depth tail with
  | nil => exact ⟨nofun, .nil⟩
  | leaf _ _ ih =>
    obtain ⟨bounds, sorted⟩ := ih reads.2.2
    refine ⟨fun node member => ?_, sorted⟩
    obtain ⟨low, high⟩ := bounds node member
    exact ⟨Nat.le_trans (Nat.le_add_right _ _) low, high⟩
  | node begun body ended rest ihBody ihRest =>
    rw [Forest.tokens, cons_append, List.append_assoc, cons_append] at reads
    have here : begun.start = i := reads.start_eq small
    have least := (parsed_of_parseToken small reads.2.1).least
    obtain ⟨ends, later⟩ := reads.2.2.at_start small
    obtain ⟨inside, sorted⟩ := @ihBody _ (depth + 1) _ reads.2.2
    obtain ⟨after, sorted'⟩ := @ihRest _ depth _ ends.2.2
    have least' := (parsed_of_parseToken small ends.2.1).least
    have beyond : ∀ token tail', tail = token :: tail' → (FdtToken.endNode ended).start <
      token.start := by
      rintro token tail' rfl
      have position := (ends.2.2.at_start small).2
      omega
    constructor
    · intro node member
      rcases List.mem_cons.mp member with rfl | member
      · refine ⟨Nat.le_of_eq here.symm, fun token tail' split => ?_⟩
        have last := beyond token tail' split
        change begun.start < token.start
        omega
      rcases List.mem_append.mp member with within | outside
      · obtain ⟨low, high⟩ := inside node within
        have bound := high _ _ rfl
        exact ⟨by omega, fun token tail' split => Nat.lt_trans bound (beyond token tail' split)⟩
      obtain ⟨low, high⟩ := after node outside
      exact ⟨by omega, high⟩
    · constructor
      · intro node member
        change begun.start < node.start
        rcases List.mem_append.mp member with within | outside
        · have low := (inside node within).1
          omega
        have low := (after node outside).1
        omega
      · apply List.pairwise_append.mpr
        refine ⟨sorted, sorted', fun first within second outside => ?_⟩
        have high := (inside first within).2 _ _ rfl
        have low := (after second outside).1
        omega

/-! ## Paths -/

section

variable {tree : FdtTrees.Tree Node} {trees : List (FdtTrees.Tree Node)}
  {body : List String → Node → Option (List String × Option Node)}
  {name : String} {path : List String}

lemma distinct_of_mem (all : Tree.DistinctAll trees) (member : tree ∈ trees) : tree.Distinct := by
  induction trees with
  | nil => cases member
  | cons _ _ ih =>
    rcases List.mem_cons.mp member with rfl | member
    · exact all.1
    · exact ih all.2 member

lemma search_missing (missed : ∀ tree ∈ trees, ∀ path, body path tree.label = some (path, none)) :
    searchList body path (trees.map label) = some (path, none) := by
  induction trees with
  | nil => rfl
  | cons first _ ih =>
    rw [map_cons, searchList, missed first mem_cons_self]
    exact ih fun tree member => missed tree (List.mem_cons_of_mem _ member)

lemma search_children (names : (trees.map Tree.name).Nodup)
    (missed : ∀ tree ∈ trees, tree.name ≠ name → ∀ path, body path tree.label = some (path, none))
    (met : ∀ tree ∈ trees, tree.name = name →
      ∃ rest, body path tree.label = some (rest, (tree.follow path).map label)) :
    ∃ rest, searchList body path (trees.map label) =
      some (rest, ((trees.find? fun tree => decide (tree.name = name)).bind (·.follow path)).map
        label) := by
  induction trees with
  | nil => exact ⟨path, rfl⟩
  | cons first trees ih =>
    have later : ∀ tree ∈ trees, tree.name ≠ name → ∀ path, body path tree.label =
      some (path, none) :=
      fun tree member => missed tree (List.mem_cons_of_mem _ member)
    rw [map_cons] at names ⊢
    rw [searchList]
    by_cases same : first.name = name
    · obtain ⟨rest, found⟩ := met first mem_cons_self same
      simp only [found, List.find?_cons, decide_eq_true same]
      cases followed : first.follow path with
      | some =>
        refine ⟨rest, ?_⟩
        simp only [Option.map_some, bind_some, followed]
      | none =>
        refine ⟨rest, ?_⟩
        simp only [Option.map_none, bind_some, followed]
        apply search_missing
        intro tree member
        apply later tree member
        rintro equal
        exact (List.nodup_cons.mp names).1 (List.mem_map.mpr ⟨tree, member, equal.trans same.symm⟩)
    simp only [missed first mem_cons_self same, List.find?_cons, decide_eq_false same]
    exact ih (List.nodup_cons.mp names).2 later fun tree member =>
      met tree (List.mem_cons_of_mem _ member)

lemma findSubpath_missed (block : dt.structs = some structs) {node : Node} {fuel : Nat}
    (named : inlineStr structs node.nameStart = some name) {element : String}
    (other : element ≠ name)
    (path : List String) : dt.findSubpath (fuel + 1) path node (some element) = some
    (path, none) := by
  have different : ¬ some element = some name := fun same => other (Option.some.inj same)
  simp only [findSubpath, nodeName, block, bind_eq_bind, bind_some, pure_def, named]
  exact if_neg different

lemma findSubpath_met (opened : Opened dt structs) {level fuel : Nat} {branch : Branch}
    {tail : List FdtToken}
    (site : Site structs level branch tail) (fits : FitsBranch structs strings level branch tree)
    (distinct : tree.Distinct) (enough : structs.length < fuel + level) :
    ∃ rest, dt.findSubpath fuel path tree.label (some tree.name) =
      some (rest, (tree.follow path).map label) := by
  have deep := site.deep
  have inside := site.reads.1
  have named : inlineStr structs tree.label.nameStart = some tree.name := by
    rw [fits.label]
    exact fits.named
  induction path generalizing level fuel branch tail tree with
  | nil =>
    obtain ⟨fuel, rfl⟩ : ∃ rounds, fuel = rounds + 1 := Nat.exists_eq_add_one.mpr (by omega)
    refine ⟨[], ?_⟩
    simp only [findSubpath, nodeName, opened.block, bind_eq_bind, bind_some, pure_def, named]
    exact if_pos trivial
  | cons element path ih =>
    obtain ⟨fuel, rfl⟩ : ∃ rounds, fuel = rounds + 1 := Nat.exists_eq_add_one.mpr (by omega)
    obtain ⟨iter, listed, yields⟩ := children_yields opened site
    have branches := fits.inner.branches
    rw [labels_of_branches branches] at yields
    have count : (tree.children.map label).length < dt.rounds := by
      have fewer := opened.enough site.body
      have tops := tops_length_le branch.body
      rw [List.length_append] at fewer
      rw [← labels_of_branches branches, List.length_map]
      omega
    have searched : dt.findSubpath (fuel + 1) (element :: path) tree.label (some tree.name) =
        searchList (fun path child => dt.findSubpath fuel path child (some element)) path
          (tree.children.map label) := by
      rw [← yields.search _ path count]
      rw [← fits.label] at listed
      simp only [findSubpath, nodeName, opened.block, bind_eq_bind, bind_some, pure_def,
        named, listed]
      exact if_pos trivial
    rw [searched]
    have distinct' : (tree.children.map Tree.name).Nodup ∧ Tree.DistinctAll tree.children := by
      cases tree
      exact distinct
    apply search_children distinct'.1
    · intro child member other path
      obtain ⟨branch', member', fits'⟩ := branch_of_mem branches member
      obtain ⟨-, -, tail', place⟩ := (site.children opened.small).1 branch' member'
      obtain ⟨fuel, rfl⟩ : ∃ rounds, fuel = rounds + 1 := Nat.exists_eq_add_one.mpr (by omega)
      apply findSubpath_missed opened.block _ other.symm
      rw [fits'.label]
      exact fits'.named
    · rintro child member rfl
      obtain ⟨branch', member', fits'⟩ := branch_of_mem branches member
      obtain ⟨-, -, tail', place⟩ := (site.children opened.small).1 branch' member'
      apply ih place fits' (distinct_of_mem distinct'.2 member) (by omega) place.deep place.reads.1
      rw [fits'.label]
      exact fits'.named

end

/-- The text of an absolute path, with or without a separator at its end. -/
def IsPath (path : String) (components : List String) : Prop :=
  path.toList = (components.flatMap fun component => '/' :: component.toList) ++ ['/'] ∨
    components ≠ [] ∧ path.toList = components.flatMap fun component => '/' :: component.toList

/-- The components of a path are not empty and have no separator. -/
def Components (components : List String) : Prop :=
  ∀ component ∈ components, component ≠ "" ∧ '/' ∉ component.toList

lemma splitOn_components (components : List String)
    (proper : ∀ component ∈ components, '/' ∉ component.toList)
    (first : List Char) (plain : '/' ∉ first) :
    (first ++ components.flatMap fun component => '/' :: component.toList).splitOn '/' =
      first :: components.map toList := by
  induction components generalizing first with
  | nil =>
    rw [List.flatMap_nil, List.append_nil]
    exact List.splitOn_eq_singleton plain
  | cons component _ ih =>
    have here := proper component mem_cons_self
    rw [List.flatMap_cons, cons_append, List.splitOn_append_cons_self_of_not_mem plain,
      ih (fun other member => proper other (List.mem_cons_of_mem _ member)) component.toList here]
    rfl

lemma splitTerminator_path {path : String} {components : List String}
    (text : IsPath path components)
    (proper : Components components) : splitTerminator path = "" :: components := by
  have named : (components.map toList).map String.ofList = components := by
    rw [List.map_map]
    exact List.map_id'' (fun component => String.ofList_toList) components
  rcases text with ends | ⟨some', plain⟩
  · have joined : path.toList = [] ++ (components ++ [""]).flatMap fun component =>
      '/' :: component.toList := by
      rw [ends, List.flatMap_append]
      rfl
    have split := splitOn_components (components ++ [""]) (by
      intro component member
      rcases List.mem_append.mp member with member | last
      · exact (proper component member).2
      rw [List.mem_singleton.mp last]
      exact nofun) [] nofun
    rw [List.map_append] at split
    have last : ([] :: (components.map toList ++ [""].map toList)).getLast? = some [] := by
      rw [← cons_append, List.getLast?_append]
      rfl
    rw [splitTerminator, joined, split]
    simp only [last, if_true]
    rw [← cons_append, List.map_singleton, List.dropLast_concat, map_cons, named]
  have joined : path.toList = [] ++ components.flatMap fun component => '/' :: component.toList :=
    plain
  have split := splitOn_components components (fun component member => (proper component member).2)
    [] nofun
  have last : ([] :: components.map toList).getLast? ≠ some [] := by
    intro empty
    cases components with
    | nil => exact some' rfl
    | cons =>
      rw [map_cons, List.getLast?_cons_cons, ← map_cons] at empty
      obtain ⟨found, member, blank⟩ := List.mem_map.mp (List.mem_of_getLast? empty)
      exact (proper found member).1 (String.toList_eq_nil_iff.mp blank)
  rw [splitTerminator, joined, split]
  simp only [if_neg last, map_cons, named]

/-! ## The tree -/

/-- The reader returns the tree, in which each node is labelled with the record that the reader has
of it. -/
structure Recovers (dt : DeviceTree) (tree : FdtTrees.Tree Node) : Prop where
  root : dt.root = some (some tree.label)
  nodes : ∃ iter, dt.nodes = some iter ∧
    Yields (NodesIter.next dt) iter ((tree.nodes 0).map fun found => found.2.label)
  once : ((tree.nodes 0).map fun found => found.2.label).Nodup
  named : ∀ level sub, (level, sub) ∈ tree.nodes 0 →
    dt.nodeName sub.label = some (some sub.name) ∧ sub.label.depth = level
  children : ∀ level sub, (level, sub) ∈ tree.nodes 0 → ∃ iter, dt.children sub.label = some iter ∧
    Yields (ChildrenIter.next dt) iter (sub.children.map label)
  parent : ∀ level sub, (level, sub) ∈ tree.nodes 0 → ∀ child ∈ sub.children,
    dt.parent child.label = some (some sub.label)
  orphan : dt.parent tree.label = some none
  properties : ∀ level sub, (level, sub) ∈ tree.nodes 0 → ∃ iter found, dt.properties sub.label =
    some iter ∧
    Yields (PropertiesIter.next dt) iter found ∧
    (found.map fun prop => (dt.propertyName prop, dt.propertyValueBytes prop)) =
      sub.props.map fun prop => (some (some prop.1), some (some prop.2))
  property : ∀ level sub, (level, sub) ∈ tree.nodes 0 → ∀ propName, ∃ found,
    dt.property sub.label propName = some found ∧
    found.map dt.propertyValueBytes = (sub.props.lookup propName).map fun value => some (some value)
  findByPath : ∀ path components, Components components → IsPath path components →
    dt.findByPath path = some ((tree.follow components).map label)

variable {forest : Forest} {torn : List FdtToken} {tree : FdtTrees.Tree Node}
  {props : List (String × List UInt8)}

lemma found_below (fits : Fits structs strings 0 forest props [tree]) {level : Nat}
    {sub : FdtTrees.Tree Node}
    (member : (level, sub) ∈ tree.nodes 0) :
    ∃ root branch, forest.tops = [root] ∧ Descends root branch level ∧
      FitsBranch structs strings level branch sub := by
  have all : (level, sub) ∈ Tree.nodesAll 0 [tree] := List.mem_append_left _ member
  obtain ⟨top, among, _, branch, descends, deeper, found⟩ := fits.found all
  rw [Nat.zero_add] at deeper
  subst deeper
  have branches := fits.branches
  cases tops : forest.tops with
  | nil =>
    rw [tops] at among
    cases among
  | cons =>
    rw [tops] at branches among
    cases branches with
    | cons _ rest =>
      cases rest with
      | nil =>
        obtain rfl := List.mem_singleton.mp among
        exact ⟨top, branch, rfl, descends, found⟩

lemma shown_property (opened : Opened dt structs) (block : dt.strings = some strings)
    {ctx : FdtPropContext}
    {name : String} {value : List UInt8}
    (shown : Shows structs strings (.prop ctx) (.prop name value)) :
    dt.propertyName (Property.ofToken ctx) = some (some name) ∧
      dt.propertyValueBytes (Property.ofToken ctx) = some (some value) := by
  have inside := (getRange_some shown.2).2.1
  have small := opened.small
  constructor
  · rw [DeviceTree.propertyName, block]
    exact congrArg some shown.1
  · change (checkedAdd ctx.valueStart ctx.valueLen).bind _ = _
    rw [checkedAdd_of_lt (by omega)]
    simp only [bind_some, opened.block, bind_eq_bind]
    exact congrArg some shown.2

lemma shown_properties (opened : Opened dt structs) (block : dt.strings = some strings)
    {ctxs : List FdtPropContext}
    (shown : List.Forall₂ (fun ctx prop => Shows structs strings (.prop ctx) (.prop prop.1 prop.2))
      ctxs props) :
    ((ctxs.map Property.ofToken).map fun prop =>
      (dt.propertyName prop, dt.propertyValueBytes prop)) =
      props.map fun prop => (some (some prop.1), some (some prop.2)) := by
  induction shown with
  | nil => rfl
  | cons first _ ih =>
    obtain ⟨named, valued⟩ := shown_property opened block first
    rw [map_cons, map_cons, map_cons, ih, named, valued]

lemma shown_lookup (block : dt.strings = some strings) (propName : String) {branch : Branch}
    (shown : List.Forall₂ (fun ctx prop => Shows structs strings (.prop ctx) (.prop prop.1 prop.2))
      branch.body.props props) :
    lookup dt branch propName = none ∧ props.lookup propName = none ∨
      ∃ ctx value, lookup dt branch propName = some ctx ∧ props.lookup propName = some value ∧
        Shows structs strings (.prop ctx) (.prop propName value) := by
  rw [lookup, block]
  generalize branch.body.props = ctxs at shown ⊢
  induction shown with
  | nil => exact .inl ⟨rfl, rfl⟩
  | @cons ctx prop _ _ first _ ih =>
    obtain ⟨name, value⟩ := prop
    simp only [List.find?_cons, List.lookup_cons, bind_some, first.1]
    by_cases same : propName = name
    · subst same
      simp only [decide_true, beq_self_eq_true]
      exact .inr ⟨ctx, value, rfl, rfl, first⟩
    have other : ¬ some name = some propName := fun equal => same (Option.some.inj equal).symm
    simp only [decide_eq_false other, beq_eq_false_iff_ne.mpr same]
    exact ih

/-- The reader returns the tree that the forest of a block fits. -/
lemma recovers (block : Block dt structs forest torn) (stringsBlock : dt.strings = some strings)
    (fits : Fits structs strings 0 forest props [tree]) (rootName : tree.name = "")
    (distinct : tree.Distinct) :
    Recovers dt tree := by
  have opened := block.opened
  have small := opened.small
  have self : (0, tree) ∈ tree.nodes 0 := by
    cases tree
    exact mem_cons_self
  have order : forest.preorder 0 = (tree.nodes 0).map fun found => found.2.label := by
    rw [fits.preorder, Tree.nodesAll, Tree.nodesAll, List.append_nil]
  have sites : ∀ {level sub}, (level, sub) ∈ tree.nodes 0 → ∃ root branch tail,
    forest.tops = [root] ∧
      Descends root branch level ∧ FitsBranch structs strings level branch sub ∧
      Site structs level branch tail := by
    intro _ _ member
    obtain ⟨root, branch, tops, descends, fits'⟩ := found_below fits member
    obtain ⟨_, site⟩ := block.sites.1 root (tops ▸ mem_cons_self)
    obtain ⟨⟨tail', place⟩, -⟩ := descends.site small site
    rw [Nat.zero_add] at place
    exact ⟨root, branch, tail', tops, descends, fits', place⟩
  obtain ⟨first, branch, tail, tops, descends, fits', site⟩ := sites self
  cases descends with
  | here =>
    have top : dt.root = some (some tree.label) := by
      rw [block.first_node, tops, fits'.label]
      rfl
    constructor
    case root => exact top
    case nodes =>
      rw [← order]
      exact block.nodes
    case once =>
      rw [← order]
      have sorted : (forest.preorder 0).Pairwise fun first second => first.start < second.start :=
        (preorder_sorted small block.reads).2
      apply sorted.imp
      rintro _ _ earlier rfl
      exact Nat.lt_irrefl _ earlier
    case named =>
      intro _ _ member
      obtain ⟨-, _, _, -, -, found, -⟩ := sites member
      rw [nodeName, opened.block, found.label]
      exact ⟨congrArg some found.named, rfl⟩
    case children =>
      intro _ _ member
      obtain ⟨-, _, _, -, -, found, place⟩ := sites member
      rw [found.label, ← labels_of_branches found.inner.branches]
      exact children_yields opened place
    case parent =>
      intro _ _ member _ among
      obtain ⟨_, _, _, tops, descends, found, _⟩ := sites member
      obtain ⟨_, among', found'⟩ := branch_of_mem found.inner.branches among
      obtain ⟨_, line, length⟩ := exists_line descends .top
      have parent := block.parent_child tops (line.child among')
      rw [length, List.length_nil, Nat.zero_add] at parent
      rw [found.label, found'.label]
      exact parent
    case orphan =>
      rw [fits'.label]
      exact block.parent_top (tops ▸ mem_cons_self)
    case properties =>
      intro _ _ member
      obtain ⟨-, _, _, -, -, found, place⟩ := sites member
      obtain ⟨iter, listed, yields⟩ := properties_yields opened place
      refine ⟨iter, _, ?_, yields, shown_properties opened stringsBlock found.inner.shown⟩
      rw [found.label]
      exact listed
    case property =>
      intro _ _ member propName
      obtain ⟨-, _, _, -, -, found, place⟩ := sites member
      rw [found.label]
      refine ⟨_, property_lookup opened place (fun _ => stringsBlock ▸ rfl) propName, ?_⟩
      rcases shown_lookup stringsBlock propName found.inner.shown with ⟨missing, none⟩ | ⟨_, _, one,
        same, shown⟩
      · rw [missing, none]
        rfl
      rw [one, same]
      exact congrArg some (shown_property opened stringsBlock shown).2
    case findByPath =>
      intro path components proper text
      have length := structs_length opened.block
      have enough : structs.length < dt.rounds + 0 := by
        rw [DeviceTree.rounds]
        omega
      obtain ⟨rest, found⟩ : ∃ rest, dt.findSubpath dt.rounds components tree.label
        (some tree.name) =
          some (rest, (tree.follow components).map label) :=
        findSubpath_met opened site fits' distinct enough
      rw [rootName] at found
      rw [DeviceTree.findByPath, splitTerminator_path text proper, top]
      simp only [bind_eq_bind, bind_some, List.head?_cons, List.tail_cons, found]
      rfl

end R9x.Verif.FdtRecover
