import R9x.Verif.FdtBlocks

/-!
# Device trees and their tokens

A device tree has a name, properties and children at each node.
-/

namespace R9x.Verif.FdtTrees

open Core.Fdt FdtTokens FdtForest FdtNodes

/-- A device tree, with a label at each node. -/
inductive Tree (α : Type) where
  | node (label : α) (name : String) (props : List (String × List UInt8)) (children : List (Tree α))

/-- A token of the flattened format, with the names of properties in some form. -/
inductive Token (ν : Type) where
  | beginNode (name : String)
  | endNode
  | prop (name : ν) (value : List UInt8)
  | nop
  | fdtEnd

namespace Tree

variable {α : Type}

def label : Tree α → α
  | .node label _ _ _ => label

def name : Tree α → String
  | .node _ name _ _ => name

/-- The properties of a node. -/
def props : Tree α → List (String × List UInt8)
  | .node _ _ props _ => props

def children : Tree α → List (Tree α)
  | .node _ _ _ children => children

mutual

/-- The tree without its labels. -/
def erase : Tree α → Tree Unit
  | .node _ name props children => .node () name props (eraseAll children)

def eraseAll : List (Tree α) → List (Tree Unit)
  | [] => []
  | tree :: trees => tree.erase :: eraseAll trees

end

mutual

/-- The nodes of a tree in preorder, with their depths. -/
def nodes (depth : Nat) : Tree α → List (Nat × Tree α)
  | .node label name props children => (depth, .node label name props children) :: nodesAll
      (depth + 1) children

def nodesAll (depth : Nat) : List (Tree α) → List (Nat × Tree α)
  | [] => []
  | tree :: trees => tree.nodes depth ++ nodesAll depth trees

end

mutual

/-- The tokens of a tree. -/
def spell : Tree α → List (Token String)
  | .node _ name props children =>
    .beginNode name :: (props.map (fun prop => .prop prop.1 prop.2) ++
      (spellAll children ++ [.endNode]))

def spellAll : List (Tree α) → List (Token String)
  | [] => []
  | tree :: trees => tree.spell ++ spellAll trees

end

mutual

/-- The children of each node have distinct names. -/
def Distinct : Tree α → Prop
  | .node _ _ _ children => (children.map name).Nodup ∧ DistinctAll children

def DistinctAll : List (Tree α) → Prop
  | [] => True
  | tree :: trees => tree.Distinct ∧ DistinctAll trees

end

/-- The node that a path of names leads to. -/
def follow : Tree α → List String → Option (Tree α)
  | tree, [] => some tree
  | tree, name :: names => (tree.children.find? fun child => decide (child.name = name)).bind
      (·.follow names)

end Tree

/-! ## Forests that fit trees -/

def Shows (structs strings : List UInt8) : FdtToken → Token String → Prop
  | .beginNode ctx, .beginNode name => inlineStr structs ctx.nameStart = some name
  | .endNode _, .endNode => True
  | .prop ctx, .prop name value => inlineStr strings ctx.nameStart = some name ∧
      getRange structs ctx.valueStart (ctx.valueStart + ctx.valueLen) = some value
  | .fdtEnd _, .fdtEnd => True
  | _, _ => False

def counts : FdtToken → Bool
  | .nop _ => false
  | _ => true

/-- A forest shows properties and then trees, whose labels are the nodes of the forest. -/
inductive Fits (structs strings : List UInt8) :
    Nat → Forest → List (String × List UInt8) → List (Tree Node) → Prop where
  | nil (depth : Nat) : Fits structs strings depth .nil [] []
  | nop {depth : Nat} {rest : Forest} {props : List (String × List UInt8)}
      {trees : List (Tree Node)}
      (ctx : FdtTokenContext) (more : Fits structs strings depth rest props trees) :
      Fits structs strings depth (.leaf (.nop ctx) rest) props trees
  | prop {depth : Nat} {ctx : FdtPropContext} {name : String} {value : List UInt8} {rest : Forest}
      {props : List (String × List UInt8)} {trees : List (Tree Node)}
      (shown : Shows structs strings (.prop ctx) (.prop name value))
      (more : Fits structs strings depth rest props trees) :
      Fits structs strings depth (.leaf (.prop ctx) rest) ((name, value) :: props) trees
  | node {depth : Nat} {begun : FdtBeginNodeContext} {ended : FdtTokenContext} {name : String}
      {body rest : Forest} {props : List (String × List UInt8)} {children trees : List (Tree Node)}
      (shown : Shows structs strings (.beginNode begun) (.beginNode name))
      (inner : Fits structs strings (depth + 1) body props children)
      (more : Fits structs strings depth rest [] trees) :
      Fits structs strings depth (.node begun body ended rest) []
        (.node (nodeOf depth begun ended) name props children :: trees)

section

variable {structs strings : List UInt8} {located : List FdtToken} {item : Token String}
  {items : List (Token String)} {depth : Nat}

lemma split_nops (shows : List.Forall₂ (Shows structs strings) (located.filter counts)
    (item :: items)) :
    ∃ (nops : List FdtTokenContext) (token : FdtToken) (rest : List FdtToken),
      located = nops.map FdtToken.nop ++ token :: rest ∧ Shows structs strings token item ∧
      List.Forall₂ (Shows structs strings) (rest.filter counts) items := by
  induction located with
  | nil => cases shows
  | cons first located ih =>
    cases first with
    | nop ctx =>
      obtain ⟨nops, token, rest, rfl, shown, more⟩ := ih shows
      exact ⟨ctx :: nops, token, rest, rfl, shown, more⟩
    | beginNode ctx | endNode ctx | prop ctx | fdtEnd ctx =>
      cases shows with
      | cons shown more => exact ⟨[], _, located, rfl, shown, more⟩

def withNops (nops : List FdtTokenContext) (forest : Forest) : Forest :=
  nops.foldr (fun ctx => Forest.leaf (.nop ctx)) forest

lemma tokens_withNops (nops : List FdtTokenContext) (forest : Forest) :
    (withNops nops forest).tokens = nops.map FdtToken.nop ++ forest.tokens := by
  induction nops with
  | nil => rfl
  | cons ctx _ ih => exact congrArg (FdtToken.nop ctx :: ·) ih

lemma Fits.withNops {forest : Forest} {props : List (String × List UInt8)}
    {trees : List (Tree Node)}
    (fits : Fits structs strings depth forest props trees) (nops : List FdtTokenContext) :
    Fits structs strings depth (FdtTrees.withNops nops forest) props trees := by
  induction nops with
  | nil => exact fits
  | cons ctx _ ih => exact .nop ctx ih

def Leaves (structs strings : List UInt8) (depth : Nat) (located : List FdtToken)
    (props : List (String × List UInt8)) (trees : List (Tree Unit)) (item : Token String)
    (items : List (Token String)) : Prop :=
  ∃ (forest : Forest) (marked : List (Tree Node)) (token : FdtToken) (rest : List FdtToken),
    located = forest.tokens ++ token :: rest ∧ Tree.eraseAll marked = trees ∧
    Fits structs strings depth forest props marked ∧ Shows structs strings token item ∧
    List.Forall₂ (Shows structs strings) (rest.filter counts) items

lemma fits_props {trees : List (Tree Unit)} {later : List (Token String)}
    (props : List (String × List UInt8))
    (shows : List.Forall₂ (Shows structs strings) (located.filter counts)
      (props.map (fun prop => Token.prop prop.1 prop.2) ++ later))
    (read : ∀ located, List.Forall₂ (Shows structs strings) (located.filter counts) later →
      Leaves structs strings depth located [] trees item items) :
    Leaves structs strings depth located props trees item items := by
  induction props generalizing located with
  | nil => exact read located shows
  | cons prop _ ih =>
    obtain ⟨nops, token, _, rfl, shown, more⟩ := split_nops shows
    obtain ⟨forest, marked, token', rest', rfl, erased, fits, shown', more'⟩ := ih more
    cases token with
    | prop ctx =>
      refine ⟨withNops nops (.leaf (.prop ctx) forest), marked, token', rest', ?_, erased,
        Fits.withNops (.prop shown fits) nops, shown', more'⟩
      rw [tokens_withNops, List.append_assoc]
      rfl
    | beginNode ctx | endNode ctx | nop ctx | fdtEnd ctx => exact shown.elim

lemma fits_all (depth : Nat) : (trees : List (Tree Unit)) → (located : List FdtToken) →
    (item : Token String) → (items : List (Token String)) →
    List.Forall₂ (Shows structs strings) (located.filter counts)
      (Tree.spellAll trees ++ item :: items) →
    Leaves structs strings depth located [] trees item items
  | [], located, item, items, shows => by
    obtain ⟨nops, token, rest, rfl, shown, more⟩ := split_nops shows
    refine ⟨withNops nops .nil, [], token, rest, ?_, rfl, Fits.withNops (.nil depth) nops,
      shown, more⟩
    rw [tokens_withNops]
    exact congrArg (· ++ token :: rest) (List.append_nil _).symm
  | .node () name props children :: trees, located, item, items, shows => by
    simp only [Tree.spellAll, Tree.spell, List.cons_append, List.append_assoc,
      List.nil_append] at shows
    obtain ⟨nops, token, _, rfl, shown, more⟩ := split_nops shows
    obtain ⟨body, _, token', rest', rfl, erased, fits, shown', more'⟩ :=
      fits_props props more fun located shows =>
        fits_all (depth + 1) children located .endNode (Tree.spellAll trees ++ item :: items) shows
    obtain ⟨forest, _, token'', rest'', rfl, erased', fits', shown'', more''⟩ :=
      fits_all depth trees rest' item items more'
    cases token with
    | beginNode begun =>
      cases token' with
      | endNode ended =>
        refine ⟨withNops nops (.node begun body ended forest), _, token'', rest'', ?_, ?_,
          Fits.withNops (.node shown fits fits') nops, shown'', more''⟩
        · rw [tokens_withNops]
          simp only [Forest.tokens, List.append_assoc, List.cons_append]
        · simp only [Tree.eraseAll, Tree.erase, erased, erased']
      | beginNode ctx | prop ctx | nop ctx | fdtEnd ctx => exact shown'.elim
    | endNode ctx | prop ctx | nop ctx | fdtEnd ctx => exact shown.elim

end

/-! ## What a forest shows -/

/-- A node of a forest shows a tree. -/
structure FitsBranch (structs strings : List UInt8) (depth : Nat) (branch : Branch)
    (tree : Tree Node) : Prop where
  label : tree.label = branch.node depth
  named : inlineStr structs branch.begun.nameStart = some tree.name
  inner : Fits structs strings (depth + 1) branch.body tree.props tree.children

variable {structs strings : List UInt8} {depth : Nat} {forest : Forest}
  {props : List (String × List UInt8)} {trees : List (Tree Node)}
  {tops : List Branch}

lemma Fits.branches (fits : Fits structs strings depth forest props trees) :
    List.Forall₂ (FitsBranch structs strings depth) forest.tops trees := by
  induction fits with
  | nil => exact .nil
  | nop ctx more ih | prop shown more ih => exact ih
  | node shown inner _ _ ih => exact .cons ⟨rfl, shown, inner⟩ ih

section

variable (branches : List.Forall₂ (FitsBranch structs strings depth) tops trees)
include branches

lemma labels_of_branches : tops.map (Branch.node depth) = trees.map Tree.label := by
  induction branches with
  | nil => rfl
  | cons first _ ih => rw [List.map_cons, List.map_cons, ih, first.label]

lemma branch_of_mem {tree : Tree Node} (member : tree ∈ trees) :
    ∃ branch ∈ tops, FitsBranch structs strings depth branch tree := by
  induction branches with
  | nil => cases member
  | @cons branch _ _ _ first _ ih =>
    rcases List.mem_cons.mp member with rfl | member
    · exact ⟨branch, List.mem_cons_self, first⟩
    obtain ⟨found, among, fits⟩ := ih member
    exact ⟨found, List.mem_cons_of_mem _ among, fits⟩

end

variable (fits : Fits structs strings depth forest props trees)
include fits

lemma Fits.shown :
    List.Forall₂ (fun ctx prop => Shows structs strings (.prop ctx) (.prop prop.1 prop.2))
      forest.props props := by
  induction fits with
  | nil depth | node => exact .nil
  | nop _ _ ih => exact ih
  | prop shown _ ih => exact .cons shown ih

lemma Fits.preorder : forest.preorder depth = (Tree.nodesAll depth trees).map fun found =>
    found.2.label := by
  induction fits with
  | nil => rfl
  | nop ctx more ih | prop shown more ih => exact ih
  | node _ _ _ ihInner ihMore =>
    simp only [Forest.preorder, Tree.nodesAll, Tree.nodes, List.cons_append, List.map_cons,
      List.map_append,
      ihInner, ihMore, Tree.label]

lemma Fits.found {level : Nat} {tree : Tree Node}
    (member : (level, tree) ∈ Tree.nodesAll depth trees) :
    ∃ top ∈ forest.tops, ∃ levels branch, Descends top branch levels ∧ level = depth + levels ∧
      FitsBranch structs strings level branch tree := by
  induction fits with
  | nil => cases member
  | nop ctx more ih | prop shown more ih => exact ih member
  | @node depth begun ended name body rest props children trees shown inner more ihInner ihMore =>
    simp only [Tree.nodesAll, Tree.nodes, List.cons_append, List.mem_cons,
      List.mem_append] at member
    rcases member with here | below | later
    · cases here
      exact ⟨_, List.mem_cons_self, 0, _, .here _, rfl, rfl, shown, inner⟩
    · obtain ⟨top, member, levels, branch, descends, deeper, fits⟩ := ihInner below
      refine ⟨_, List.mem_cons_self, levels + 1, branch, .step member descends, ?_, fits⟩
      omega
    obtain ⟨top, member, found⟩ := ihMore later
    exact ⟨top, List.mem_cons_of_mem _ member, found⟩

end R9x.Verif.FdtTrees
