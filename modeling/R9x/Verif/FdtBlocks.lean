import R9x.Verif.FdtNodes

/-!
# Whole structure blocks

The tokens of a structure block are a forest and then nodes that never end, or a node ends that has
not begun.
-/

namespace R9x.Verif.FdtBlocks

open Lib Core.Fdt FdtTokens FdtForest FdtNodes
open NodesIter (next)

variable {dt : DeviceTree} {structs : List UInt8}

/-! ## Nodes that never end -/

/-- Nodes that begin and never end. -/
inductive Torn : List FdtToken → Prop where
  | nil : Torn []
  | leaf {rest : List FdtToken} (mark : Leaf) (more : Torn rest) : Torn (mark.token :: rest)
  | node {rest : List FdtToken} (begun : FdtBeginNodeContext) (body : Forest) (more : Torn rest) :
      Torn (.beginNode begun :: (body.tokens ++ rest))

section

variable {depth nodeDepth : Nat} {begun : Option FdtBeginNodeContext} {torn : List FdtToken}

section

variable (unended : Torn torn)
include unended

lemma Torn.above : Above depth torn := by
  induction unended generalizing depth with
  | nil => exact trivial
  | leaf mark _ ih => exact (above_leaf mark).mpr ih
  | node _ body _ ih => exact (above_forest body).mpr ih

lemma Torn.inside (inside : nodeDepth < depth) : findNode nodeDepth torn depth begun =
    some none := by
  induction unended generalizing depth begun with
  | nil => rfl
  | leaf mark _ ih => exact (findNode_leaf mark).trans (ih inside)
  | node _ body _ ih =>
    rw [findNode, if_neg (Nat.ne_of_gt inside), findNode_inside body (Nat.lt_succ_of_lt inside)]
    exact ih (Nat.lt_succ_of_lt inside)

lemma Torn.findNode : findNode depth torn depth begun = some none := by
  induction unended with
  | nil => rfl
  | leaf mark _ ih => exact (findNode_leaf mark).trans ih
  | node _ body more =>
    rw [FdtTokens.findNode, if_pos rfl, findNode_inside body (Nat.lt_succ_self depth)]
    exact more.inside (Nat.lt_succ_self depth)

lemma Torn.nextNode : nextNode structs torn depth = some none := by
  induction unended with
  | nil => rfl
  | leaf mark _ ih =>
    rw [← ih]
    cases mark <;> rfl
  | node _ body more =>
    rw [FdtTokens.nextNode, findNode_inside body (Nat.lt_succ_self depth),
      more.inside (Nat.lt_succ_self depth)]
    rfl

end

lemma exists_forest (tokens : List FdtToken) :
    ∃ forest rest, tokens = Forest.tokens forest ++ rest ∧
      (Torn rest ∨ ∃ ctx after, rest = .endNode ctx :: after) := by
  induction size : tokens.length using Nat.strongRecOn generalizing tokens with
  | ind size' ih =>
    subst size
    have leaf : ∀ (mark : Leaf) (after : List FdtToken), tokens = mark.token :: after →
        ∃ forest rest, tokens = Forest.tokens forest ++ rest ∧
          (Torn rest ∨ ∃ ctx after, rest = .endNode ctx :: after) := by
      rintro mark after rfl
      obtain ⟨forest, rest, rfl, ended⟩ := ih after.length (Nat.lt_succ_self _) after rfl
      exact ⟨.leaf mark forest, rest, rfl, ended⟩
    match tokens with
    | [] => exact ⟨.nil, [], rfl, .inl .nil⟩
    | .prop ctx :: after => exact leaf (.prop ctx) after rfl
    | .nop ctx :: after => exact leaf (.nop ctx) after rfl
    | .fdtEnd ctx :: after => exact leaf (.fdtEnd ctx) after rfl
    | .endNode ctx :: after => exact ⟨.nil, _, rfl, .inr ⟨ctx, after, rfl⟩⟩
    | .beginNode begun :: after =>
      obtain ⟨body, rest, rfl, ended⟩ := ih after.length (Nat.lt_succ_self _) after rfl
      rcases ended with unended | ⟨ctx, later, rfl⟩
      · exact ⟨.nil, _, rfl, .inl (.node begun body unended)⟩
      have shorter : later.length <
        (FdtToken.beginNode begun :: (body.tokens ++ .endNode ctx :: later)).length := by
        simp only [List.length_cons, List.length_append]
        omega
      obtain ⟨forest, rest, rfl, ended⟩ := ih later.length shorter later rfl
      refine ⟨.node begun body ctx forest, rest, ?_, ended⟩
      simp only [Forest.tokens, List.cons_append, List.append_assoc]

end

/-! ## The nodes of a block -/

/-- A structure block whose tokens are a forest and then nodes that never end. -/
structure Block (dt : DeviceTree) (structs : List UInt8) (forest : Forest) (torn : List FdtToken) :
    Prop where
  opened : Opened dt structs
  reads : Reads structs 0 (forest.tokens ++ torn)
  unended : Torn torn

section

variable {i depth : Nat} {forest : Forest} {tail torn : List FdtToken} {items : List Node}
  {ended : FdtTokenContext}

section

variable (opened : Opened dt structs)
include opened

lemma nextNode_node {begun : FdtBeginNodeContext} {body : Forest}
    (reads : Reads structs i (.beginNode begun :: (body.tokens ++ .endNode ended :: tail)))
    (deep : depth ≤ i) :
    next dt ⟨structs, i, depth⟩ =
      some (some (nodeOf depth begun ended, ⟨structs, i + begun.totalLen, depth + 1⟩)) := by
  have here : begun.start = i := reads.start_eq opened.small
  rw [opened.nextNode reads deep, nextNode, findNode_inside body (Nat.lt_succ_self depth), findNode,
    if_pos rfl, here]
  rfl

lemma nextNode_end (reads : Reads structs i (.endNode ended :: tail)) (deep : depth + 1 ≤ i) :
    next dt ⟨structs, i, depth + 1⟩ = next dt ⟨structs, i + ended.totalLen, depth⟩ := by
  rw [opened.nextNode reads deep]
  exact (opened.nextNode reads.2.2 (Nat.le_add_right_of_le (Nat.le_of_succ_le deep))).symm

lemma nextNode_leaf {mark : Leaf} (reads : Reads structs i (mark.token :: tail))
    (deep : depth ≤ i) :
    next dt ⟨structs, i, depth⟩ = next dt ⟨structs, i + mark.token.totalLen, depth⟩ := by
  rw [opened.nextNode reads deep, opened.nextNode reads.2.2 (Nat.le_add_right_of_le deep)]
  cases mark <;> rfl

lemma nodes_forest (reads : Reads structs i (forest.tokens ++ tail)) (deep : depth ≤ i)
    (rest : ∀ k, Reads structs k tail → depth ≤ k → Yields (next dt) ⟨structs, k, depth⟩ items) :
    Yields (next dt) ⟨structs, i, depth⟩ (forest.preorder depth ++ items) := by
  induction forest generalizing i depth tail items with
  | nil => exact rest i reads deep
  | leaf _ _ ih =>
    exact (ih reads.2.2 (Nat.le_add_right_of_le deep) rest).of_eq (nextNode_leaf opened reads deep)
  | node begun body ended forest ihBody ihRest =>
    rw [Forest.tokens, List.cons_append, List.append_assoc, List.cons_append] at reads
    have least := (parsed_of_parseToken opened.small reads.2.1).least
    have given := nextNode_node opened reads deep
    rw [Forest.preorder, List.cons_append, List.append_assoc]
    apply Yields.item given
    apply ihBody reads.2.2 (by omega)
    intro _ ends deep'
    have after := ihRest ends.2.2 (Nat.le_add_right_of_le (Nat.le_of_succ_le deep')) rest
    exact after.of_eq (nextNode_end opened ends deep')

lemma nodes_after (reads : Reads structs i (forest.tokens ++ tail)) (deep : depth ≤ i)
    (yields : Yields (next dt) ⟨structs, i, depth⟩ items) :
    ∃ k rest, Reads structs k tail ∧ depth ≤ k ∧ Yields (next dt) ⟨structs, k, depth⟩ rest := by
  induction forest generalizing i depth tail items with
  | nil => exact ⟨i, items, reads, deep, yields⟩
  | leaf _ _ ih =>
    exact ih reads.2.2 (Nat.le_add_right_of_le deep)
      (yields.of_eq (nextNode_leaf opened reads deep).symm)
  | node begun body ended forest ihBody ihRest =>
    rw [Forest.tokens, List.cons_append, List.append_assoc, List.cons_append] at reads
    have least := (parsed_of_parseToken opened.small reads.2.1).least
    have given := nextNode_node opened reads deep
    cases yields with
    | done ended => cases ended.symm.trans given
    | item given' more =>
      obtain ⟨-, rfl⟩ := Prod.mk.inj (Option.some.inj (Option.some.inj (given'.symm.trans given)))
      obtain ⟨_, _, ends, deep', later⟩ := ihBody reads.2.2 (by omega) more
      exact ihRest ends.2.2 (Nat.le_add_right_of_le (Nat.le_of_succ_le deep'))
        (later.of_eq (nextNode_end opened ends deep').symm)

end

lemma Block.nodes (block : Block dt structs forest torn) :
    ∃ iter, dt.nodes = some iter ∧ Yields (next dt) iter (forest.preorder 0) := by
  refine ⟨⟨structs, 0, 0⟩, ?_, ?_⟩
  · rw [DeviceTree.nodes, block.opened.block]
    rfl
  · rw [← List.append_nil (forest.preorder 0)]
    apply nodes_forest block.opened block.reads (Nat.le_refl 0)
    intro _ reads deep
    apply Yields.done
    rw [block.opened.nextNode reads deep, block.unended.nextNode]

lemma nodes_panic (opened : Opened dt structs)
    (reads : Reads structs 0 (forest.tokens ++ .endNode ended :: tail)) :
    ¬ Yields (next dt) ⟨structs, 0, 0⟩ items := by
  intro yields
  obtain ⟨k, _, ends, deep, more⟩ := nodes_after opened reads (Nat.le_refl 0) yields
  have panics : next dt ⟨structs, k, 0⟩ = none := opened.nextNode ends deep
  cases more with
  | done ended => cases panics.symm.trans ended
  | item given => cases panics.symm.trans given

end

/-! ## Parents -/

/-- A node below another one, with the nodes between them and the other one, the nearest first. -/
inductive Line (top : Branch) : Branch → List Branch → Prop where
  | top : Line top top []
  | child {parent branch : Branch} {ancestors : List Branch} (line : Line top parent ancestors)
      (member : branch ∈ parent.body.tops) : Line top branch (parent :: ancestors)

variable {depth levels : Nat} {forest : Forest} {tail torn : List FdtToken}
  {top root branch parent : Branch}
  {others ancestors : List Branch}

lemma Line.descends (line : Line top branch ancestors) : Descends top branch ancestors.length := by
  induction line with
  | top => exact .here top
  | child _ member ih => exact ih.snoc member

lemma exists_line (descends : Descends top branch levels) :
    ∀ {above : List Branch} {root : Branch}, Line root top above →
      ∃ ancestors, Line root branch ancestors ∧ ancestors.length = above.length + levels := by
  induction descends with
  | here => exact fun line => ⟨_, line, rfl⟩
  | step member _ ih =>
    intro above root line
    obtain ⟨ancestors, found, length⟩ := ih (line.child member)
    refine ⟨ancestors, found, ?_⟩
    rw [length, List.length_cons]
    omega

lemma findNode_tops (forest : Forest) (begun : Option FdtBeginNodeContext) :
    findNode depth (forest.tokens ++ tail) depth begun = match forest.tops with
      | [] => findNode depth tail depth begun
      | branch :: _ => some (some (branch.node depth)) := by
  induction forest with
  | nil => rfl
  | leaf mark _ ih => exact (findNode_leaf mark).trans ih
  | node ctx body ended rest =>
    exact (congrArg (findNode depth · depth begun) (tokens_node ⟨ctx, body, ended⟩ rest)).trans
      (findNode_branch ⟨ctx, body, ended⟩)

section

variable (block : Block dt structs forest torn)
include block

lemma Block.first_node : dt.root = some (forest.tops.head?.map (Branch.node 0)) := by
  rw [DeviceTree.root, block.opened.nodeFromIndex block.reads (Nat.le_refl 0), findNode_tops]
  cases forest.tops with
  | nil => exact block.unended.findNode
  | cons => rfl

lemma Block.sites : (∀ top ∈ forest.tops, ∃ tail, Site structs 0 top tail) ∧
      forest.tops.Pairwise fun first second => first.stop ≤ second.start := by
  obtain ⟨sites, ordered⟩ :=
    site_tops block.opened.small block.reads block.unended.above (Nat.le_refl 0)
  exact ⟨fun top member => (sites top member).2.1, ordered⟩

lemma Block.site (member : top ∈ forest.tops) (line : Line top branch ancestors) :
    ∃ tail, Site structs ancestors.length branch tail := by
  obtain ⟨_, site⟩ := block.sites.1 top member
  obtain ⟨⟨tail', found⟩, -⟩ := line.descends.site block.opened.small site
  rw [Nat.zero_add] at found
  exact ⟨tail', found⟩

lemma Block.parent_eq (tops : forest.tops = root :: others) (target : Node) :
    dt.parent target = dt.findParent (dt.header.sizeDtStruct + 1) (root.node 0) target := by
  rw [DeviceTree.parent, block.first_node, tops]
  rfl

lemma Block.parent_child (tops : forest.tops = root :: others)
    (line : Line root branch (parent :: ancestors)) :
    dt.parent (branch.node (ancestors.length + 1)) =
      some (some (parent.node ancestors.length)) := by
  obtain ⟨tail, site⟩ := block.sites.1 root (tops ▸ List.mem_cons_self)
  cases line with
  | child line member =>
    obtain ⟨⟨tail', place⟩, -⟩ := line.descends.site block.opened.small site
    have deep := place.deep
    have inside := place.reads.1
    have length := structs_length block.opened.block
    have enough : ancestors.length < dt.header.sizeDtStruct + 1 := by omega
    have found := findParent_descends block.opened site line.descends member enough
    rw [Nat.zero_add] at found
    exact (block.parent_eq tops _).trans found

lemma Block.parent_top (member : top ∈ forest.tops) : dt.parent (top.node 0) = some none := by
  obtain ⟨_, place⟩ := block.sites.1 top member
  cases tops : forest.tops with
  | nil =>
    rw [tops] at member
    cases member
  | cons root =>
    obtain ⟨_, site⟩ := block.sites.1 root (tops ▸ List.mem_cons_self)
    exact (block.parent_eq tops _).trans
      (findParent_level (encloses_site block.opened.small site place) (Nat.le_refl 0))

lemma Block.parent_other (tops : forest.tops = root :: others) (member : top ∈ others)
    (line : Line top branch ancestors) : dt.parent (branch.node ancestors.length) = some none := by
  have small := block.opened.small
  obtain ⟨sites, ordered⟩ := block.sites
  rw [tops] at sites ordered
  obtain ⟨tail, site⟩ := sites root List.mem_cons_self
  obtain ⟨tail', place⟩ := sites top (List.mem_cons_of_mem _ member)
  obtain ⟨⟨rest, found⟩, starts, -⟩ := line.descends.site small place
  rw [Nat.zero_add] at found
  have order := found.order small
  have apart := (List.pairwise_cons.mp ordered).1 top member
  apply (block.parent_eq tops _).trans
  apply findParent_outside
  rw [encloses_site small site found, decide_eq_false (show ¬ branch.stop ≤ root.stop by omega),
    Bool.and_false]

end

lemma mem_preorder {node : Node} : node ∈ forest.preorder depth ↔ ∃ top ∈ forest.tops,
    ∃ levels branch,
      Descends top branch levels ∧ node = branch.node (depth + levels) := by
  induction forest generalizing depth with
  | nil => simp [Forest.preorder, Forest.tops]
  | leaf _ _ ih => exact ih
  | node _ _ _ _ ihBody ihRest =>
    simp only [Forest.preorder, Forest.tops, List.mem_cons, List.mem_append, ihBody, ihRest]
    constructor
    · rintro (rfl | ⟨top, member, levels, branch, descends, rfl⟩ | ⟨top, member, found⟩)
      · exact ⟨_, .inl rfl, 0, _, .here _, rfl⟩
      · refine ⟨_, .inl rfl, levels + 1, branch, .step member descends, ?_⟩
        rw [Nat.add_right_comm, Nat.add_assoc]
      · exact ⟨top, .inr member, found⟩
    · rintro ⟨top, rfl | member, levels, branch, descends, rfl⟩
      · cases descends with
        | here => exact .inl rfl
        | @step _ child _ levels member more =>
          refine .inr (.inl ⟨child, member, levels, branch, more, ?_⟩)
          rw [Nat.add_right_comm, Nat.add_assoc]
      · exact .inr (.inr ⟨top, member, levels, branch, descends, rfl⟩)

end R9x.Verif.FdtBlocks
