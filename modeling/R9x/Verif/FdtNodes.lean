import R9x.Verif.FdtForest

/-!
# What the reader finds in a forest

`children`, `parent`, `nodes` and `properties` on a structure block whose tokens form a forest.
-/

namespace R9x.Verif.FdtNodes

open Lib Core.Fdt FdtTokens FdtForest
open Option (bind_eq_bind bind_some)
open ChildrenIter (next)
open PropertiesIter (scan)
open DeviceTree (findParent)

variable {dt : DeviceTree} {structs : List UInt8}

/-! ## Children -/

section

variable {i depth : Nat} {branch : Branch} {tail : List FdtToken}

lemma encloses_eq {node child : Node} (near : node.start + node.totalLen < 2 ^ 64)
    (near' : child.start + child.totalLen < 2 ^ 64) :
    node.encloses child = some (decide (node.start ≤ child.start) &&
      decide (child.start + child.totalLen ≤ node.start + node.totalLen)) := by
  rw [Node.encloses, checkedAdd_of_lt near, checkedAdd_of_lt near']
  rfl

lemma childrenNext_refused {parent child : Node}
    (found : dt.nodeFromIndex i depth = some (some child))
    (refused : parent.encloses child = some false) :
    next dt ⟨parent, depth, i⟩ = some none := by
  simp only [next, found, refused, bind_eq_bind, bind_some]
  rfl

lemma childrenNext_given {parent child : Node}
    (found : dt.nodeFromIndex i depth = some (some child))
    (enclosed : parent.encloses child = some true) (near : child.start + child.totalLen < 2 ^ 64) :
    next dt ⟨parent, depth, i⟩ =
      some (some (child, ⟨parent, depth, child.start + child.totalLen⟩)) := by
  simp only [next, found, enclosed, checkedAdd_of_lt near, bind_eq_bind, bind_some]
  rfl

variable (opened : Opened dt structs) (site : Site structs depth branch tail)
include opened site

lemma children_end (reads : Reads structs i (.endNode branch.ended :: tail))
    (deep : depth + 1 ≤ i) :
    next dt ⟨branch.node depth, depth + 1, i⟩ = some none := by
  have small := opened.small
  have span := site.span small depth
  obtain ⟨found, scanned, beyond⟩ : ∃ found, findNode (depth + 1) tail depth none = some found ∧
      ∀ node, found = some node →
        branch.stop ≤ node.start ∧ 0 < node.totalLen ∧ node.start + node.totalLen < 2 ^ 64 :=
    findNode_beyond small (site.after small) site.above (Nat.le_refl _) nofun
  have result : dt.nodeFromIndex i (depth + 1) = some found := by
    rw [opened.nodeFromIndex reads deep, findNode, if_neg (Nat.ne_of_lt (Nat.lt_succ_self depth)),
      scanned]
  cases found with
  | none =>
    simp only [next, result, bind_eq_bind, bind_some]
    rfl
  | some node =>
    obtain ⟨later, wide, near⟩ := beyond node rfl
    have outside : ¬ node.start + node.totalLen ≤ (branch.node depth).start +
      (branch.node depth).totalLen := by
      omega
    apply childrenNext_refused result
    rw [encloses_eq (by omega) near, decide_eq_false outside, Bool.and_false]

lemma children_from {forest : Forest}
    (reads : Reads structs i (forest.tokens ++ .endNode branch.ended :: tail))
    (inside : branch.inner ≤ i) :
    Yields (next dt) ⟨branch.node depth, depth + 1, i⟩
      (forest.tops.map (Branch.node (depth + 1))) := by
  have small := opened.small
  have order := site.order small
  have deep := site.deep
  have span := site.span small depth
  induction forest generalizing i with
  | nil => exact .done (children_end opened site reads (by omega))
  | leaf mark rest ih =>
    have later : branch.inner ≤ i + mark.token.totalLen := Nat.le_add_right_of_le inside
    apply (ih reads.2.2 later).of_eq
    have same : dt.nodeFromIndex i (depth + 1) = dt.nodeFromIndex (i + mark.token.totalLen)
      (depth + 1) := by
      rw [opened.nodeFromIndex reads (by omega), opened.nodeFromIndex reads.2.2 (by omega)]
      exact findNode_leaf mark
    simp only [next, same]
  | node begun body ended rest _ ih =>
    let child : Branch := ⟨begun, body, ended⟩
    have above : Above (depth + 1) (.endNode branch.ended :: tail) := site.above
    obtain ⟨start, place⟩ : child.start = i ∧
        Site structs (depth + 1) child (rest.tokens ++ .endNode branch.ended :: tail) :=
      site_head reads small above (by omega)
    have width := place.span small (depth + 1)
    have order' := place.order small
    have within := ((place.after small).at_start small).2
    have upto : child.stop ≤ branch.ended.start := Nat.le_trans (Nat.le_add_right _ _) within
    have result : dt.nodeFromIndex i (depth + 1) = some (some (child.node (depth + 1))) := by
      rw [opened.nodeFromIndex reads (by omega), tokens_node child rest]
      exact findNode_branch child
    have starts : (branch.node depth).start ≤ (child.node (depth + 1)).start := by
      change branch.start ≤ child.start
      omega
    have stops : (child.node (depth + 1)).start + (child.node (depth + 1)).totalLen ≤
        (branch.node depth).start + (branch.node depth).totalLen := by omega
    apply Yields.item _ (ih (place.after small) (by omega))
    have enclosed : (branch.node depth).encloses (child.node (depth + 1)) = some true := by
      rw [encloses_eq (by omega) (by omega), decide_eq_true starts, decide_eq_true stops]
      rfl
    rw [childrenNext_given result enclosed (by omega), width]

lemma children_yields : ∃ iter, dt.children (branch.node depth) = some iter ∧
      Yields (next dt) iter (branch.body.tops.map (Branch.node (depth + 1))) := by
  have order := site.order opened.small
  have deep := site.deep
  refine ⟨⟨branch.node depth, depth + 1, branch.inner⟩, ?_, ?_⟩
  · change (checkedAdd depth 1).bind _ = _
    rw [checkedAdd_of_lt (by omega)]
    rfl
  · exact children_from opened site site.body (Nat.le_refl _)

end

/-! ## Parents -/

/-- A node and one that is some levels below it. -/
inductive Descends : Branch → Branch → Nat → Prop where
  | here (branch : Branch) : Descends branch branch 0
  | step {branch child below : Branch} {levels : Nat} (member : child ∈ branch.body.tops)
      (more : Descends child below levels) : Descends branch below (levels + 1)

section

variable {depth levels fuel : Nat} {branch parent child : Branch} {tail : List FdtToken}

lemma Descends.snoc (descends : Descends branch parent levels) (member : child ∈ parent.body.tops) :
    Descends branch child (levels + 1) := by
  induction descends with
  | here => exact .step member (.here child)
  | step first _ ih => exact .step first (ih member)

lemma Descends.site (small : structs.length < 2 ^ 32) (descends : Descends branch parent levels)
    (site : Site structs depth branch tail) :
    (∃ tail', Site structs (depth + levels) parent tail') ∧ branch.start ≤ parent.start ∧
      parent.stop ≤ branch.stop := by
  induction descends generalizing depth tail with
  | here => exact ⟨⟨tail, site⟩, Nat.le_refl _, Nat.le_refl _⟩
  | @step branch child below levels member more ih =>
    have order := site.order small
    obtain ⟨later, upto, tail', place⟩ := (site.children small).1 child member
    obtain ⟨⟨rest, found⟩, starts, stops⟩ := ih place
    rw [Nat.add_right_comm] at found
    exact ⟨⟨rest, found⟩, by omega, by omega⟩

lemma tops_length_le (forest : Forest) : forest.tops.length ≤ forest.tokens.length := by
  induction forest with
  | nil => exact Nat.le_refl 0
  | leaf _ _ ih => exact Nat.le_succ_of_le ih
  | node =>
    simp only [Forest.tops, Forest.tokens, List.length_cons, List.length_append]
    omega

variable {node target : Node}

lemma findParent_outside (outside : node.encloses target = some false) :
    dt.findParent (fuel + 1) node target = some none := by
  rw [findParent, outside]
  rfl

lemma findParent_level {encloses : Bool} (compared : node.encloses target = some encloses)
    (level : target.depth ≤ node.depth) : dt.findParent (fuel + 1) node target = some none := by
  rw [findParent, compared]
  simp only [bind_eq_bind, bind_some]
  rw [if_pos (.inr level)]
  rfl

lemma findParent_direct (encloses : node.encloses target = some true)
    (level : target.depth = node.depth + 1) (near : target.depth < 2 ^ 64) :
    dt.findParent (fuel + 1) node target = some (some node) := by
  rw [findParent, encloses]
  simp only [bind_eq_bind, bind_some]
  rw [if_neg (by simp only [Bool.true_eq_false, false_or]; omega), checkedAdd_of_lt (by omega)]
  simp only [bind_some]
  rw [if_neg (by omega)]
  rfl

lemma findParent_below {found : Node} {iter : ChildrenIter}
    (encloses : node.encloses target = some true) (level : node.depth + 1 < target.depth)
    (near : target.depth < 2 ^ 64) (listed : dt.children node = some iter)
    (searched : firstNext (next dt) (fun inner => dt.findParent fuel inner target) dt.rounds iter =
      some (some found)) : dt.findParent (fuel + 1) node target = some (some found) := by
  rw [findParent, encloses]
  simp only [bind_eq_bind, bind_some]
  rw [if_neg (by simp only [Bool.true_eq_false, false_or]; omega), checkedAdd_of_lt (by omega)]
  simp only [bind_some]
  rw [if_pos level, listed]
  simp only [bind_some, searched]
  rfl

lemma encloses_site (small : structs.length < 2 ^ 32) {depth' : Nat} {tail' : List FdtToken}
    (site : Site structs depth branch tail) (place : Site structs depth' child tail') :
    (branch.node depth).encloses (child.node depth') =
      some (decide (branch.start ≤ child.start) && decide (child.stop ≤ branch.stop)) := by
  have order := site.order small
  have order' := place.order small
  have span := site.span small depth
  have span' := place.span small depth'
  rw [encloses_eq (by omega) (by omega), span, span']
  rfl

/-- `find_parent` finds the parent of a child from any node above it. -/
lemma findParent_descends (opened : Opened dt structs) (site : Site structs depth branch tail)
    (descends : Descends branch parent levels) (member : child ∈ parent.body.tops)
    (enough : levels < fuel) :
    dt.findParent fuel (branch.node depth) (child.node (depth + levels + 1)) =
      some (some (parent.node (depth + levels))) := by
  have small := opened.small
  induction descends generalizing depth tail fuel with
  | here =>
    obtain ⟨fuel, rfl⟩ := Nat.exists_eq_succ_of_ne_zero (Nat.ne_of_gt enough)
    have order := site.order small
    obtain ⟨later, upto, tail', place⟩ := (site.children small).1 child member
    have deep := place.deep
    have order' := place.order small
    apply findParent_direct
    · rw [Nat.add_zero, encloses_site small site place, decide_eq_true (by omega),
        decide_eq_true (by omega)]
      rfl
    · rfl
    · change depth + 0 + 1 < 2 ^ 64
      omega
  | @step branch middle below levels first more ih =>
    obtain ⟨fuel, rfl⟩ := Nat.exists_eq_succ_of_ne_zero (Nat.ne_of_gt (Nat.zero_lt_of_lt enough))
    have order := site.order small
    obtain ⟨sites, ordered⟩ := site.children small
    obtain ⟨later, upto, tail', place⟩ := sites middle first
    have down := ih place member (Nat.lt_of_succ_lt_succ enough)
    obtain ⟨⟨rest, found⟩, starts, stops⟩ := (more.snoc member).site small place
    have levelled : depth + 1 + (levels + 1) = depth + (levels + 1) + 1 := by omega
    rw [levelled] at found
    have deep := found.deep
    have order' := found.order small
    obtain ⟨iter, listed, yields⟩ := children_yields opened site
    apply findParent_below _ _ _ listed
    · rw [yields.first]
      · obtain ⟨before, after, split⟩ := List.append_of_mem first
        rw [split, List.map_append, List.map_cons]
        apply firstList_append
        · intro other listed
          obtain ⟨sibling, member', rfl⟩ := List.mem_map.mp listed
          have among : sibling ∈ branch.body.tops := by
            rw [split]
            exact List.mem_append_left _ member'
          obtain ⟨-, -, tail'', place'⟩ := sites sibling among
          rw [split] at ordered
          have earlier := (List.pairwise_append.mp ordered).2.2 sibling member' middle
            List.mem_cons_self
          obtain ⟨fuel, rfl⟩ := Nat.exists_eq_succ_of_ne_zero
            (Nat.ne_of_gt (Nat.zero_lt_of_lt (Nat.lt_of_succ_lt_succ enough)))
          apply findParent_outside
          rw [encloses_site small place' found,
            decide_eq_false (show ¬ child.stop ≤ sibling.stop by omega),
            Bool.and_false]
        · rw [Nat.add_assoc depth 1 levels, Nat.add_comm 1 levels] at down
          exact down
      · have fewer := opened.enough site.body
        have count := tops_length_le branch.body
        rw [List.length_append] at fewer
        rw [List.length_map]
        omega
    · rw [encloses_site small site found, decide_eq_true (by omega), decide_eq_true (by omega)]
      rfl
    · change depth + 1 < depth + (levels + 1) + 1
      omega
    · change depth + (levels + 1) + 1 < 2 ^ 64
      omega

end

/-! ## Properties -/

variable {i depth stop fuel : Nat} {branch : Branch} {before tail : List FdtToken}
  {ended : FdtTokenContext}

def nextProp (structs : List UInt8) (stop : Nat) :
    List FdtToken → Option (Property × PropertiesIter)
  | .prop ctx :: _ => some (Property.ofToken ctx, ⟨structs, stop, ctx.start + ctx.totalLen⟩)
  | .nop _ :: tokens => nextProp structs stop tokens
  | _ => none

lemma scanProps_eq (small : structs.length < 2 ^ 32)
    (reads : Reads structs i (before ++ .endNode ended :: tail))
    (inside : ended.start < stop) (enough : before.length < fuel) :
    scan structs stop fuel i = some (nextProp structs stop (before ++ .endNode ended :: tail)) := by
  induction before generalizing i fuel with
  | nil =>
    cases fuel with
    | zero => cases enough
    | succ =>
      have here : ended.start = i := reads.start_eq small
      rw [scan, if_pos (by omega), List.nil_append, reads.2.1]
      rfl
  | cons token before ih =>
    cases fuel with
    | zero => cases enough
    | succ =>
      have spec := parsed_of_parseToken small reads.2.1
      have most := spec.most
      have within := reads.1
      have later : i + _ ≤ ended.start := (reads.at_start small).2
      have step := checkedAdd_of_lt (show i + token.totalLen < 2 ^ 64 by omega)
      rw [scan, if_pos (by omega), reads.2.1, List.cons_append]
      cases token with
      | prop ctx =>
        have here : ctx.start = i := spec.start
        simp only [FdtToken.totalLen] at step
        simp only [step, bind_eq_bind, bind_some, nextProp, here]
        rfl
      | nop =>
        simp only [FdtToken.totalLen] at step
        simp only [step, bind_eq_bind, bind_some, nextProp]
        exact ih reads.2.2 (Nat.lt_of_succ_lt_succ enough)
      | beginNode ctx | endNode ctx | fdtEnd ctx => rfl

lemma properties_from (opened : Opened dt structs) {forest : Forest}
    (reads : Reads structs i (forest.tokens ++ .endNode ended :: tail))
    (inside : ended.start < stop) :
    Yields (PropertiesIter.next dt) ⟨structs, stop, i⟩ (forest.props.map Property.ofToken) := by
  have scanned : PropertiesIter.next dt ⟨structs, stop, i⟩ =
      some (nextProp structs stop (forest.tokens ++ .endNode ended :: tail)) := by
    have fewer := opened.enough reads
    rw [List.length_append] at fewer
    exact scanProps_eq opened.small reads inside (by omega)
  induction forest generalizing i with
  | nil | node => exact .done scanned
  | leaf mark rest ih =>
    have here := reads.start_eq opened.small
    have fewer := opened.enough reads.2.2
    rw [List.append_eq, List.length_append] at fewer
    have later := ih reads.2.2 (scanProps_eq opened.small reads.2.2 inside (by omega))
    cases mark with
    | prop ctx =>
      apply Yields.item scanned
      have same : ctx.start + ctx.totalLen = i + ctx.totalLen := congrArg (· + ctx.totalLen) here
      rw [same]
      exact later
    | nop =>
      apply later.of_eq
      rw [scanned]
      exact (scanProps_eq opened.small reads.2.2 inside (by omega)).symm
    | fdtEnd => exact .done scanned

lemma properties_yields (opened : Opened dt structs) (site : Site structs depth branch tail) :
    ∃ iter, dt.properties (branch.node depth) = some iter ∧
      Yields (PropertiesIter.next dt) iter (branch.body.props.map Property.ofToken) := by
  have order := site.order opened.small
  have span := site.span opened.small depth
  refine ⟨⟨structs, branch.stop, branch.inner⟩, ?_, properties_from opened site.body (by omega)⟩
  rw [DeviceTree.properties, opened.block]
  rw [checkedAdd_of_lt (by omega), span]
  rfl

lemma props_length_le (forest : Forest) : forest.props.length ≤ forest.tokens.length := by
  induction forest with
  | nil => exact Nat.le_refl 0
  | leaf mark _ ih =>
    cases mark with
    | prop => exact Nat.succ_le_succ ih
    | nop => exact Nat.le_succ_of_le ih
    | fdtEnd => exact Nat.zero_le _
  | node => exact Nat.zero_le _

end R9x.Verif.FdtNodes
