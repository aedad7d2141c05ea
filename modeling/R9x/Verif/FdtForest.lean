import R9x.Verif.FdtTokens

/-!
# The nodes in the tokens

The tokens of any structure block in which no node ends that has not begun are a forest of nodes,
with other tokens between them, and then perhaps nodes that never end.
-/

namespace R9x.Verif.FdtForest

open Core.Fdt FdtTokens
open List (cons_append append_assoc)

/-- A token that neither begins nor ends a node. -/
inductive Leaf where
  | prop (ctx : FdtPropContext)
  | nop (ctx : FdtTokenContext)
  | fdtEnd (ctx : FdtTokenContext)

def Leaf.token : Leaf → FdtToken
  | .prop ctx => .prop ctx
  | .nop ctx => .nop ctx
  | .fdtEnd ctx => .fdtEnd ctx

/-- Nodes and other tokens, in their order. -/
inductive Forest where
  | nil
  | leaf (leaf : Leaf) (rest : Forest)
  | node (begun : FdtBeginNodeContext) (body : Forest) (ended : FdtTokenContext) (rest : Forest)

/-- A node of a forest. -/
structure Branch where
  begun : FdtBeginNodeContext
  body : Forest
  ended : FdtTokenContext

def Forest.tokens : Forest → List FdtToken
  | .nil => []
  | .leaf mark rest => mark.token :: rest.tokens
  | .node begun body ended rest =>
      .beginNode begun :: (body.tokens ++ .endNode ended :: rest.tokens)

/-- The nodes of a forest that are in no other one. -/
def Forest.tops : Forest → List Branch
  | .nil => []
  | .leaf _ rest => rest.tops
  | .node begun body ended rest => ⟨begun, body, ended⟩ :: rest.tops

def Forest.preorder : Nat → Forest → List Node
  | _, .nil => []
  | depth, .leaf _ rest => rest.preorder depth
  | depth, .node begun body ended rest =>
    nodeOf depth begun ended :: (body.preorder (depth + 1) ++ rest.preorder depth)

/-- The properties that come first. -/
def Forest.props : Forest → List FdtPropContext
  | .leaf (.prop ctx) rest => ctx :: rest.props
  | .leaf (.nop _) rest => rest.props
  | _ => []

def Branch.tokens (branch : Branch) : List FdtToken :=
  .beginNode branch.begun :: (branch.body.tokens ++ [.endNode branch.ended])

def Branch.node (depth : Nat) (branch : Branch) : Node := nodeOf depth branch.begun branch.ended

def Branch.start (branch : Branch) : Nat := branch.begun.start

def Branch.inner (branch : Branch) : Nat := branch.begun.start + branch.begun.totalLen

def Branch.stop (branch : Branch) : Nat := branch.ended.start + branch.ended.totalLen

/-! ## Scans over a forest -/

section

variable {depth nodeDepth : Nat} {begun : Option FdtBeginNodeContext} {tail : List FdtToken}

lemma findNode_leaf (leaf : Leaf) :
    findNode nodeDepth (leaf.token :: tail) depth begun = findNode nodeDepth tail depth begun := by
  cases leaf <;> rw [Leaf.token, findNode]

lemma above_leaf (leaf : Leaf) : Above depth (leaf.token :: tail) ↔ Above depth tail := by
  cases leaf <;> rw [Leaf.token, Above]

lemma above_forest (forest : Forest) : Above depth (forest.tokens ++ tail) ↔ Above depth tail := by
  induction forest generalizing depth tail with
  | nil => rfl
  | leaf leaf _ ih => exact (above_leaf leaf).trans ih
  | node _ _ _ _ ihBody ihRest =>
    rw [Forest.tokens, cons_append, append_assoc, Above, ihBody, cons_append, Above]
    exact ihRest

lemma findNode_inside (forest : Forest) (inside : nodeDepth < depth) :
    findNode nodeDepth (forest.tokens ++ tail) depth begun =
      findNode nodeDepth tail depth begun := by
  induction forest generalizing depth tail with
  | nil => rfl
  | leaf leaf _ ih => exact (findNode_leaf leaf).trans (ih inside)
  | node _ _ _ _ ihBody ihRest =>
    rw [Forest.tokens, cons_append, append_assoc, findNode, if_neg (Nat.ne_of_gt inside),
      ihBody (Nat.lt_succ_of_lt inside), cons_append, findNode, if_neg (Nat.ne_of_gt inside)]
    exact ihRest inside

lemma findNode_branch (branch : Branch) :
    findNode nodeDepth (branch.tokens ++ tail) nodeDepth begun =
      some (some (branch.node nodeDepth)) := by
  rw [Branch.tokens, cons_append, append_assoc, findNode, if_pos rfl,
    findNode_inside branch.body (Nat.lt_succ_self nodeDepth), cons_append, findNode, if_pos rfl]
  rfl

lemma tokens_node (branch : Branch) (rest : Forest) :
    (Forest.node branch.begun branch.body branch.ended rest).tokens ++ tail =
      branch.tokens ++ (rest.tokens ++ tail) := by
  simp only [Forest.tokens, Branch.tokens, cons_append, append_assoc, List.nil_append]

lemma findNode_beyond {structs : List UInt8} (small : structs.length < 2 ^ 32) {i low : Nat}
    (reads : Reads structs i tail) (above : Above depth tail) (later : low ≤ i)
    (placed : ∀ ctx, begun = some ctx → low ≤ ctx.start ∧ ctx.start ≤ i) :
    ∃ found, findNode nodeDepth tail depth begun = some found ∧ ∀ node, found = some node →
      low ≤ node.start ∧ 0 < node.totalLen ∧ node.start + node.totalLen < 2 ^ 64 := by
  induction tail generalizing i depth begun with
  | nil => exact ⟨none, rfl, nofun⟩
  | cons token tail ih =>
    have spec := parsed_of_parseToken small reads.2.1
    have least := spec.least
    have most := spec.most
    have inside := reads.1
    have kept : ∀ ctx, begun = some ctx → low ≤ ctx.start ∧ ctx.start ≤ i + token.totalLen :=
      fun ctx same => ⟨(placed ctx same).1, Nat.le_add_right_of_le (placed ctx same).2⟩
    cases token with
    | beginNode ctx =>
      have here : ctx.start = i := spec.start
      apply ih reads.2.2 above (Nat.le_add_right_of_le later)
      intro other same
      split at same
      · cases same
        exact ⟨by omega, by omega⟩
      · exact kept other same
    | endNode ctx =>
      have here : ctx.start = i := spec.start
      cases depth with
      | zero => exact above.elim
      | succ =>
        rw [findNode]
        split
        · refine ⟨_, rfl, ?_⟩
          intro node same
          obtain ⟨begin, started, rfl⟩ := Option.map_eq_some_iff.mp same
          obtain ⟨low', high⟩ := placed begin started
          have four : 4 ≤ ctx.totalLen := least
          have bound : ctx.totalLen < 2 ^ 33 := most
          simp only [nodeOf]
          exact ⟨low', by omega, by omega⟩
        · exact ih reads.2.2 above (Nat.le_add_right_of_le later) kept
    | prop ctx | nop ctx | fdtEnd ctx =>
      exact ih reads.2.2 above (Nat.le_add_right_of_le later) kept

end

/-! ## Where nodes are -/

/-- A node of a structure block, at a depth and with the tokens that come after it. -/
structure Site (structs : List UInt8) (depth : Nat) (branch : Branch) (tail : List FdtToken) :
    Prop where
  reads : Reads structs branch.start (branch.tokens ++ tail)
  above : Above depth tail
  deep : depth ≤ branch.start

variable {structs : List UInt8} {i depth : Nat} {branch : Branch} {forest : Forest}
  {tail : List FdtToken}

lemma Site.body (site : Site structs depth branch tail) :
    Reads structs branch.inner (branch.body.tokens ++ .endNode branch.ended :: tail) := by
  have after := site.reads.2.2
  rw [List.append_eq, append_assoc] at after
  exact after

section

variable (small : structs.length < 2 ^ 32) (site : Site structs depth branch tail)
include small site

lemma Site.order : branch.start + 4 ≤ branch.inner ∧ branch.inner ≤ branch.ended.start ∧
      branch.ended.start + 4 ≤ branch.stop ∧ branch.stop < 2 ^ 34 := by
  have begins := parsed_of_parseToken small site.reads.2.1
  obtain ⟨ends, later⟩ := site.body.at_start small
  have closes := parsed_of_parseToken small ends.2.1
  have least : 4 ≤ branch.begun.totalLen := begins.least
  have least' : 4 ≤ branch.ended.totalLen := closes.least
  have most : branch.ended.totalLen < 2 ^ 33 := closes.most
  have inside : branch.ended.start < structs.length := ends.1
  have after : branch.inner + 4 * branch.body.tokens.length ≤ branch.ended.start := later
  rw [Branch.inner] at after ⊢
  rw [Branch.start, Branch.stop]
  omega

lemma Site.after : Reads structs branch.stop tail := (site.body.at_start small).1.2.2

lemma Site.span (depth' : Nat) : (branch.node depth').start + (branch.node depth').totalLen =
    branch.stop := by
  have order := site.order small
  change branch.start + (branch.stop - branch.start) = branch.stop
  omega

end

lemma site_head (reads :
    Reads structs i ((Forest.node branch.begun branch.body branch.ended forest).tokens ++ tail))
    (small : structs.length < 2 ^ 32) (above : Above depth tail) (deep : depth ≤ i) :
    branch.start = i ∧ Site structs depth branch (forest.tokens ++ tail) := by
  rw [tokens_node] at reads
  have start : branch.start = i := reads.start_eq small
  refine ⟨start, ?_, (above_forest forest).mpr above, start ▸ deep⟩
  rw [start]
  exact reads

lemma site_tops (small : structs.length < 2 ^ 32) (reads : Reads structs i (forest.tokens ++ tail))
    (above : Above depth tail) (deep : depth ≤ i) :
    (∀ branch ∈ forest.tops, i ≤ branch.start ∧ (∃ tail', Site structs depth branch tail') ∧
      ∀ token tail', tail = token :: tail' → branch.stop ≤ token.start) ∧
    forest.tops.Pairwise fun first second => first.stop ≤ second.start := by
  induction forest generalizing i with
  | nil => exact ⟨nofun, .nil⟩
  | leaf _ _ ih =>
    obtain ⟨sites, ordered⟩ := ih reads.2.2 (Nat.le_add_right_of_le deep)
    refine ⟨?_, ordered⟩
    intro branch member
    obtain ⟨later, site⟩ := sites branch member
    exact ⟨Nat.le_trans (Nat.le_add_right _ _) later, site⟩
  | node begun body ended rest _ ih =>
    obtain ⟨start, site⟩ : Branch.start ⟨begun, body, ended⟩ = i ∧
        Site structs depth ⟨begun, body, ended⟩ (rest.tokens ++ tail) :=
          site_head reads small above deep
    have order := site.order small
    have after := site.after small
    have wide : i ≤ Branch.stop ⟨begun, body, ended⟩ := by omega
    obtain ⟨sites, ordered⟩ := ih after (Nat.le_trans deep wide)
    constructor
    · intro branch member
      rcases List.mem_cons.mp member with rfl | member
      · refine ⟨Nat.le_of_eq start.symm, ⟨_, site⟩, ?_⟩
        rintro _ _ rfl
        exact Nat.le_trans (Nat.le_add_right _ _) (after.at_start small).2
      obtain ⟨later, site⟩ := sites branch member
      exact ⟨Nat.le_trans wide later, site⟩
    · exact List.pairwise_cons.mpr ⟨fun branch member => (sites branch member).1, ordered⟩

lemma Site.children (small : structs.length < 2 ^ 32) (site : Site structs depth branch tail) :
    (∀ child ∈ branch.body.tops, branch.inner ≤ child.start ∧ child.stop ≤ branch.ended.start ∧
      ∃ tail', Site structs (depth + 1) child tail') ∧
    branch.body.tops.Pairwise fun first second => first.stop ≤ second.start := by
  have order := site.order small
  have deep := site.deep
  obtain ⟨sites, ordered⟩ := site_tops small site.body
    (show Above (depth + 1) (.endNode branch.ended :: tail) from site.above) (by omega)
  refine ⟨?_, ordered⟩
  intro child member
  obtain ⟨later, place, upto⟩ := sites child member
  exact ⟨later, upto _ _ rfl, place⟩

end R9x.Verif.FdtForest
