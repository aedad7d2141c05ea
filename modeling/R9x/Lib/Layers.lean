import R9x.Lib.Radix

/-!
# Layered stores

The nodes under a root have a depth, and above the last layer a cell points one layer down. One
index may also point from a node back to the node itself, so the nodes need not form a tree.
-/

namespace R9x.Lib.Radix

open Function (update update_self update_of_ne)

variable {P I E : Type*} {edge : E → Option P} {store other : P → I → E} {root node child : P}
  {loop index : I} {bound level : Nat} {depth : P → Option Nat} {path before : List I}

/-- Above the last layer the cells of a node point one layer down, or from the index of loops to the
node itself. -/
structure Layered (edge : E → Option P) (store : P → I → E) (root : P) (loop : I) (bound : Nat)
    (depth : P → Option Nat) : Prop where
  root : depth root = some 0
  below : ∀ node level index child, depth node = some level → level < bound →
    edge (store node index) = some child → child = node ∧ index = loop ∨ depth child =
      some (level + 1)

/-- No cell along a path points back to its own node. -/
def Straight (edge : E → Option P) (store : P → I → E) (root : P) (path : List I) : Prop :=
  ∀ before index node, before ++ [index] <+: path → follow edge store root before = some node →
    edge (store node index) ≠ some node

lemma follow_snoc : follow edge store root (before ++ [index]) = some child ↔
    ∃ node, follow edge store root before = some node ∧ edge (store node index) = some child := by
  simp [follow_append, follow, Option.bind_eq_some_iff]

lemma Straight.congr (straight : Straight edge store root path)
    (agree : AgreeAlong edge store other root path) : Straight edge other root path := by
  intro before index node begins leads
  have same : follow edge other root before = follow edge store root before :=
    follow_eq fun first index' node' within =>
      agree first index' node' (within.trans ((List.prefix_append before [index]).trans begins))
  rw [same] at leads
  rw [agree before index node begins leads]
  exact straight before index node begins leads

section

variable (layered : Layered edge store root loop bound depth)
include layered

/-- A straight path leads as deep as it is long. -/
lemma Layered.depth_follow (straight : Straight edge store root path) (short : path.length ≤ bound)
    (within : before <+: path) (leads : follow edge store root before = some node) :
    depth node = some before.length := by
  induction before using List.reverseRecOn generalizing node with
  | nil =>
    cases leads
    exact layered.root
  | append_singleton before index ih =>
    obtain ⟨above, reaches, points⟩ := follow_snoc.mp leads
    have known := ih ((List.prefix_append before [index]).trans within) reaches
    have length := within.length_le
    rw [List.length_append, List.length_singleton] at length
    rcases layered.below above _ index node known (by omega) points with ⟨rfl, -⟩ | deeper
    · exact absurd points (straight before index _ within reaches)
    · rw [deeper, List.length_append, List.length_singleton]

/-- A straight path, and one more index, goes the same way in a store that agrees on the layers. -/
lemma Layered.agreeAlong (straight : Straight edge store root path) (short : path.length ≤ bound)
    (agree : ∀ node level, depth node = some level → other node = store node) (last : I) :
    AgreeAlong edge store other root (path ++ [last]) := by
  intro before index node begins leads
  have within : before <+: path := by
    rcases List.prefix_concat_iff.mp begins with whole | inside
    · rw [(List.append_inj' whole rfl).1]
    · exact (List.prefix_append before [index]).trans inside
  rw [agree node _ (layered.depth_follow straight short within leads)]

/-- A path that avoids the index of loops is straight. -/
lemma Layered.straight (avoids : loop ∉ path) (short : path.length ≤ bound) :
    Straight edge store root path := by
  induction path using List.reverseRecOn with
  | nil =>
    intro before index node begins
    have length := begins.length_le
    simp at length
  | append_singleton path last ih =>
    rw [List.mem_append, not_or, List.mem_singleton] at avoids
    rw [List.length_append, List.length_singleton] at short
    have straight := ih avoids.1 (by omega)
    intro before index node begins leads loops
    rcases List.prefix_concat_iff.mp begins with whole | inside
    · obtain ⟨rfl, same⟩ := List.append_inj' whole rfl
      obtain rfl := List.singleton_inj.mp same
      have known := layered.depth_follow straight (by omega) List.prefix_rfl leads
      rcases layered.below node _ index node known (by omega) loops with ⟨-, is⟩ | deeper
      · exact avoids.2 is.symm
      · rw [known] at deeper
        have same := Option.some.inj deeper
        omega
    · exact straight before index node inside leads loops

/-- Every short path, whether it loops or not, leads to a node of the layers. -/
lemma Layered.depth_reached (reached : Reached edge store root bound node) :
    ∃ level, depth node = some level := by
  obtain ⟨path, short, leads⟩ := reached
  have bounded : ∃ level ≤ path.length, depth node = some level := by
    induction path using List.reverseRecOn generalizing node with
    | nil =>
      cases leads
      exact ⟨0, Nat.le_refl 0, layered.root⟩
    | append_singleton path index ih =>
      rw [List.length_append, List.length_singleton] at short ⊢
      obtain ⟨above, reaches, points⟩ := follow_snoc.mp leads
      obtain ⟨level, low, known⟩ := ih (by omega) reaches
      rcases layered.below above level index node known (by omega) points with ⟨rfl, -⟩ | deeper
      · exact ⟨level, by omega, known⟩
      · exact ⟨level + 1, by omega, deeper⟩
  obtain ⟨level, -, known⟩ := bounded
  exact ⟨level, known⟩

lemma Layered.congr (agree : ∀ node level, depth node = some level → other node = store node) :
    Layered edge other root loop bound depth := by
  refine ⟨layered.root, fun node level index child known upper points => ?_⟩
  rw [agree node level known] at points
  exact layered.below node level index child known upper points

end

/-! ## Changing a layered store -/

section

variable [DecidableEq P] [DecidableEq I] {cell : E} {fresh : P} {blank : I → E}
  (layered : Layered edge store root loop bound depth)
include layered

/-- A cell may be written that points one layer down, or back from the index of loops. -/
lemma Layered.set (cell : E) (points : ∀ level child, depth node = some level → level < bound →
      edge cell = some child → child = node ∧ index = loop ∨ depth child = some (level + 1)) :
    Layered edge (Radix.set store node index cell) root loop bound depth := by
  refine ⟨layered.root, fun node' level index' child known upper reaches => ?_⟩
  by_cases written : node' = node ∧ index' = index
  · obtain ⟨rfl, rfl⟩ := written
    rw [set_same] at reaches
    exact points level child known upper reaches
  · rw [set_other store cell written] at reaches
    exact layered.below node' level index' child known upper reaches

omit [DecidableEq I] in
/-- A node outside the layers may be cleared and put on a layer. -/
lemma Layered.add (level : Nat) (unused : depth fresh = none)
    (barren : ∀ index, edge (blank index) = none) :
    Layered edge (update store fresh blank) root loop bound (update depth fresh (some level)) := by
  have apart : root ≠ fresh := by
    rintro rfl
    rw [layered.root] at unused
    cases unused
  refine ⟨by rw [update_of_ne apart, layered.root], fun node' level' index' child known upper
    reaches => ?_⟩
  by_cases same : node' = fresh
  · rw [same, update_self, barren] at reaches
    cases reaches
  rw [update_of_ne same] at known reaches
  refine (layered.below node' level' index' child known upper reaches).imp_right fun deeper => ?_
  rwa [update_of_ne]
  rintro rfl
  rw [unused] at deeper
  cases deeper

variable (known : depth node = some level)
include known

/-- Linking a cleared node keeps the layers. -/
lemma Layered.link (unused : depth fresh = none)
    (barren : ∀ index, edge (blank index) = none) (points : edge cell = some fresh) (index : I) :
    Layered edge (update (Radix.set store node index cell) fresh blank) root loop bound
      (update depth fresh (some (level + 1))) := by
  have apart : fresh ≠ node := by
    rintro rfl
    rw [unused] at known
    cases known
  rw [set_update store index cell blank apart]
  refine (layered.add (level + 1) unused barren).set cell fun level' child known' _ reaches => ?_
  rw [update_of_ne apart.symm, known] at known'
  cases known'
  rw [points] at reaches
  cases reaches
  exact .inr (update_self ..)

omit known in
/-- A path to a layered node in the store with the linked node is an old one or ends at the new
node. -/
lemma Layered.follow_link (straight : Straight edge store root path) (short : path.length ≤ bound)
    (unused : depth fresh = none) (barren : ∀ index, edge (blank index) = none)
    (points : edge cell = some fresh) (within : before <+: path) {reached : P}
    (leads : follow edge (update (Radix.set store node index cell) fresh blank) root before =
      some reached) : reached = fresh ∨ follow edge store root before = some reached := by
  induction before using List.reverseRecOn generalizing reached with
  | nil => exact .inr leads
  | append_singleton before index' ih =>
    obtain ⟨above, reaches, leads⟩ := follow_snoc.mp leads
    have within' := (List.prefix_append before [index']).trans within
    rcases ih within' reaches with rfl | old
    · rw [update_self, barren] at leads
      cases leads
    have apart : above ≠ fresh := by
      rintro rfl
      rw [layered.depth_follow straight short within' old] at unused
      cases unused
    rw [update_of_ne apart] at leads
    by_cases written : above = node ∧ index' = index
    · rw [written.1, written.2, set_same, points] at leads
      exact .inl (Option.some.inj leads).symm
    · rw [set_other store cell written] at leads
      exact .inr (follow_snoc.mpr ⟨above, old, leads⟩)

/-- Linking a cleared node keeps every straight path straight. -/
lemma Layered.straight_link (straight : Straight edge store root path) (short : path.length ≤ bound)
    (unused : depth fresh = none) (barren : ∀ index, edge (blank index) = none)
    (points : edge cell = some fresh) (index : I) :
    Straight edge (update (Radix.set store node index cell) fresh blank) root path := by
  intro before index' reached begins leads loops
  have within := (List.prefix_append before [index']).trans begins
  rcases layered.follow_link straight short unused barren points within leads with rfl | old
  · rw [update_self, barren] at loops
    cases loops
  have apart : reached ≠ fresh := by
    rintro rfl
    rw [layered.depth_follow straight short within old] at unused
    cases unused
  rw [update_of_ne apart] at loops
  by_cases written : reached = node ∧ index' = index
  · rw [written.1, written.2, set_same, points] at loops
    cases loops
    rw [unused] at known
    cases known
  · rw [set_other store cell written] at loops
    exact straight before index' reached begins old loops

end

end R9x.Lib.Radix
