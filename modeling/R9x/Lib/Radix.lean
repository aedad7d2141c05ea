import Mathlib.Algebra.Ring.Nat
import Mathlib.Data.List.Infix
import Mathlib.Logic.Function.Basic

/-!
# Radix trees in a shared store

A store maps nodes and indices to cells, and a cell may point to a child node.
-/

namespace R9x.Lib.Radix

open Function (update update_self update_of_ne)

variable {P I E : Type*}

/-- The node a path leads to. -/
def follow (edge : E → Option P) (store : P → I → E) : P → List I → Option P
  | node, [] => some node
  | node, index :: rest => (edge (store node index)).bind fun child => follow edge store child rest

/-- The cell a search ends at, with the number of indices left over. -/
def look (edge : E → Option P) (store : P → I → E) : P → List I → Option (Nat × E)
  | _, [] => none
  | node, [index] => some (0, store node index)
  | node, index :: next :: rest =>
    match edge (store node index) with
    | some child => look edge store child (next :: rest)
    | none => some (rest.length + 1, store node index)

/-- No two paths up to the depth lead to the same node. -/
def Unshared (edge : E → Option P) (store : P → I → E) (root : P) (depth : Nat) : Prop :=
  ∀ first second node, first.length ≤ depth → second.length ≤ depth →
    follow edge store root first = some node → follow edge store root second = some node →
    first = second

/-- Some path up to the depth leads to the node. -/
def Reached (edge : E → Option P) (store : P → I → E) (root : P) (depth : Nat) (node : P) : Prop :=
  ∃ path, path.length ≤ depth ∧ follow edge store root path = some node

section

variable {edge : E → Option P} {store other : P → I → E}

lemma reached_root (root : P) (depth : Nat) : Reached edge store root depth root :=
  ⟨[], Nat.zero_le depth, rfl⟩

lemma follow_append (node : P) (first second : List I) : follow edge store node (first ++ second) =
      (follow edge store node first).bind fun middle => follow edge store middle second := by
  induction first generalizing node with
  | nil => rfl
  | cons index _ ih =>
    simp only [List.cons_append, follow]
    cases edge (store node index) with
    | none => rfl
    | some child => exact ih child

variable {rest path : List I} {root : P} {depth : Nat}

lemma look_append {node : P} (here : follow edge store root path = some node)
    (more : rest ≠ []) : look edge store root (path ++ rest) = look edge store node rest := by
  induction path generalizing root with
  | nil =>
    cases here
    rfl
  | cons _ path ih =>
    obtain ⟨_, points, later⟩ := Option.bind_eq_some_iff.mp here
    have continues : path ++ rest ≠ [] := fun empty => more (List.append_eq_nil_iff.mp empty).2
    obtain ⟨_, _, shape⟩ := List.exists_cons_of_ne_nil continues
    have inner := ih later
    rw [shape] at inner
    rw [List.cons_append, shape, look, points]
    exact inner

lemma look_stop {node : P} {index : I} (stops : rest ≠ [] → edge (store node index) = none) :
    look edge store node (index :: rest) = some (rest.length, store node index) := by
  cases rest with
  | nil => rfl
  | cons =>
    rw [look, stops (by simp)]
    rfl

lemma look_cell {left : Nat} {cell : E} (found : look edge store root path = some (left, cell)) :
    ∃ before index node, before ++ [index] <+: path ∧ follow edge store root before = some node ∧
      cell = store node index ∧ path.length = before.length + 1 + left := by
  induction path generalizing root with
  | nil => cases found
  | cons index path ih =>
    by_cases stops : path ≠ [] → edge (store root index) = none
    · rw [look_stop stops] at found
      cases found
      refine ⟨[], index, root, ?_, rfl, rfl, ?_⟩
      · exact List.cons_prefix_cons.mpr ⟨rfl, List.nil_prefix⟩
      · simp only [List.length_cons, List.length_nil]
        omega
    rw [Classical.not_imp] at stops
    obtain ⟨more, points⟩ := stops
    obtain ⟨child, points⟩ := Option.ne_none_iff_exists'.mp points
    obtain ⟨next, rest, rfl⟩ := List.exists_cons_of_ne_nil more
    rw [look, points] at found
    obtain ⟨before, last, node, within, leads, same, length⟩ := ih found
    refine ⟨index :: before, last, node, ?_, ?_, same, ?_⟩
    · exact List.cons_prefix_cons.mpr ⟨rfl, within⟩
    · simp only [follow, points, Option.bind_some]
      exact leads
    · simp only [List.length_cons] at length ⊢
      omega

/-- Two stores agree on the cells a path passes through. -/
def AgreeAlong (edge : E → Option P) (store other : P → I → E) (root : P) (path : List I) : Prop :=
  ∀ before index node, before ++ [index] <+: path → follow edge store root before = some node →
    other node index = store node index

section

variable {index : I} (agree : AgreeAlong edge store other root (index :: path))
include agree

lemma AgreeAlong.tail {child : P} (points : edge (store root index) = some child) :
    AgreeAlong edge store other child path := by
  intro before later node begins reached
  refine agree (index :: before) later node ?_ ?_
  · exact (List.cons_prefix_cons).mpr ⟨rfl, begins⟩
  · simp only [follow, points, Option.bind_some]
    exact reached

lemma AgreeAlong.head : other root index = store root index :=
  agree [] index root ((List.cons_prefix_cons).mpr ⟨rfl, List.nil_prefix⟩) rfl

end

lemma follow_eq (agree : AgreeAlong edge store other root path) :
    follow edge other root path = follow edge store root path := by
  induction path generalizing root with
  | nil => rfl
  | cons index _ ih =>
    simp only [follow, agree.head]
    cases points : edge (store root index) with
    | none => rfl
    | some => exact ih (agree.tail points)

lemma look_eq (agree : AgreeAlong edge store other root path) :
    look edge other root path = look edge store root path := by
  induction path generalizing root with
  | nil => rfl
  | cons index path ih =>
    cases path with
    | nil => simp only [look, agree.head]
    | cons =>
      simp only [look, agree.head]
      cases points : edge (store root index) with
      | none => rfl
      | some => exact ih (agree.tail points)

lemma agreeAlong_of_reached (agree : ∀ node, Reached edge store root depth node →
    other node = store node)
    (short : path.length ≤ depth + 1) : AgreeAlong edge store other root path := by
  intro before index node begins reached
  have bound := begins.length_le
  rw [List.length_append, List.length_singleton] at bound
  rw [agree node ⟨before, by omega, reached⟩]

lemma Unshared.congr (unshared : Unshared edge store root depth)
    (agree : ∀ node, Reached edge store root depth node → other node = store node) :
    Unshared edge other root depth := by
  intro first second node shortFirst shortSecond reachedFirst reachedSecond
  rw [follow_eq (agreeAlong_of_reached agree (by omega))] at reachedFirst reachedSecond
  exact unshared first second node shortFirst shortSecond reachedFirst reachedSecond

lemma reached_congr
    (agree : ∀ node, Reached edge store root depth node → other node = store node) (node : P) :
    Reached edge other root depth node ↔ Reached edge store root depth node := by
  constructor
  · rintro ⟨path, short, reached⟩
    rw [follow_eq (agreeAlong_of_reached agree (by omega))] at reached
    exact ⟨path, short, reached⟩
  · rintro ⟨path, short, reached⟩
    refine ⟨path, short, ?_⟩
    rw [follow_eq (agreeAlong_of_reached agree (by omega))]
    exact reached

end

/-! ## Writing one cell -/

variable [DecidableEq P] [DecidableEq I] {edge : E → Option P} {store : P → I → E}

/-- Write one cell. -/
def set (store : P → I → E) (node : P) (index : I) (cell : E) : P → I → E :=
  fun node' index' =>
  if node' = node ∧ index' = index then cell else store node' index'

lemma set_same (store : P → I → E) (node : P) (index : I) (cell : E) :
    set store node index cell node index = cell := if_pos ⟨rfl, rfl⟩

variable {node' : P} {index' : I}

lemma set_other (store : P → I → E) {node : P} {index : I} (cell : E)
    (apart : ¬ (node' = node ∧ index' = index)) :
    set store node index cell node' index' = store node' index' := if_neg apart

lemma set_node (store : P → I → E) {node : P} (index : I) (cell : E) (apart : node' ≠ node) :
    set store node index cell node' = store node' :=
  funext fun _ => set_other store cell fun same => apart same.1

variable {cell : E}

section

variable (store) {node : P} {index : I}

lemma set_eq_self (holds : store node index = cell) : set store node index cell = store := by
  funext node' index'
  unfold set
  split
  · rename_i same
    rw [same.1, same.2, holds]
  · rfl

lemma set_set (node : P) (index : I) (first second : E) :
    set (set store node index first) node index second = set store node index second := by
  funext node' index'
  unfold set
  split <;> rfl

lemma set_comm (cell cell' : E) (apart : ¬ (node' = node ∧ index' = index)) :
    set (set store node index cell) node' index' cell' =
      set (set store node' index' cell') node index cell := by
  funext node'' index''
  unfold set
  by_cases first : node'' = node' ∧ index'' = index'
  · have different : ¬ (node'' = node ∧ index'' = index) := by
      rintro ⟨rfl, rfl⟩
      exact apart ⟨first.1.symm, first.2.symm⟩
    rw [if_pos first, if_neg different, if_pos first]
  · rw [if_neg first, if_neg first]

lemma set_update (index : I) (cell : E) (row : I → E) (apart : node' ≠ node) :
    update (set store node index cell) node' row = set (update store node' row) node
      index cell := by
  funext node'' index''
  by_cases replaced : node'' = node'
  · subst replaced
    rw [update_self, set_other _ cell fun same => apart same.1, update_self]
  rw [update_of_ne replaced]
  unfold set
  rw [update_of_ne replaced]

lemma set_eq_update (node : P) (index : I) (cell : E) :
    set store node index cell = update store node (update (store node) index cell) := by
  funext node' index'
  by_cases same : node' = node
  · subst same
    rw [update_self, set, Function.update_apply]
    simp
  · rw [update_of_ne same, set_node store index cell same]

end

variable {along : List I}

lemma AgreeAlong.set {other : P → I → E} {root : P}
    (agree : AgreeAlong edge store other root along) (node : P) (index : I)
    (apart : ∀ before, before ++ [index] <+: along → follow edge store root before ≠ some node)
    (cell : E) : AgreeAlong edge store (Radix.set other node index cell) root along := by
  intro before index' node' begins reached
  rw [set_other other cell, agree before index' node' begins reached]
  rintro ⟨rfl, rfl⟩
  exact apart before begins reached

variable {root node : P} {depth : Nat} {path : List I} {index : I}

section

variable (unshared : Unshared edge store root depth) (short : path.length ≤ depth)
    (here : follow edge store root path = some node)
include unshared short here

lemma agreeAlong_set (cell : E) (bound : along.length ≤ depth + 1)
    (apart : ¬ path ++ [index] <+: along) :
    AgreeAlong edge store (set store node index cell) root along := by
  intro before index' node' begins reached
  by_cases written : node' = node ∧ index' = index
  · obtain ⟨rfl, rfl⟩ := written
    have length := begins.length_le
    rw [List.length_append, List.length_singleton] at length
    have same := unshared before path node' (by omega) short reached here
    rw [same] at begins
    exact absurd begins apart
  · exact set_other store cell written

lemma follow_set_path (cell : E) : follow edge (set store node index cell) root path =
    some node := by
  rw [follow_eq (agreeAlong_set unshared short here cell (by omega) fun begins => ?_), here]
  have length := begins.length_le
  rw [List.length_append, List.length_singleton] at length
  omega

lemma look_set_through (cell : E) (rest : List I) :
    look edge (set store node index cell) root (path ++ index :: rest) =
      look edge (set store node index cell) node (index :: rest) :=
  look_append (follow_set_path unshared short here cell) (by simp)

lemma follow_set_through (cell : E) (rest : List I) :
    follow edge (set store node index cell) root (path ++ index :: rest) =
      (edge cell).bind fun child => follow edge (set store node index cell) child rest := by
  rw [follow_append, follow_set_path unshared short here cell, Option.bind_some, follow, set_same]

lemma follow_set_cases (index : I) (cell : E) (bound : along.length ≤ depth) :
    (∃ rest, along = path ++ index :: rest) ∨
      follow edge (set store node index cell) root along = follow edge store root along := by
  by_cases through : path ++ [index] <+: along
  · obtain ⟨rest, rfl⟩ := through
    exact .inl ⟨rest, by simp⟩
  · exact .inr (follow_eq (agreeAlong_set unshared short here cell (by omega) through))

end

/-! ## Cutting a subtree off -/

variable {reached : P}

section

variable (unshared : Unshared edge store root depth) (short : path.length ≤ depth)
    (here : follow edge store root path = some node)
    (barren : path.length < depth → edge cell = none)
include unshared short here barren

lemma follow_cut (bound : along.length ≤ depth)
    (leads : follow edge (set store node index cell) root along = some reached) :
    follow edge store root along = some reached := by
  rcases follow_set_cases unshared short here index cell bound with ⟨rest, rfl⟩ | same
  · rw [List.length_append, List.length_cons] at bound
    rw [follow_set_through unshared short here, barren (by omega)] at leads
    cases leads
  · rwa [same] at leads

lemma Unshared.cut : Unshared edge (set store node index cell) root depth := by
  intro first second reached shortFirst shortSecond leadsFirst leadsSecond
  exact unshared first second reached shortFirst shortSecond
    (follow_cut unshared short here barren shortFirst leadsFirst)
    (follow_cut unshared short here barren shortSecond leadsSecond)

end

/-! ## Grafting a fresh node -/

/-- A node no path leads to and whose cells point nowhere. -/
structure Fresh (edge : E → Option P) (store : P → I → E) (root : P) (depth : Nat) (child : P) :
    Prop where
  unreached : ¬ Reached edge store root depth child
  barren : ∀ index, edge (store child index) = none

variable {child : P} (unshared : Unshared edge store root depth) (short : path.length ≤ depth)
  (here : follow edge store root path = some node) (points : edge cell = some child)
  (fresh : Fresh edge store root depth child)
include unshared short here points fresh

lemma follow_graft (bound : along.length ≤ depth)
    (leads : follow edge (set store node index cell) root along = some reached) :
    follow edge store root along = some reached ∨ along = path ++ [index] ∧ reached = child := by
  rcases follow_set_cases unshared short here index cell bound with ⟨rest, rfl⟩ | same
  · rw [follow_set_through unshared short here, points, Option.bind_some] at leads
    cases rest with
    | nil => exact .inr ⟨rfl, (Option.some.inj leads).symm⟩
    | cons =>
      have other : child ≠ node := fun same => fresh.unreached ⟨path, short, same ▸ here⟩
      rw [follow, set_node store index cell other, fresh.barren] at leads
      cases leads
  · exact .inl (same ▸ leads)

lemma Unshared.graft : Unshared edge (set store node index cell) root depth := by
  intro first second reached shortFirst shortSecond leadsFirst leadsSecond
  rcases follow_graft unshared short here points fresh shortFirst leadsFirst with
    oldFirst | ⟨rfl, rfl⟩
  · rcases follow_graft unshared short here points fresh shortSecond leadsSecond with
      oldSecond | ⟨-, rfl⟩
    · exact unshared first second reached shortFirst shortSecond oldFirst oldSecond
    · exact absurd ⟨first, shortFirst, oldFirst⟩ fresh.unreached
  rcases follow_graft unshared short here points fresh shortSecond leadsSecond with
    oldSecond | ⟨rfl, -⟩
  · exact absurd ⟨second, shortSecond, oldSecond⟩ fresh.unreached
  · rfl

end R9x.Lib.Radix
