import R9x.Verif.Descriptors

/-!
# The tree of tables under a root

Leaving its recursive slot aside, the tables under a root form an unshared tree of depth three.
-/

namespace R9x.Verif.PageTree

open Lib Aarch64.Vm
open Radix (follow look)

variable {mem : Mem} {root : PageNo} {path : List Index} {va : VirtAddr} {level : Level}

/-- Memory with the recursive slot of a root taken out. -/
def masked (root : PageNo) (mem : Mem) : Mem := Radix.set mem root recursiveSlot 0

/-- A page is a table of the tree under a root, the root included. -/
def InTree (mem : Mem) (root page : PageNo) : Prop :=
    Radix.Reached tableOf (masked root mem) root 3 page

/-- The table a path of indices leads to. -/
abbrev tableAt (mem : Mem) (root : PageNo) (path : List Index) : Option PageNo :=
  follow tableOf (masked root mem) root path

/-- The tables under a root form a tree that the recursive slot gives access to. -/
structure Tree (mem : Mem) (root : PageNo) : Prop where
  unshared : Radix.Unshared tableOf (masked root mem) root 3
  self : mem root recursiveSlot = tableEntry root
  descriptors : ∀ path table index child, path.length ≤ 2 → tableAt mem root path = some table →
    tableOf (masked root mem table index) = some child →
    masked root mem table index = tableEntry child

/-- Every valid descriptor above level 3 points to a table: the tree maps no blocks. -/
def Paged (mem : Mem) (root : PageNo) : Prop :=
  ∀ path table index, path.length ≤ 2 → tableAt mem root path = some table →
    Entry.valid (masked root mem table index) = true →
    ∃ child, masked root mem table index = tableEntry child

/-- Every word of every table satisfies a condition on its level. -/
def Words (ok : Nat → Entry → Prop) (mem : Mem) (root : PageNo) : Prop :=
  ∀ path table index, path.length ≤ 3 → tableAt mem root path = some table →
    ok path.length (masked root mem table index)

/-- A condition that the words of an empty table and the descriptors of tables satisfy. -/
structure Lawful (ok : Nat → Entry → Prop) : Prop where
  empty : ∀ level, ok level 0
  table : ∀ level page, level ≤ 2 → ok level (tableEntry page)

def NoBlock (level : Nat) (entry : Entry) : Prop :=
  level ≤ 2 → entry.valid = true → ∃ child, entry = tableEntry child

lemma paged_iff : Paged mem root ↔ Words NoBlock mem root := by
  constructor
  · intro paged path table index _ leads bound valid
    exact paged path table index bound leads valid
  · intro words path table index bound leads valid
    exact words path table index (by omega) leads bound valid

lemma lawful_noBlock : Lawful NoBlock where
  empty _ := fun _ valid => nomatch valid
  table _ page _ := fun _ _ => ⟨page, rfl⟩

lemma inTree_root (mem : Mem) (root : PageNo) : InTree mem root root := Radix.reached_root root 3

/-! ## The recursive slot and the tree -/

lemma unmask (root : PageNo) (mem : Mem) :
    Radix.set (masked root mem) root recursiveSlot (mem root recursiveSlot) = mem := by
  rw [masked, Radix.set_set]
  exact Radix.set_eq_self mem rfl

lemma masked_slot (root : PageNo) (mem : Mem) (entry : Entry) :
    masked root (Radix.set mem root recursiveSlot entry) = masked root mem := by
  rw [masked, masked, Radix.set_set]

variable {page : PageNo} {index : Index}

lemma masked_set (root : PageNo) (mem : Mem) (entry : Entry)
    (apart : ¬ (page = root ∧ index = recursiveSlot)) :
    masked root (Radix.set mem page index entry) = Radix.set (masked root mem) page
      index entry := by
  exact Radix.set_comm mem entry 0 fun same => apart ⟨same.1.symm, same.2.symm⟩

lemma masked_other (root : PageNo) (mem : Mem) (apart : ¬ (page = root ∧ index = recursiveSlot)) :
    masked root mem page index = mem page index := Radix.set_other mem 0 apart

lemma masked_page (root : PageNo) (mem : Mem) (apart : page ≠ root) :
    masked root mem page = mem page :=
  Radix.set_node mem recursiveSlot 0 apart

lemma agree_masked (unshared : Radix.Unshared tableOf (masked root mem) root 3)
    (bound : path.length ≤ 4) (apart : ¬ [recursiveSlot] <+: path) :
    Radix.AgreeAlong tableOf (masked root mem) mem root path := by
  have start : tableAt mem root [] = some root := rfl
  have agree := Radix.agreeAlong_set unshared (by simp) start (mem root recursiveSlot) bound apart
  rwa [unmask] at agree

lemma indices_apart (outside : vaIndex va .level0 ≠ recursiveSlot) :
    ¬ [recursiveSlot] <+: indices va := by
  intro begins
  exact outside (List.cons_prefix_cons.mp begins).1.symm

lemma walk_masked (unshared : Radix.Unshared tableOf (masked root mem) root 3)
    (outside : vaIndex va .level0 ≠ recursiveSlot) :
    walk mem root va = (look tableOf (masked root mem) root (indices va)).bind leaf := by
  have bound : (indices va).length ≤ 4 := Nat.le_refl 4
  rw [walk, Radix.look_eq (agree_masked unshared bound (indices_apart outside))]

variable {entry : Entry}

lemma leaf_invalid (invalid : entry.valid = false) (left : Nat) : leaf (left, entry) = none := by
  match left with
  | 0 | 1 | 2 => simp [leaf, invalid]
  | _ + 3 => rfl

variable {left : Nat} {cell : Entry} {size : PageSize}

lemma leaf_some (found : leaf (left, cell) = some (size, entry)) :
    cell.valid = true ∧ entry = cell := by
  cases valid : cell.valid with
  | false =>
    rw [leaf_invalid valid] at found
    cases found
  | true =>
    refine ⟨rfl, ?_⟩
    match left with
    | 0 =>
      simp only [leaf, valid, Bool.true_and] at found
      split at found
      · exact (Prod.mk.inj (Option.some.inj found)).2.symm
      · cases found
    | 1 | 2 =>
      simp only [leaf, valid, if_true] at found
      exact (Prod.mk.inj (Option.some.inj found)).2.symm
    | _ + 3 => cases found

/-! ## The path of an address -/

/-- The first indices of an address. -/
def pathTo (va : VirtAddr) (count : Nat) : List Index := (indices va).take count

lemma length_pathTo (va : VirtAddr) {count : Nat} (bound : count ≤ 4) :
    (pathTo va count).length = count := by
  rw [pathTo, List.length_take]
  simp only [indices, List.length_cons, List.length_nil]
  omega

variable {next : Level}

lemma pathTo_next (follows : level.next = some next) (va : VirtAddr) :
    pathTo va next.depth = pathTo va level.depth ++ [vaIndex va level] := by
  cases level <;> cases follows <;> rfl

lemma depth_next (follows : level.next = some next) : next.depth = level.depth + 1 ∧
    level.depth ≤ 2 := by
  cases level <;> cases follows <;> exact ⟨rfl, by decide⟩

variable {table : PageNo}

lemma not_slot (tree : Tree mem root) (outside : vaIndex va .level0 ≠ recursiveSlot)
    (here : tableAt mem root (pathTo va level.depth) = some table) :
    ¬ (table = root ∧ vaIndex va level = recursiveSlot) := by
  rintro ⟨rfl, slot⟩
  have depth : level.depth ≤ 3 := by cases level <;> decide
  have length := length_pathTo va (by omega : level.depth ≤ 4)
  have empty := tree.unshared _ [] table (by omega) (by simp) here rfl
  rw [empty] at length
  cases level with
  | level0 => exact outside slot
  | level1 | level2 | level3 => cases length

/-! ## Tables through the recursive slot -/

variable {live : PageNo}

lemma look_slot (slot : tableOf (mem live recursiveSlot) = some root) (more : path ≠ []) :
    look tableOf mem live (recursiveSlot :: path) = look tableOf mem root path := by
  obtain ⟨_, _, rfl⟩ := List.exists_cons_of_ne_nil more
  rw [look, slot]

variable {node child : PageNo}

lemma walk_recursive (pgtype : RootPageTableType)
    (slot : tableOf (mem live recursiveSlot) = some root)
    (self : tableOf (mem root recursiveSlot) = some root) (follows : level.next = some next)
    (va : VirtAddr)
    (here : follow tableOf mem root (pathTo va level.depth) = some node)
    (last : tableOf (mem node (vaIndex va level)) = some child) :
    walk mem live (recursiveTableAddr pgtype va next) =
      some (.page4K, mem node (vaIndex va level)) := by
  have ends : look tableOf mem root (pathTo va level.depth ++ [vaIndex va level]) =
      some (0, mem node (vaIndex va level)) := by
    rw [Radix.look_append here (by simp), look]
  have found : leaf (0, mem node (vaIndex va level)) =
    some (.page4K, mem node (vaIndex va level)) := by
    rw [tableOf, Option.ite_none_right_eq_some] at last
    rw [leaf, if_pos last.1]
  rw [walk]
  cases level with
  | level0 =>
    cases follows
    rw [indices_recursive_level1, look_slot slot (by simp), look_slot self (by simp),
      look_slot self (by simp)]
    rw [show [vaIndex va .level0] = pathTo va Level.level0.depth ++ [vaIndex va .level0] from rfl,
      ends]
    exact found
  | level1 =>
    cases follows
    rw [indices_recursive_level2, look_slot slot (by simp), look_slot self (by simp)]
    rw [show [vaIndex va .level0, vaIndex va .level1] =
      pathTo va Level.level1.depth ++ [vaIndex va .level1] from rfl, ends]
    exact found
  | level2 =>
    cases follows
    rw [indices_recursive_level3, look_slot slot (by simp)]
    rw [show [vaIndex va .level0, vaIndex va .level1, vaIndex va .level2] =
      pathTo va Level.level2.depth ++ [vaIndex va .level2] from rfl, ends]
    exact found
  | level3 => cases follows

lemma resolve_table {ttbr : Ttbr} {pgtype : RootPageTableType}
    (slot : mem (ttbr.root pgtype) recursiveSlot = tableEntry root)
    (self : mem root recursiveSlot = tableEntry root) (follows : level.next = some next)
    (va : VirtAddr)
    (here : follow tableOf mem root (pathTo va level.depth) = some node)
    (last : mem node (vaIndex va level) = tableEntry child) :
    resolveEntryMut ttbr pgtype va next mem = some child := by
  have walked := walk_recursive pgtype (slot ▸ tableOf_tableEntry root)
    (self ▸ tableOf_tableEntry root)
    follows va here (last ▸ tableOf_tableEntry child)
  simp only [resolveEntryMut, kernelPage, walked, last, accessPermission_tableEntry,
    AccessPermission.kernelWritable, frame, addr_tableEntry, if_true]

lemma Tree.descriptor (tree : Tree mem root) (short : path.length ≤ 2)
    (leads : follow tableOf mem root path = some node)
    (points : tableOf (mem node index) = some child) : mem node index = tableEntry child := by
  induction path with
  | nil =>
    cases leads
    by_cases slot : index = recursiveSlot
    · rw [slot, tree.self] at points ⊢
      rw [tableOf_tableEntry] at points
      rw [Option.some.inj points]
    have seen := masked_other root mem fun same : root = root ∧ index = recursiveSlot => slot same.2
    rw [← seen] at points ⊢
    exact tree.descriptors [] root index child (by simp) rfl points
  | cons first path ih =>
    rw [List.length_cons] at short
    by_cases slot : first = recursiveSlot
    · rw [slot, follow, tree.self, tableOf_tableEntry] at leads
      exact ih (by omega) leads
    have apart : ¬ [recursiveSlot] <+: first :: path := fun begins =>
      slot (List.cons_prefix_cons.mp begins).1.symm
    have bound : (first :: path).length ≤ 4 := by
      rw [List.length_cons]
      omega
    rw [Radix.follow_eq (agree_masked tree.unshared bound apart)] at leads
    have other : ¬ (node = root ∧ index = recursiveSlot) := by
      rintro ⟨rfl, -⟩
      have empty := tree.unshared (first :: path) [] node (by rw [List.length_cons]; omega)
        (by simp) leads rfl
      cases empty
    rw [← masked_other root mem other] at points ⊢
    exact tree.descriptors (first :: path) node index child (by omega) leads points

lemma look_table (tree : Tree mem root) (paged : Paged mem root) (short : path.length ≤ 3)
    (found : look tableOf mem root path = some (left, cell)) (valid : cell.valid = true) :
    ∃ child, cell = tableEntry child := by
  induction path with
  | nil => cases found
  | cons index path ih =>
    by_cases slot : index = recursiveSlot
    · subst slot
      by_cases more : path = []
      · subst more
        rw [look, tree.self] at found
        exact ⟨root, (Prod.mk.inj (Option.some.inj found)).2.symm⟩
      rw [look_slot (tree.self ▸ tableOf_tableEntry root) more] at found
      rw [List.length_cons] at short
      exact ih (by omega) found
    have apart : ¬ [recursiveSlot] <+: index :: path := fun begins =>
      slot (List.cons_prefix_cons.mp begins).1.symm
    rw [Radix.look_eq (agree_masked tree.unshared (by omega) apart)] at found
    obtain ⟨before, last, node, within, leads, rfl, length⟩ := Radix.look_cell found
    exact paged before node last (by omega) leads valid

lemma slot_private (tree : Tree mem root) (paged : Paged mem root)
    (slot : vaIndex va .level0 = recursiveSlot) (found : walk mem root va = some (size, entry)) :
    entry.accessPermission = .privRw := by
  obtain ⟨⟨_, _⟩, searched, ends⟩ := Option.bind_eq_some_iff.mp found
  rw [indices, slot, look_slot (tree.self ▸ tableOf_tableEntry root) (by simp)] at searched
  obtain ⟨valid, rfl⟩ := leaf_some ends
  obtain ⟨child, rfl⟩ := look_table tree paged (by simp) searched valid
  exact accessPermission_tableEntry child

/-! ## Recursive addresses -/

/-- The top bits of the addresses that the hardware translates from the root of a half. -/
def topBits : RootPageTableType → Nat
  | .kernel => 0xffff
  | .user => 0

/-- From a live root whose recursive slot points to a root that points to itself, the walk of every
address within the recursive address of a level is one of that half, and ends at the same place in
the page of the table of that level. -/
theorem recursive_address_reaches (pgtype : RootPageTableType) {live target table : PageNo}
    (slot : tableOf (mem live recursiveSlot) = some target)
    (self : tableOf (mem target recursiveSlot) = some target) (lower : level ≠ .level0)
    (exist : follow tableOf mem target (pathTo va level.depth) = some table) {offset : Nat}
    (inside : offset < 4096) {addr : VirtAddr}
    (within : addr = recursiveTableAddr pgtype va level + BitVec.ofNat 64 offset) :
    addr.toNat / 2 ^ 48 = topBits pgtype ∧ ∃ entry, walk mem live addr = some (.page4K, entry) ∧
      frame .page4K entry addr = table ∧ addr.toNat % 4096 = offset := by
  have aligned := recursiveTableAddr_aligned pgtype va level
  have half := recursiveTableAddr_half pgtype va level
  have top : (msbits pgtype).toNat / 2 ^ 48 = topBits pgtype := by cases pgtype <;> rfl
  have number : addr.toNat = (recursiveTableAddr pgtype va level).toNat + offset := by
    rw [within, BitVec.toNat_add, BitVec.toNat_ofNat]
    omega
  obtain ⟨above, follows⟩ : ∃ above : Level, above.next = some level := by
    cases level with
    | level0 => exact absurd rfl lower
    | level1 => exact ⟨.level0, rfl⟩
    | level2 => exact ⟨.level1, rfl⟩
    | level3 => exact ⟨.level2, rfl⟩
  rw [pathTo_next follows, Radix.follow_append] at exist
  obtain ⟨node, here, last⟩ := Option.bind_eq_some_iff.mp exist
  obtain ⟨child, points, ends⟩ := Option.bind_eq_some_iff.mp last
  cases ends
  refine ⟨by omega, mem node (vaIndex va above), ?_, ?_, by omega⟩
  · have page : addr.toNat / 4096 = (recursiveTableAddr pgtype va level).toNat / 4096 := by omega
    rw [walk, indices_page page]
    exact walk_recursive pgtype slot self follows va here points
  · rw [tableOf, Option.ite_none_right_eq_some] at points
    exact Option.some.inj points.2

def twoRoots : Mem := fun _ index => if index = recursiveSlot then tableEntry 2 else tableEntry 3

/-- The second entry of a level-1 table, through a live root that is not its own. -/
theorem recursive_address_reaches_table :
    ∃ entry, walk twoRoots 1 (recursiveTableAddr .user 0 .level1 + BitVec.ofNat 64 8) =
      some (.page4K, entry) ∧
      frame .page4K entry (recursiveTableAddr .user 0 .level1 + BitVec.ofNat 64 8) = 3 ∧
      (recursiveTableAddr .user 0 .level1 + BitVec.ofNat 64 8).toNat % 4096 = 8 := by
  have slot : tableOf (twoRoots 1 recursiveSlot) = some 2 := tableOf_tableEntry 2
  have self : tableOf (twoRoots 2 recursiveSlot) = some 2 := tableOf_tableEntry 2
  have exist : follow tableOf twoRoots 2 (pathTo 0 Level.level1.depth) = some 3 := by
    change (tableOf (tableEntry 3)).bind _ = _
    rfl
  exact (recursive_address_reaches .user slot self (by decide) exist (by decide) rfl).2

end R9x.Verif.PageTree
