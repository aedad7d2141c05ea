import R9x.Lib.Run
import R9x.Verif.PageTree

/-!
# Mapping into a tree of tables

`map_to` walks down from the root, creating empty tables where there are none, and writes one
descriptor.
-/

namespace R9x.Verif.PageTree

open Lib Aarch64.Vm
open Radix (follow follow_eq set_other follow_graft set_same set_node look_eq follow_cut look)
open Function (update update_of_ne update_self)
open PageSize (level)

variable {root live table : PageNo} {phys before after : Phys} {level next : Level}
  {taken : List (Except PageAllocError PageNo)}

/-! ## Pages from the allocator -/

/-- The pages among some answers of the allocator. -/
def pages (answers : List (Except PageAllocError PageNo)) : List PageNo :=
    answers.filterMap Except.toOption

lemma pages_append (first second : List (Except PageAllocError PageNo)) :
    pages (first ++ second) = pages first ++ pages second := List.filterMap_append ..

/-- The allocator's next pages are distinct, and neither tables of the tree nor the live root. -/
structure Supplied (phys : Phys) (root live : PageNo) : Prop where
  distinct : (pages phys.supply).Nodup
  unused : ∀ page ∈ pages phys.supply, ¬ InTree phys.mem root page
  apart : live ∉ pages phys.supply

/-- What a change does to the tree under a root, given the answers it took from the allocator. -/
structure Touched (root : PageNo) (before after : Phys)
    (taken : List (Except PageAllocError PageNo)) : Prop where
  tree : Tree after.mem root
  supply : before.supply = taken ++ after.supply
  tables : ∀ page, InTree after.mem root page → InTree before.mem root page ∨ page ∈ pages taken
  frame : ∀ page, ¬ InTree before.mem root page → page ∉ pages taken → after.mem page =
    before.mem page

lemma Touched.refl (tree : Tree phys.mem root) : Touched root phys phys [] :=
  ⟨tree, rfl, fun _ => .inl, fun _ _ _ => rfl⟩

lemma Touched.trans {before middle after : Phys}
    {first second : List (Except PageAllocError PageNo)} (one : Touched root before middle first)
    (two : Touched root middle after second) : Touched root before after (first ++ second) where
  tree := two.tree
  supply := by rw [one.supply, two.supply, List.append_assoc]
  tables page inside := by
    rw [pages_append, List.mem_append]
    rcases two.tables page inside with old | new
    · rcases one.tables page old with older | newer
      · exact .inl older
      · exact .inr (.inl newer)
    · exact .inr (.inr new)
  frame page outside untaken := by
    rw [pages_append, List.mem_append, not_or] at untaken
    have still : ¬ InTree middle.mem root page := fun inside =>
      (one.tables page inside).elim outside untaken.1
    rw [two.frame page still untaken.2, one.frame page outside untaken.1]

section

variable (touched : Touched root before after taken)
include touched

lemma Touched.supplied (supplied : Supplied before root live) : Supplied after root live := by
  have split : pages before.supply = pages taken ++ pages after.supply := by
    rw [touched.supply, pages_append]
  have distinct := supplied.distinct
  rw [split, List.nodup_append] at distinct
  refine ⟨distinct.2.1, fun page later inside => ?_, fun later => ?_⟩
  · have member : page ∈ pages before.supply := split ▸ List.mem_append_right _ later
    rcases touched.tables page inside with old | new
    · exact supplied.unused page member old
    · exact distinct.2.2 page new page later rfl
  · exact supplied.apart (split ▸ List.mem_append_right _ later)

/-- A live root is the mapped root or no table of its tree. -/
def Stranger (mem : Mem) (root live : PageNo) : Prop := live = root ∨ ¬ InTree mem root live

lemma Touched.stranger (supplied : Supplied before root live)
    (stranger : Stranger before.mem root live) :
    Stranger after.mem root live := by
  refine stranger.imp id fun outside inside => ?_
  rcases touched.tables live inside with old | new
  · exact outside old
  refine supplied.apart ?_
  rw [touched.supply, pages_append]
  exact List.mem_append_left _ new

lemma Touched.slot (supplied : Supplied before root live) (stranger : Stranger before.mem root live)
    (slot : before.mem live recursiveSlot = tableEntry root) :
    after.mem live recursiveSlot = tableEntry root := by
  rcases stranger with rfl | outside
  · exact touched.tree.self
  have untaken : live ∉ pages taken := fun new => by
    refine supplied.apart ?_
    rw [touched.supply, pages_append]
    exact List.mem_append_left _ new
  rw [touched.frame live outside untaken, slot]

end

/-- The walks of two memories agree outside the recursive slot. -/
def SameWalks (root : PageNo) (before after : Mem) : Prop :=
  ∀ va, vaIndex va .level0 ≠ recursiveSlot → walk after root va = walk before root va

/-! ## Creating an empty table -/

section

variable {mem : Mem} {page : PageNo} {va : VirtAddr}

def withTable (mem : Mem) (table : PageNo) (index : Index) (page : PageNo) : Mem :=
  update (Radix.set mem table index (tableEntry page)) page fun _ => 0

def blanked (mem : Mem) (root page : PageNo) : Mem := update (masked root mem) page fun _ => 0

lemma ne_of_inTree {inside : PageNo} (reached : InTree mem root inside)
    (unused : ¬ InTree mem root page) : inside ≠ page := fun same => unused (same ▸ reached)

section

variable (unused : ¬ InTree mem root page)
include unused

lemma blanked_agrees (node : PageNo)
    (reached : InTree mem root node) : blanked mem root page node = masked root mem node :=
  update_of_ne (ne_of_inTree reached unused) _ _

lemma masked_withTable {index : Index}
    (inside : InTree mem root table) (apart : ¬ (table = root ∧ index = recursiveSlot)) :
    masked root (withTable mem table index page) =
      Radix.set (blanked mem root page) table index (tableEntry page) := by
  have other : page ≠ root := (ne_of_inTree (inTree_root mem root) unused).symm
  have different : page ≠ table := (ne_of_inTree inside unused).symm
  rw [withTable, masked, ← Radix.set_update _ recursiveSlot 0 _ other, blanked,
    ← Radix.set_update _ index (tableEntry page) _ different, ← masked_set root mem _ apart]
  rfl

lemma blanked_fresh : Radix.Fresh tableOf (blanked mem root page) root 3 page where
  unreached reached := unused ((Radix.reached_congr (blanked_agrees unused) page).mp reached)
  barren index := by
    rw [blanked, update_self]
    rfl

lemma follow_blanked {path : List Index} (short : path.length ≤ 4) :
    follow tableOf (blanked mem root page) root path = tableAt mem root path :=
  follow_eq (Radix.agreeAlong_of_reached (blanked_agrees unused) short)

end

lemma short_pathTo (va : VirtAddr) (level : Level) : (pathTo va level.depth).length ≤ 3 := by
  rw [length_pathTo va (by cases level <;> decide)]
  cases level <;> decide

variable (tree : Tree mem root) (outside : vaIndex va .level0 ≠ recursiveSlot)
  (here : tableAt mem root (pathTo va level.depth) = some table) (unused : ¬ InTree mem root page)
include tree outside here unused

/-- An unused page can be hung below the table at the end of a path. -/
lemma Tree.hung : InTree mem root table ∧ masked root
    (withTable mem table (vaIndex va level) page) =
      Radix.set (blanked mem root page) table (vaIndex va level) (tableEntry page) ∧
    Radix.Unshared tableOf (blanked mem root page) root 3 ∧
    follow tableOf (blanked mem root page) root (pathTo va level.depth) = some table := by
  have short := short_pathTo va level
  have inside : InTree mem root table := ⟨_, short, here⟩
  exact ⟨inside, masked_withTable unused inside (not_slot tree outside here),
    tree.unshared.congr (blanked_agrees unused), (follow_blanked unused (by omega)).trans here⟩

lemma Tree.created : Tree (withTable mem table (vaIndex va level) page) root := by
  obtain ⟨inside, shape, unshared, start⟩ := tree.hung outside here unused
  have short := short_pathTo va level
  have apart := not_slot tree outside here
  have fresh := blanked_fresh unused
  refine ⟨?_, ?_, fun path node index child bound leads points => ?_⟩
  · rw [shape]
    exact unshared.graft short start (tableOf_tableEntry page) fresh
  · have other : root ≠ page := ne_of_inTree (inTree_root mem root) unused
    rw [withTable, update_of_ne other, set_other mem _ fun same => apart ⟨same.1.symm, same.2.symm⟩,
      tree.self]
  · rw [tableAt, shape] at leads
    rw [shape] at points ⊢
    rcases follow_graft unshared short start (tableOf_tableEntry page) fresh
      (by omega) leads with old | ⟨-, rfl⟩
    · rw [follow_blanked unused (by omega)] at old
      have reached : InTree mem root node := ⟨path, by omega, old⟩
      by_cases written : node = table ∧ index = vaIndex va level
      · obtain ⟨rfl, rfl⟩ := written
        rw [set_same, tableOf_tableEntry] at points
        rw [set_same, Option.some.inj points]
      rw [set_other _ _ written, blanked_agrees unused node reached] at points ⊢
      exact tree.descriptors path node index child bound old points
    rw [set_node _ _ _ (ne_of_inTree inside unused).symm, fresh.barren] at points
    cases points

lemma Tree.created_walks (follows : level.next = some next)
    (invalid : (mem table (vaIndex va level)).valid = false) :
    SameWalks root mem (withTable mem table (vaIndex va level) page) := by
  intro other elsewhere
  obtain ⟨inside, shape, unshared, start⟩ := tree.hung outside here unused
  have short := short_pathTo va level
  have apart := not_slot tree outside here
  have bound : (indices other).length ≤ 4 := Nat.le_refl 4
  rw [walk_masked tree.unshared elsewhere, walk_masked (tree.created outside here unused).unshared
    elsewhere, shape]
  by_cases through : pathTo va level.depth ++ [vaIndex va level] <+: indices other
  · obtain ⟨rest, split⟩ := through
    have more := (depth_next follows).2
    have length : (indices other).length = 4 := rfl
    rw [← split, List.length_append, List.length_append, List.length_singleton,
      length_pathTo va (by omega)] at length
    obtain ⟨second, tail, rfl⟩ := List.exists_cons_of_ne_nil
      (fun empty => by rw [empty, List.length_nil] at length; omega : rest ≠ [])
    have path : indices other = pathTo va level.depth ++ vaIndex va level :: second :: tail := by
      rw [← split]
      simp
    have missing : tableOf (masked root mem table (vaIndex va level)) = none := by
      rw [masked_other root mem apart, tableOf, invalid]
      rfl
    have before : look tableOf (masked root mem) root (indices other) =
        some (tail.length + 1, mem table (vaIndex va level)) := by
      rw [path, Radix.look_append here (by simp), look, missing, masked_other root mem apart]
    have after : look tableOf
        (Radix.set (blanked mem root page) table (vaIndex va level) (tableEntry page)) root
        (indices other) = some (tail.length, 0) := by
      have barren := (ne_of_inTree inside unused).symm
      have zero : ∀ index, Radix.set (blanked mem root page) table (vaIndex va level)
          (tableEntry page) page index = 0 := by
        intro _
        rw [set_node _ _ _ barren, blanked, update_self]
      rw [path, Radix.look_set_through unshared short start, look, set_same, tableOf_tableEntry]
      change look tableOf _ page (second :: tail) = _
      cases tail with
      | nil =>
        rw [look, zero]
        rfl
      | cons =>
        rw [look, zero, tableOf_zero]
        rfl
    rw [before, after, Option.bind_some, Option.bind_some, leaf_invalid invalid,
      leaf_invalid (by rfl)]
  · rw [look_eq (Radix.agreeAlong_set unshared short start _ bound through),
      look_eq (Radix.agreeAlong_of_reached (blanked_agrees unused) bound)]

lemma Tree.created_tables (follows : level.next = some next) :
    tableAt (withTable mem table (vaIndex va level) page) root (pathTo va next.depth) = some page ∧
      ∀ other, InTree (withTable mem table (vaIndex va level) page) root other →
        InTree mem root other ∨ other = page := by
  obtain ⟨-, shape, unshared, start⟩ := tree.hung outside here unused
  have short := short_pathTo va level
  refine ⟨?_, fun other reached => ?_⟩
  · rw [tableAt, shape, pathTo_next follows, Radix.follow_set_through unshared short start,
      tableOf_tableEntry]
    rfl
  · obtain ⟨path, bound, leads⟩ := reached
    rw [shape] at leads
    rcases follow_graft unshared short start (tableOf_tableEntry page) (blanked_fresh unused)
      bound leads with old | ⟨-, new⟩
    · rw [follow_blanked unused (by omega)] at old
      exact .inl ⟨path, bound, old⟩
    · exact .inr new

lemma Tree.created_words {ok : Nat → Entry → Prop} (words : Words ok mem root)
    (lawful : Lawful ok) (upper : level.depth ≤ 2) :
    Words ok (withTable mem table (vaIndex va level) page) root := by
  obtain ⟨inside, shape, unshared, start⟩ := tree.hung outside here unused
  have short := short_pathTo va level
  have fresh := blanked_fresh unused
  intro path node index bound leads
  rw [tableAt, shape] at leads
  rw [shape]
  rcases follow_graft unshared short start (tableOf_tableEntry page) fresh bound leads with
    old | ⟨-, rfl⟩
  · by_cases written : node = table ∧ index = vaIndex va level
    · have same := unshared path _ table bound short (written.1 ▸ old) start
      rw [written.1, written.2, set_same, same, length_pathTo va (by omega)]
      exact lawful.table level.depth page upper
    · rw [set_other _ _ written]
      rw [follow_blanked unused (by omega)] at old
      rw [blanked_agrees unused node ⟨path, bound, old⟩]
      exact words path node index bound old
  have apart : node ≠ table := fun same => unused (same ▸ inside)
  rw [set_node _ _ _ apart, blanked, update_self]
  exact lawful.empty path.length

end

/-! ## Walking down -/

/-- A change that only adds empty tables. -/
structure Grown (root : PageNo) (before after : Phys)
    (taken : List (Except PageAllocError PageNo)) :
    Prop extends Touched root before after taken where
  walks : SameWalks root before.mem after.mem
  words : ∀ ok, Lawful ok → Words ok before.mem root → Words ok after.mem root

lemma Grown.refl (tree : Tree phys.mem root) : Grown root phys phys [] :=
  ⟨.refl tree, fun _ _ => rfl, fun _ _ => id⟩

lemma Grown.trans {before middle after : Phys}
    {first second : List (Except PageAllocError PageNo)} (one : Grown root before middle first)
    (two : Grown root middle after second) : Grown root before after (first ++ second) :=
  ⟨one.toTouched.trans two.toTouched, fun va outside =>
    (two.walks va outside).trans (one.walks va outside), fun ok lawful =>
    two.words ok lawful ∘ one.words ok lawful⟩

lemma Grown.refused {err : PageAllocError} {supply : List (Except PageAllocError PageNo)}
    (tree : Tree phys.mem root) (answers : phys.supply = .error err :: supply) :
    Grown root phys { phys with supply } [.error err] :=
  ⟨⟨tree, answers, fun _ => .inl, fun _ _ _ => rfl⟩, fun _ _ => rfl, fun _ _ => id⟩

section

variable {ttbr : Ttbr} {pgtype : RootPageTableType} {va : VirtAddr}

/-- A mapping in progress: the tables form a tree that the live root's slot points to, and the
allocator's pages are unused. -/
structure Ready (phys : Phys) (root live : PageNo) : Prop where
  tree : Tree phys.mem root
  slot : phys.mem live recursiveSlot = tableEntry root
  stranger : Stranger phys.mem root live
  supplied : Supplied phys root live

lemma Ready.touched (ready : Ready before root live) (touched : Touched root before after taken)
    : Ready after root live where
  tree := touched.tree
  slot := touched.slot ready.supplied ready.stranger ready.slot
  stranger := touched.stranger ready.supplied ready.stranger
  supplied := touched.supplied ready.supplied

section

variable {mem : Mem} (ready : Ready phys root (ttbr.root pgtype))
  (outside : vaIndex va .level0 ≠ recursiveSlot)
  (here : tableAt phys.mem root (pathTo va level.depth) = some table)

include outside in
lemma Tree.agrees (tree : Tree phys.mem root) (level : Level) :
    Radix.AgreeAlong tableOf (masked root phys.mem) phys.mem root (pathTo va level.depth) := by
  have short := short_pathTo va level
  exact agree_masked tree.unshared (by omega) fun starts =>
    indices_apart outside (starts.trans (List.take_prefix _ _))

variable (agree : Radix.AgreeAlong tableOf (masked root phys.mem) mem root (pathTo va level.depth))
  (slot : mem (ttbr.root pgtype) recursiveSlot = phys.mem (ttbr.root pgtype) recursiveSlot)
  (self : mem root recursiveSlot = phys.mem root recursiveSlot) (follows : level.next = some next)
  {child : PageNo}

include here agree in
lemma Tree.follow_set (tree : Tree phys.mem root) (page : PageNo) :
    follow tableOf (Radix.set mem table (vaIndex va level) (tableEntry page)) root
      (pathTo va level.depth) = some table := by
  have unseen : ∀ before, before ++ [vaIndex va level] <+: pathTo va level.depth →
      tableAt phys.mem root before ≠ some table := by
    intro before within reached
    have short := short_pathTo va level
    have length := within.length_le
    rw [List.length_append, List.length_singleton] at length
    have same := tree.unshared before _ table (by omega) short reached here
    rw [same] at length
    omega
  rw [follow_eq (agree.set table (vaIndex va level) unseen (tableEntry page))]
  exact here

include ready outside here agree slot self follows

/-- A memory that shows the same path to a table shows a page linked below it. -/
lemma Ready.resolve_set (page : PageNo) : resolveEntryMut ttbr pgtype va next
      (Radix.set mem table (vaIndex va level) (tableEntry page)) = some page := by
  have tree := ready.tree
  have apart := not_slot tree outside here
  have elsewhere : ¬ (ttbr.root pgtype = table ∧ recursiveSlot = vaIndex va level) := by
    rintro ⟨same, slot⟩
    rcases ready.stranger with own | foreign
    · exact apart ⟨same ▸ own, slot.symm⟩
    · exact foreign (same ▸ ⟨_, short_pathTo va level, here⟩)
  refine resolve_table ?_ ?_ follows va (tree.follow_set here agree page) (set_same ..)
  · rw [set_other _ _ elsewhere, slot, ready.slot]
  · rw [set_other _ _ fun same => apart ⟨same.1.symm, same.2.symm⟩, self, tree.self]

/-- And the table below it. -/
lemma Ready.resolve_agrees (word : mem table (vaIndex va level) = phys.mem table (vaIndex va level))
    (points : tableOf (phys.mem table (vaIndex va level)) = some child) :
    resolveEntryMut ttbr pgtype va next mem = some child := by
  have tree := ready.tree
  have seen := masked_other root phys.mem (not_slot tree outside here)
  have deep : level.depth ≤ 2 := (depth_next follows).2
  have length : (pathTo va level.depth).length ≤ 2 := by
    rw [length_pathTo va (by omega)]
    exact deep
  have descriptor := tree.descriptors _ table (vaIndex va level) child length here
    (by rw [seen]; exact points)
  rw [seen, ← word] at descriptor
  exact resolve_table (slot.trans ready.slot) (self.trans tree.self) follows va
    ((follow_eq agree).trans here) descriptor

omit agree slot self in
lemma Ready.resolve_found (points : tableOf (phys.mem table (vaIndex va level)) = some child) :
    resolveEntryMut ttbr pgtype va next phys.mem = some child :=
  ready.resolve_agrees outside here (ready.tree.agrees outside level) rfl rfl follows rfl points

end

lemma Ready.linked {table page : PageNo} {supply : List (Except PageAllocError PageNo)}
    (ready : Ready phys root live) (outside : vaIndex va .level0 ≠ recursiveSlot)
    (follows : level.next = some next) (here : tableAt phys.mem root (pathTo va level.depth) =
      some table)
    (invalid : (phys.mem table (vaIndex va level)).valid = false)
    (answers : phys.supply = .ok page :: supply) :
    Grown root phys ⟨withTable phys.mem table (vaIndex va level) page, supply⟩ [.ok page] := by
  have tree := ready.tree
  have unused : ¬ InTree phys.mem root page := by
    refine ready.supplied.unused page ?_
    rw [answers]
    exact List.mem_cons_self
  have inside : InTree phys.mem root table := ⟨_, short_pathTo va level, here⟩
  refine ⟨⟨tree.created outside here unused, answers, fun other reached => ?_,
    fun other outer untaken => ?_⟩, tree.created_walks outside here unused follows invalid,
    fun ok lawful words =>
      tree.created_words outside here unused words lawful (depth_next follows).2⟩
  · rcases (tree.created_tables outside here unused follows).2 other reached with old | new
    · exact .inl old
    · exact .inr (new ▸ List.mem_singleton_self page)
  · have apart : other ≠ page := fun same => untaken (same ▸ List.mem_singleton_self page)
    have different : other ≠ table := fun same => outer (same ▸ inside)
    change withTable phys.mem table (vaIndex va level) page other = phys.mem other
    rw [withTable, update_of_ne apart, set_node _ _ _ different]

/-! The four ways `next_mut` can go outside the recursive slot. -/

section

variable (outside : vaIndex va .level0 ≠ recursiveSlot) (follows : level.next = some next)

include outside

lemma not_refused : ¬ (level = .level0 ∧ vaIndex va level = recursiveSlot) := by
  rintro ⟨rfl, slot⟩
  exact outside slot

lemma nextMut_refused {err : PageAllocError} (invalid : (phys.mem table (vaIndex va level)).valid =
    false)
    (answers : phys.alloc = (.error err, after)) :
    nextMut ttbr pgtype va level table phys = some (.error (.allocationFailed err), after) := by
  simp [nextMut, not_refused outside, invalid, answers]

lemma nextMut_stopped (valid : (phys.mem table (vaIndex va level)).valid = true)
    (stops : tableOf (phys.mem table (vaIndex va level)) = none) :
    nextMut ttbr pgtype va level table phys = some (.error .entryIsNotTable, phys) := by
  have flag : (phys.mem table (vaIndex va level)).pageOrTable = false := by
    rw [tableOf, valid, Bool.true_and, ite_eq_right_iff] at stops
    cases flag : (phys.mem table (vaIndex va level)).pageOrTable with
    | true => cases stops flag
    | false => rfl
  simp [nextMut, not_refused outside, valid, flag, Entry.isTable]

include follows

lemma nextMut_found {child page : PageNo}
    (points : tableOf (phys.mem table (vaIndex va level)) = some child)
    (resolved : resolveEntryMut ttbr pgtype va next phys.mem = some page) :
    nextMut ttbr pgtype va level table phys = some (.ok page, phys) := by
  rw [tableOf, Option.ite_none_right_eq_some, Bool.and_eq_true_iff] at points
  obtain ⟨⟨valid, flag⟩, -⟩ := points
  have upper : level ≠ .level3 := by
    rintro rfl
    cases follows
  simp [nextMut, not_refused outside, valid, flag, Entry.isTable, upper, follows, resolved]

lemma nextMut_linked {page : PageNo} {supply : List (Except PageAllocError PageNo)}
    (invalid : (phys.mem table (vaIndex va level)).valid = false)
    (answers : phys.supply = .ok page :: supply)
    (resolved : resolveEntryMut ttbr pgtype va next
      (Radix.set phys.mem table (vaIndex va level) (tableEntry page)) = some page) :
    nextMut ttbr pgtype va level table phys =
      some (.ok page, ⟨withTable phys.mem table (vaIndex va level) page, supply⟩) := by
  simp [nextMut, not_refused outside, invalid, Phys.alloc, answers, Phys.set, Phys.clear, follows,
    resolved, withTable]

end

lemma Tree.tableAt_next {mem : Mem} {child : PageNo} (tree : Tree mem root)
    (outside : vaIndex va .level0 ≠ recursiveSlot) (follows : level.next = some next)
    (here : tableAt mem root (pathTo va level.depth) = some table)
    (points : tableOf (mem table (vaIndex va level)) = some child) :
    tableAt mem root (pathTo va next.depth) = some child := by
  have seen := masked_other root mem (not_slot tree outside here)
  have start : follow tableOf (masked root mem) root (pathTo va level.depth) = some table := here
  rw [pathTo_next follows, tableAt, Radix.follow_append, start]
  simp only [Option.bind_some, follow, seen, points]

lemma nextMut_spec (ready : Ready phys root (ttbr.root pgtype))
    (outside : vaIndex va .level0 ≠ recursiveSlot) (follows : level.next = some next)
    (here : tableAt phys.mem root (pathTo va level.depth) = some table) :
    ∃ result after taken, nextMut ttbr pgtype va level table phys = some (result, after) ∧
      Grown root phys after taken ∧
      ∀ found, result = .ok found → tableAt after.mem root (pathTo va next.depth) = some found := by
  have tree := ready.tree
  cases points : tableOf (phys.mem table (vaIndex va level)) with
  | some child =>
    have resolved := ready.resolve_found outside here follows points
    refine ⟨.ok child, phys, [], nextMut_found outside follows points resolved, .refl tree,
      fun found same => ?_⟩
    cases same
    exact tree.tableAt_next outside follows here points
  | none =>
    cases valid : Entry.valid (phys.mem table (vaIndex va level)) with
    | true =>
      exact ⟨_, phys, [], nextMut_stopped outside valid points, .refl tree,
        fun _ impossible => by cases impossible⟩
    | false =>
      cases answers : phys.supply with
      | nil =>
        have refused : phys.alloc = (.error .outOfSpace, phys) := by rw [Phys.alloc, answers]
        exact ⟨_, phys, [], nextMut_refused outside valid refused, .refl tree,
          fun _ impossible => by cases impossible⟩
      | cons answer supply =>
        cases answer with
        | error err =>
          have refused : phys.alloc = (.error err, { phys with supply }) := by
            rw [Phys.alloc, answers]
          exact ⟨_, _, [.error err], nextMut_refused outside valid refused, .refused tree answers,
            fun _ impossible => by cases impossible⟩
        | ok page =>
          have unused : ¬ InTree phys.mem root page := by
            refine ready.supplied.unused page ?_
            rw [answers]
            exact List.mem_cons_self
          refine ⟨_, _, [.ok page], nextMut_linked outside follows valid answers
            (ready.resolve_set outside here (tree.agrees outside level) rfl rfl follows page),
            ready.linked outside follows here valid answers, fun found same => ?_⟩
          cases same
          exact (tree.created_tables outside here unused follows).1

def Descends : List Level → Level → Level → Prop
  | [], level, last => level = last
  | level' :: levels, level, last =>
    level' = level ∧ ∃ next, level.next = some next ∧ Descends levels next last

lemma descends_tables (size : PageSize) : Descends size.tables .level0 size.level := by
  cases size with
  | page4K => exact ⟨rfl, _, rfl, rfl, _, rfl, rfl, _, rfl, rfl⟩
  | page2M => exact ⟨rfl, _, rfl, rfl, _, rfl, rfl⟩
  | page1G => exact ⟨rfl, _, rfl, rfl⟩

lemma nextAll_spec {levels : List Level} {level last : Level}
    (ready : Ready phys root (ttbr.root pgtype))
    (outside : vaIndex va .level0 ≠ recursiveSlot) (descends : Descends levels level last)
    (here : tableAt phys.mem root (pathTo va level.depth) = some table) :
    ∃ result after taken, nextAll ttbr pgtype va levels table phys = some (result, after) ∧
      Grown root phys after taken ∧
      ∀ found, result = .ok found → tableAt after.mem root (pathTo va last.depth) = some found := by
  induction levels generalizing phys level table with
  | nil =>
    refine ⟨.ok table, phys, [], rfl, .refl ready.tree, fun found same => ?_⟩
    rw [← show level = last from descends, ← Except.ok.inj same]
    exact here
  | cons _ _ ih =>
    obtain ⟨rfl, _, follows, later⟩ := descends
    obtain ⟨result, middle, taken, one, grown, finds⟩ := nextMut_spec ready outside follows here
    cases result with
    | error err =>
      refine ⟨.error err, middle, taken, ?_, grown, nofun⟩
      rw [nextAll, one]
    | ok found =>
      obtain ⟨result, after, more, rest, grownMore, findsLast⟩ :=
        ih (ready.touched grown.toTouched) later (finds found rfl)
      refine ⟨result, after, taken ++ more, ?_, grown.trans grownMore, findsLast⟩
      rw [nextAll, one]
      exact rest

end

/-! ## Writing the descriptor -/

/-- The addresses a page or block covers, modulo the 48 bits that are translated. -/
def Covers (size : PageSize) (va other : VirtAddr) : Prop :=
  other.toNat % 2 ^ 48 / size.size = va.toNat % 2 ^ 48 / size.size

instance (size : PageSize) (va other : VirtAddr) : Decidable (Covers size va other) :=
  inferInstanceAs (Decidable (_ = _))

lemma vaIndex_eq_iff (va other : VirtAddr) (level : Level) :
    vaIndex va level = vaIndex other level ↔
      va.toNat / 2 ^ level.shift % 512 = other.toNat / 2 ^ level.shift % 512 := by
  rw [← toNat_vaIndex, ← toNat_vaIndex, BitVec.toNat_inj]

lemma covers_iff (size : PageSize) (va other : VirtAddr) : Covers size va other ↔
      pathTo va (size.level.depth + 1) = pathTo other (size.level.depth + 1) := by
  generalize left : va.toNat = x
  generalize right : other.toNat = y
  cases size <;> simp [Covers, PageSize.size, level, Level.depth, pathTo, indices,
    vaIndex_eq_iff, Level.shift, left, right] <;> omega

lemma covers_iff_through (size : PageSize) (va other : VirtAddr) : Covers size va other ↔
      pathTo va size.level.depth ++ [vaIndex va size.level] <+: indices other := by
  have path : pathTo va (size.level.depth + 1) = pathTo va size.level.depth ++
    [vaIndex va size.level] := by
    cases size <;> rfl
  have length : (pathTo va (size.level.depth + 1)).length = size.level.depth + 1 :=
    length_pathTo va (by cases size <;> decide)
  rw [covers_iff, ← path, List.prefix_iff_eq_take, length]
  rfl

lemma Covers.first {size : PageSize} {va other : VirtAddr} (covered : Covers size va other) :
    vaIndex other .level0 = vaIndex va .level0 := by
  have path := (covers_iff size va other).mp covered
  exact (List.cons.inj path).1.symm

variable {mem : Mem} {va : VirtAddr} {size : PageSize} {entry : Entry}

def withLeaf (mem : Mem) (table : PageNo) (va : VirtAddr) (size : PageSize) (entry : Entry) : Mem :=
  Radix.set mem table (vaIndex va size.level) (size.entry entry)

lemma tableOf_block (va : VirtAddr) (size : PageSize) (block : entry.pageOrTable = false)
    (above : (pathTo va size.level.depth).length < 3) : tableOf (size.entry entry) = none := by
  have other : size ≠ .page4K := by
    rintro rfl
    rw [length_pathTo va (by decide)] at above
    exact absurd above (by decide)
  rw [PageSize.entry, if_neg other, tableOf, block, Bool.and_false]
  rfl

lemma leaf_written (valid : entry.valid = true) :
    leaf (3 - size.level.depth, size.entry entry) = some (size, size.entry entry) := by
  cases size with
  | page4K =>
    have flagged : PageSize.page4K.entry entry = entry.withPageOrTable true := rfl
    have set : (entry.withPageOrTable true).valid = true := by
      rw [Entry.valid_withPageOrTable, valid]
    simp [leaf, flagged, set, Entry.pageOrTable_withPageOrTable, level, Level.depth]
  | page2M =>
    have same : PageSize.page2M.entry entry = entry := rfl
    simp [leaf, same, valid, level, Level.depth]
  | page1G =>
    have same : PageSize.page1G.entry entry = entry := rfl
    simp [leaf, same, valid, level, Level.depth]

variable (tree : Tree mem root) (outside : vaIndex va .level0 ≠ recursiveSlot)
  (here : tableAt mem root (pathTo va size.level.depth) = some table)
  (block : entry.pageOrTable = false) {other : VirtAddr}
include tree outside here

lemma Tree.masked_withLeaf (entry : Entry) : masked root (withLeaf mem table va size entry) =
    Radix.set (masked root mem) table (vaIndex va size.level) (size.entry entry) :=
  masked_set root mem _ (not_slot tree outside here)

include block

lemma Tree.written : Tree (withLeaf mem table va size entry) root ∧
      ∀ page, InTree (withLeaf mem table va size entry) root page → InTree mem root page := by
  have short := short_pathTo va size.level
  have shape := tree.masked_withLeaf outside here entry
  have barren := tableOf_block va size block
  refine ⟨⟨?_, ?_, fun path node index child bound leads points => ?_⟩, fun page reached => ?_⟩
  · rw [shape]
    exact tree.unshared.cut short here barren
  · have apart := not_slot tree outside here
    rw [withLeaf, set_other _ _ fun same => apart ⟨same.1.symm, same.2.symm⟩, tree.self]
  · rw [tableAt, shape] at leads
    rw [shape] at points ⊢
    have old := follow_cut tree.unshared short here barren (by omega) leads
    by_cases same : node = table ∧ index = vaIndex va size.level
    · obtain ⟨rfl, rfl⟩ := same
      have path' := tree.unshared path _ node (by omega) short old here
      rw [set_same, barren (path' ▸ by omega)] at points
      cases points
    rw [set_other _ _ same] at points ⊢
    exact tree.descriptors path node index child bound old points
  · obtain ⟨path, bound, leads⟩ := reached
    rw [shape] at leads
    exact ⟨path, bound, follow_cut tree.unshared short here barren bound leads⟩

lemma Tree.written_inside (valid : entry.valid = true) (covered : Covers size va other) :
    walk (withLeaf mem table va size entry) root other = some (size, size.entry entry) := by
  have short := short_pathTo va size.level
  have shape := tree.masked_withLeaf outside here entry
  obtain ⟨rest, split⟩ := (covers_iff_through size va other).mp covered
  have elsewhere : vaIndex other .level0 ≠ recursiveSlot := covered.first ▸ outside
  have length : rest.length = 3 - size.level.depth := by
    have total : (indices other).length = 4 := rfl
    rw [← split, List.length_append, List.length_append, List.length_singleton,
      length_pathTo va (by cases size <;> decide)] at total
    omega
  have stops : rest ≠ [] → tableOf (size.entry entry) = none := by
    intro more
    have positive := List.length_pos_iff.mpr more
    refine tableOf_block va size block ?_
    rw [length_pathTo va (by cases size <;> decide)]
    omega
  have path : indices other = pathTo va size.level.depth ++ vaIndex va size.level :: rest := by
    rw [← split]
    simp
  rw [walk_masked (tree.written outside here block).1.unshared elsewhere, shape, path,
    Radix.look_set_through tree.unshared short here, Radix.look_stop (by rwa [set_same]),
    set_same, length]
  exact leaf_written valid

lemma Tree.written_outside (elsewhere : vaIndex other .level0 ≠ recursiveSlot)
    (uncovered : ¬ Covers size va other) :
    walk (withLeaf mem table va size entry) root other = walk mem root other := by
  have short := short_pathTo va size.level
  have shape := tree.masked_withLeaf outside here entry
  have bound : (indices other).length ≤ 4 := Nat.le_refl 4
  rw [covers_iff_through] at uncovered
  rw [walk_masked (tree.written outside here block).1.unshared elsewhere, shape,
    walk_masked tree.unshared elsewhere,
    look_eq (Radix.agreeAlong_set tree.unshared short here _ bound uncovered)]

lemma Tree.written_words {ok : Nat → Entry → Prop} (words : Words ok mem root)
    (fits : ok size.level.depth (size.entry entry)) :
    Words ok (withLeaf mem table va size entry) root := by
  have short := short_pathTo va size.level
  have shape := tree.masked_withLeaf outside here entry
  intro path node index bound leads
  rw [tableAt, shape] at leads
  rw [shape]
  have old := follow_cut tree.unshared short here (tableOf_block va size block) (by omega) leads
  by_cases written : node = table ∧ index = vaIndex va size.level
  · have same := tree.unshared path _ table bound short (written.1 ▸ old) here
    rw [written.1, written.2, set_same, same, length_pathTo va (by cases size <;> decide)]
    exact fits
  rw [set_other _ _ written]
  exact words path node index bound old

end R9x.Verif.PageTree
