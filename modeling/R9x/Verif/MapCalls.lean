import R9x.Verif.MapTo

/-!
# Calls of `map_to`

A call points the live root's recursive slot to the mapped root, walks down, writes a descriptor and
puts the slot back.
-/

namespace R9x.Verif.PageTree

open Lib Aarch64.Vm
open Radix (set_same look_eq set_node look)

/-! ## Memory outside the tree -/

/-- A memory agrees with another on the tables of a tree. -/
def Agrees (root : PageNo) (mem other : Mem) : Prop :=
    ∀ page, InTree mem root page → other page = mem page

section

variable {mem other : Mem} {root : PageNo}

lemma Agrees.masked (agrees : Agrees root mem other) (page : PageNo)
    (inside : InTree mem root page) :
    PageTree.masked root other page = PageTree.masked root mem page := by
  funext index
  by_cases slot : page = root ∧ index = recursiveSlot
  · rw [slot.1, slot.2]
    exact (set_same other root recursiveSlot 0).trans (set_same mem root recursiveSlot 0).symm
  · rw [masked_other root other slot, masked_other root mem slot, agrees page inside]

lemma Agrees.inTree (agrees : Agrees root mem other) (page : PageNo) :
    InTree other root page ↔ InTree mem root page := Radix.reached_congr agrees.masked page

lemma Agrees.trans {middle after : Mem} (one : Agrees root mem middle)
    (two : Agrees root middle after) : Agrees root mem after := by
  intro page inside
  rw [two page ((one.inTree page).mpr inside), one page inside]

lemma agrees_update {page : PageNo} (row : Index → Entry)
    (foreign : ¬ InTree mem root page) : Agrees root mem (Function.update mem page row) := by
  intro other inside
  have apart : other ≠ page := fun same => foreign (same ▸ inside)
  exact Function.update_of_ne apart row mem

variable (agrees : Agrees root mem other) {path : List Index}
include agrees

lemma Agrees.tableAt (short : path.length ≤ 4) :
    PageTree.tableAt other root path = PageTree.tableAt mem root path :=
  Radix.follow_eq (Radix.agreeAlong_of_reached agrees.masked short)

lemma Agrees.tree (tree : Tree mem root) : Tree other root where
  unshared := tree.unshared.congr agrees.masked
  self := by rw [agrees root (inTree_root mem root), tree.self]
  descriptors path table index child bound leads points := by
    rw [agrees.tableAt (by omega)] at leads
    rw [agrees.masked table ⟨path, by omega, leads⟩] at points ⊢
    exact tree.descriptors path table index child bound leads points

lemma Agrees.words {ok : Nat → Entry → Prop} (words : Words ok mem root) : Words ok other root := by
  intro path table index bound leads
  rw [agrees.tableAt (by omega)] at leads
  rw [agrees.masked table ⟨path, by omega, leads⟩]
  exact words path table index bound leads

lemma Agrees.paged (paged : Paged mem root) : Paged other root :=
  paged_iff.mpr (agrees.words (paged_iff.mp paged))

lemma Agrees.look (tree : Tree mem root) (short : path.length ≤ 4)
    (apart : ¬ [recursiveSlot] <+: path) :
    look tableOf other root path = look tableOf mem root path := by
  rw [look_eq (agree_masked (agrees.tree tree).unshared short apart),
    look_eq (Radix.agreeAlong_of_reached agrees.masked short),
    look_eq (agree_masked tree.unshared short apart)]

lemma Agrees.walks (tree : Tree mem root) : SameWalks root mem other := by
  intro va outside
  have bound : (indices va).length ≤ 4 := Nat.le_refl 4
  rw [walk, walk, agrees.look tree bound (indices_apart outside)]

end

/-! ## Opening and closing the recursive slot -/

section

variable {phys after : Phys} {root live : PageNo} {taken : List (Except PageAllocError PageNo)}

/-- What a call of `map_to` relies on. -/
structure Callable (phys : Phys) (root live : PageNo) : Prop where
  tree : Tree phys.mem root
  stranger : Stranger phys.mem root live
  supplied : Supplied phys root live

lemma Callable.touched (callable : Callable phys root live)
    (touched : Touched root phys after taken) : Callable after root live where
  tree := touched.tree
  stranger := touched.stranger callable.supplied callable.stranger
  supplied := touched.supplied callable.supplied

lemma agrees_slot {mem : Mem} {entry : Entry}
    (harmless : ¬ InTree mem root live ∨ mem live recursiveSlot = entry) :
    Agrees root mem (Radix.set mem live recursiveSlot entry) := by
  intro _ inside
  rcases harmless with foreign | same
  · exact set_node mem recursiveSlot entry fun same => foreign (same ▸ inside)
  · rw [Radix.set_eq_self mem same]

variable (callable : Callable phys root live)
include callable

lemma Callable.open_agrees :
    Agrees root phys.mem (phys.set live recursiveSlot (tableEntry root)).mem := by
  refine agrees_slot ?_
  rcases callable.stranger with rfl | foreign
  · exact .inr callable.tree.self
  · exact .inl foreign

lemma Callable.opened : Ready (phys.set live recursiveSlot (tableEntry root)) root live where
  tree := callable.open_agrees.tree callable.tree
  slot := set_same ..
  stranger := callable.stranger.imp id fun foreign inside =>
    foreign ((callable.open_agrees.inTree live).mp inside)
  supplied := ⟨callable.supplied.distinct, fun page later inside =>
    callable.supplied.unused page later ((callable.open_agrees.inTree page).mp inside),
    callable.supplied.apart⟩

variable (touched : Touched root (phys.set live recursiveSlot (tableEntry root)) after taken)
include touched

lemma Callable.close_agrees :
    Agrees root after.mem (after.set live recursiveSlot (phys.mem live recursiveSlot)).mem := by
  refine agrees_slot ?_
  rcases (callable.opened.touched touched).stranger with rfl | foreign
  · rw [callable.tree.self]
    exact .inr touched.tree.self
  · exact .inl foreign

lemma Callable.closed :
    Touched root phys (after.set live recursiveSlot (phys.mem live recursiveSlot)) taken where
  tree := (callable.close_agrees touched).tree touched.tree
  supply := touched.supply
  tables page inside := by
    have opened := touched.tables page (((callable.close_agrees touched).inTree page).mp inside)
    rwa [callable.open_agrees.inTree page] at opened
  frame page outside untaken := by
    have foreign : ¬ InTree (phys.set live recursiveSlot (tableEntry root)).mem root page := by
      rwa [callable.open_agrees.inTree page]
    have kept := touched.frame page foreign untaken
    change Radix.set after.mem live recursiveSlot _ page = phys.mem page
    change after.mem page = Radix.set phys.mem live recursiveSlot _ page at kept
    by_cases same : page = live
    · subst same
      funext index
      by_cases slot : index = recursiveSlot
      · rw [slot, set_same]
      have apart : ¬ (page = page ∧ index = recursiveSlot) := fun both => slot both.2
      rw [Radix.set_other _ _ apart, kept, Radix.set_other _ _ apart]
    · rw [set_node _ _ _ same, kept, set_node _ _ _ same]

end

/-! ## One call -/

section

variable {ttbr : Ttbr} {pgtype : RootPageTableType} {va : VirtAddr} {root table : PageNo}
  {size : PageSize} {entry : Entry} {phys : Phys}

/-- Exactly the addresses of one page or block are mapped, and to the given entry. -/
structure Mapped (root : PageNo) (entry : Entry) (va : VirtAddr) (size : PageSize)
    (before after : Mem) : Prop where
  inside : ∀ other, Covers size va other → walk after root other = some (size, size.entry entry)
  outside : ∀ other, vaIndex other .level0 ≠ recursiveSlot → ¬ Covers size va other →
    walk after root other = walk before root other

/-- What a call does to the walks from the mapped root. -/
def Answers (root : PageNo) (entry : Entry) (va : VirtAddr) (size : PageSize)
    (result : Except PageTableError Unit) (before after : Mem) : Prop :=
  match result with
  | .ok () => Mapped root entry va size before after
  | .error _ => SameWalks root before after

lemma nextAll_refused (slot : vaIndex va .level0 = recursiveSlot) (phys : Phys) :
    nextAll ttbr pgtype va size.tables root phys = some (.error .mappingRecursiveIndex, phys) := by
  have first : nextMut ttbr pgtype va .level0 root phys =
    some (.error .mappingRecursiveIndex, phys) := by
    rw [nextMut, if_pos ⟨rfl, slot⟩]
  cases size <;> simp only [PageSize.tables, nextAll, first]

lemma mapTo_refused (slot : vaIndex va .level0 = recursiveSlot) :
    mapTo ttbr root entry va size pgtype phys = some (.error .mappingRecursiveIndex, phys) := by
  have restored : ∀ cell : Entry, (phys.set (ttbr.root pgtype) recursiveSlot cell).set
      (ttbr.root pgtype) recursiveSlot (phys.mem (ttbr.root pgtype) recursiveSlot) = phys :=
    fun cell => by
      rw [Phys.set, Phys.set, Radix.set_set, Radix.set_eq_self _ rfl]
  rw [mapTo, nextAll_refused slot]
  simp only [restored]

lemma mapTo_ok {after : Phys} (valid : entry.valid = true)
    (walked : nextAll ttbr pgtype va size.tables root
      (phys.set (ttbr.root pgtype) recursiveSlot (tableEntry root)) = some (.ok table, after)) :
    mapTo ttbr root entry va size pgtype phys =
      some (.ok (), (after.set table (vaIndex va size.level) (size.entry entry)).set
        (ttbr.root pgtype) recursiveSlot (phys.mem (ttbr.root pgtype) recursiveSlot)) := by
  have stuck : Entry.valid (size.entry entry) = true := by
    rw [PageSize.entry]
    split
    · rw [Entry.valid_withPageOrTable, valid]
    · exact valid
  simp only [mapTo, walked]
  simp [Phys.set, set_same, stuck]

lemma Grown.written {before middle : Phys} {taken : List (Except PageAllocError PageNo)}
    (grown : Grown root before middle taken) (outside : vaIndex va .level0 ≠ recursiveSlot)
    (here : tableAt middle.mem root (pathTo va size.level.depth) = some table)
    (valid : entry.valid = true) (block : entry.pageOrTable = false) :
    Touched root before (middle.set table (vaIndex va size.level) (size.entry entry)) taken ∧
      Mapped root entry va size before.mem
        (middle.set table (vaIndex va size.level) (size.entry entry)).mem ∧
      (∀ ok, Lawful ok → ok size.level.depth (size.entry entry) → Words ok before.mem root →
        Words ok (middle.set table (vaIndex va size.level) (size.entry entry)).mem root) := by
  have written := grown.tree.written outside here block
  refine ⟨⟨written.1, grown.supply, fun page inside => grown.tables page (written.2 page inside),
    fun page outer untaken => ?_⟩, ⟨fun other covered => ?_, fun other elsewhere uncovered => ?_⟩,
    fun ok lawful fits words => ?_⟩
  · have other : page ≠ table := by
      rintro rfl
      have inside : InTree middle.mem root page := ⟨_, short_pathTo va size.level, here⟩
      rcases grown.tables page inside with old | new
      · exact outer old
      · exact untaken new
    change Radix.set middle.mem table _ _ page = before.mem page
    rw [set_node _ _ _ other, grown.frame page outer untaken]
  · exact grown.tree.written_inside outside here block valid covered
  · have same := grown.tree.written_outside outside here block elsewhere uncovered
    exact same.trans (grown.walks other elsewhere)
  · exact grown.tree.written_words outside here block (grown.words ok lawful words) fits

lemma mapTo_spec (callable : Callable phys root (ttbr.root pgtype)) (va : VirtAddr)
    (size : PageSize) (valid : entry.valid = true) (block : entry.pageOrTable = false) :
    ∃ result after taken, mapTo ttbr root entry va size pgtype phys = some (result, after) ∧
      Touched root phys after taken ∧ Answers root entry va size result phys.mem after.mem ∧
      (∀ ok, Lawful ok → ok size.level.depth (size.entry entry) → Words ok phys.mem root →
        Words ok after.mem root) := by
  by_cases slot : vaIndex va .level0 = recursiveSlot
  · exact ⟨_, _, [], mapTo_refused slot, .refl callable.tree, fun _ _ => rfl, fun _ _ _ => id⟩
  obtain ⟨result, _, taken, walked, grown, finds⟩ :=
    nextAll_spec callable.opened slot (descends_tables size) rfl
  have opened := callable.open_agrees
  have before := opened.walks callable.tree
  cases result with
  | error err =>
    have closed := callable.close_agrees grown.toTouched
    refine ⟨.error err, _, taken, ?_, callable.closed grown.toTouched, fun other outside => ?_,
      fun ok lawful _ words => closed.words (grown.words ok lawful (opened.words words))⟩
    · rw [mapTo, walked]
    · rw [closed.walks grown.tree other outside, grown.walks other outside, before other outside]
  | ok table =>
    obtain ⟨touched, mapped, keeps⟩ := grown.written slot (finds table rfl) valid block
    have closed := callable.close_agrees touched
    refine ⟨.ok (), _, taken, mapTo_ok valid walked, callable.closed touched,
      ⟨fun other covered => ?_, fun other outside uncovered => ?_⟩,
      fun ok lawful fits words => closed.words (keeps ok lawful fits (opened.words words))⟩
    · have elsewhere : vaIndex other .level0 ≠ recursiveSlot := covered.first ▸ slot
      rw [closed.walks touched.tree other elsewhere, mapped.inside other covered]
    · rw [closed.walks touched.tree other outside, mapped.outside other outside uncovered,
        before other outside]

end

/-! ## Sequences of calls -/

section

variable {mem : Mem} {root page : PageNo}

section

variable (empty : mem root = fun _ => 0)
include empty

lemma masked_empty (index : Index) :
    masked root (initEmptyRootPageTable root ⟨mem, []⟩).mem root index = 0 := by
  change masked root (Radix.set mem root recursiveSlot (tableEntry root)) root index = 0
  rw [masked_slot]
  by_cases slot : index = recursiveSlot
  · rw [slot]
    exact set_same ..
  · rw [masked_other root mem fun same => slot same.2, empty]

lemma follow_empty {path : List Index}
    (leads : tableAt (initEmptyRootPageTable root ⟨mem, []⟩).mem root path = some page) :
    path = [] ∧ page = root := by
  cases path with
  | nil => exact ⟨rfl, (Option.some.inj leads).symm⟩
  | cons =>
    rw [tableAt, Radix.follow, masked_empty empty, tableOf_zero] at leads
    cases leads

lemma tree_empty : Tree (initEmptyRootPageTable root ⟨mem, []⟩).mem root where
  unshared first second page _ _ leadsFirst leadsSecond := by
    rw [(follow_empty empty leadsFirst).1, (follow_empty empty leadsSecond).1]
  self := set_same ..
  descriptors path table index child _ leads points := by
    rw [(follow_empty empty leads).2, masked_empty empty, tableOf_zero] at points
    cases points

end

lemma words_empty {ok : Nat → Entry → Prop} (lawful : Lawful ok) (empty : mem root = fun _ => 0) :
    Words ok (initEmptyRootPageTable root ⟨mem, []⟩).mem root := by
  intro path _ _ _ leads
  rw [(follow_empty empty leads).2, masked_empty empty]
  exact lawful.empty path.length

variable (empty : mem root = fun _ => 0)
include empty

lemma paged_empty : Paged (initEmptyRootPageTable root ⟨mem, []⟩).mem root :=
  paged_iff.mpr (words_empty lawful_noBlock empty)

lemma walk_empty {va : VirtAddr} (outside : vaIndex va .level0 ≠ recursiveSlot) :
    walk (initEmptyRootPageTable root ⟨mem, []⟩).mem root va = none := by
  rw [walk_masked (tree_empty empty).unshared outside, indices, look, masked_empty empty,
    tableOf_zero]
  rfl

lemma inTree_empty (inside : InTree (initEmptyRootPageTable root ⟨mem, []⟩).mem root page) :
    page = root := by
  obtain ⟨_, -, leads⟩ := inside
  exact (follow_empty empty leads).2

end

/-- One call of `map_to` on a root, with the memory it finds and the answers its allocator gives. -/
structure Call where
  ttbr : Ttbr
  entry : Entry
  va : VirtAddr
  size : PageSize
  pgtype : RootPageTableType
  phys : Phys

namespace Call

/-- The root whose recursive slot the call uses. -/
def live (call : Call) : PageNo := call.ttbr.root call.pgtype

/-- Make the call on a root. -/
def perform (root : PageNo) (call : Call) : Outcome PageTableError Unit :=
  mapTo call.ttbr root call.entry call.va call.size call.pgtype call.phys

/-- A call of the sequence: between the calls anything may happen outside the tree, the entry is
valid and without the page flag, the live root is the mapped one or none of its other tables, and
the allocator returns pages that are not used. -/
structure Admitted (root : PageNo) (mem : Mem) (call : Call) : Prop where
  agrees : Agrees root mem call.phys.mem
  valid : call.entry.valid = true
  block : call.entry.pageOrTable = false
  stranger : Stranger call.phys.mem root call.live
  supplied : Supplied call.phys root call.live

/-- The call returns. If it succeeds the walk of every address of the page or block yields the entry
and every other walk is unchanged; if it fails every walk is unchanged. The live root's slot is as
before, and an address in the recursive slot is refused. -/
def Exact (root : PageNo) (call : Call) : Prop :=
  ∃ result after, call.perform root = some (result, after) ∧
    Answers root call.entry call.va call.size result call.phys.mem after.mem ∧
    after.mem call.live recursiveSlot = call.phys.mem call.live recursiveSlot ∧
    (vaIndex call.va .level0 = recursiveSlot → result = .error .mappingRecursiveIndex)

/-- The memory after a call. -/
def step (root : PageNo) (_ : Mem) (call : Call) : Option Mem :=
  (call.perform root).map fun outcome => outcome.2.mem

variable {root : PageNo} {mem : Mem} {call : Call}

lemma Admitted.callable (admitted : Admitted root mem call) (tree : Tree mem root) :
    Callable call.phys root call.live :=
  ⟨admitted.agrees.tree tree, admitted.stranger, admitted.supplied⟩

lemma step_tree {next : Mem} (tree : Tree mem root) (admitted : Admitted root mem call)
    (taken : step root mem call = some next) : Tree next root := by
  obtain ⟨_, after, _, returns, touched, -, -⟩ :=
    mapTo_spec (admitted.callable tree) call.va call.size admitted.valid admitted.block
  have same : step root mem call = some after.mem := by
    rw [step, perform, returns]
    rfl
  rw [same] at taken
  exact Option.some.inj taken ▸ touched.tree

lemma Admitted.exact (admitted : Admitted root mem call) (tree : Tree mem root) :
    Exact root call := by
  have callable := admitted.callable tree
  obtain ⟨result, after, taken, returns, touched, answers, -⟩ :=
    mapTo_spec callable call.va call.size admitted.valid admitted.block
  refine ⟨result, after, returns, answers, ?_, fun slot => ?_⟩
  · rcases callable.stranger with own | foreign
    · rw [own, touched.tree.self, callable.tree.self]
    · have untaken : call.live ∉ pages taken := fun new => by
        apply callable.supplied.apart
        rw [touched.supply, pages_append]
        exact List.mem_append_left _ new
      rw [touched.frame _ foreign untaken]
  · have refused : call.perform root = _ := mapTo_refused slot
    rw [show call.perform root = _ from returns] at refused
    exact (Prod.mk.inj (Option.some.inj refused)).1

/-- Every call of every sequence of admitted calls on an empty root is exact. -/
theorem mapTo_exact (mem : Mem) (root : PageNo) (empty : mem root = fun _ => 0) (calls : List Call)
    (reached : Mem)
    (admitted : Along (step root) (Admitted root) (initEmptyRootPageTable root ⟨mem, []⟩).mem calls)
    (runs : run (step root) (initEmptyRootPageTable root ⟨mem, []⟩).mem calls = some reached)
    (call : Call) (last : Admitted root reached call) : Exact root call := by
  have keeps : ∀ mem call next, Tree mem root → Admitted root mem call →
      step root mem call = some next → Tree next root := fun _ _ _ => step_tree
  have tree : Tree reached root := run_invariant_along keeps (tree_empty empty) admitted runs
  exact last.exact tree

def firstPage : Call where
  ttbr :=
  ⟨0, 0⟩
  entry := Entry.rwUserData.withPhysAddr (pageAddr 7)
  va := 0x1000
  size := .page4K
  pgtype := .user
  phys := initEmptyRootPageTable 0 ⟨fun _ _ => 0, [.ok 1, .ok 2, .ok 3]⟩

lemma firstPage_admitted :
    Admitted 0 (initEmptyRootPageTable 0 ⟨fun _ _ => 0, []⟩).mem firstPage := by
  have answers : pages firstPage.phys.supply = [1, 2, 3] := rfl
  have distinct : (pages firstPage.phys.supply).Nodup := by
    decide
  have unused : ∀ page ∈ pages firstPage.phys.supply, ¬ InTree firstPage.phys.mem 0 page := by
    intro _ later inside
    rw [answers, inTree_empty rfl inside] at later
    exact absurd later (by decide)
  have apart : firstPage.live ∉ pages firstPage.phys.supply := by
    decide
  exact ⟨fun _ _ => rfl, by decide, by decide, .inl rfl, distinct, unused, apart⟩

/-- The first call on an empty root is exact. -/
theorem mapTo_exact_firstPage : Exact 0 firstPage :=
  mapTo_exact (fun _ _ => 0) 0 rfl [] _ trivial rfl firstPage firstPage_admitted

end Call

end R9x.Verif.PageTree
