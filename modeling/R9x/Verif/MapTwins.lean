import R9x.Verif.MapCalls

/-!
# Calls that see the same tables

What `map_to` does for an address depends only on the words of the address in the tables of the
mapped root, on the recursive slots and on the allocator: in two memories that agree there it
returns the same, and they then agree wherever they did and on every page the call has taken.
-/

namespace R9x.Verif.PageTree

open Lib Aarch64 Aarch64.Vm
open Function (update_self)

/-- Two calls have gone the same way: they took the same answers, agreeing words still agree, and
the pages taken agree. -/
structure Tracks (taken : List (Except PageAllocError PageNo)) (left right left' right' : Phys) :
    Prop where
  supply : left.supply = taken ++ left'.supply
  same : right'.supply = left'.supply
  kept : ∀ page index, left.mem page index = right.mem page index →
    left'.mem page index = right'.mem page index
  fresh : ∀ page ∈ pages taken, left'.mem page = right'.mem page

section

variable {left right left' right' left'' right'' : Phys}
  {taken more : List (Except PageAllocError PageNo)}

lemma Tracks.refl (same : right.supply = left.supply) : Tracks [] left right left right :=
  ⟨rfl, same, fun _ _ => id, nofun⟩

lemma Tracks.page (tracks : Tracks taken left right left' right') {page : PageNo}
    (agree : left.mem page = right.mem page) : left'.mem page = right'.mem page := by
  funext index
  exact tracks.kept page index (congrFun agree index)

lemma Tracks.trans (one : Tracks taken left right left' right')
    (two : Tracks more left' right' left'' right'') :
    Tracks (taken ++ more) left right left'' right'' where
  supply := by rw [one.supply, two.supply, List.append_assoc]
  same := two.same
  kept page index agree := two.kept page index (one.kept page index agree)
  fresh page new := by
    rw [pages_append, List.mem_append] at new
    rcases new with early | late
    · exact two.page (one.fresh page early)
    · exact two.fresh page late

lemma set_congr {mem mem' : Mem} {page : PageNo} {index : Index}
    (agree : mem page index = mem' page index) (page' : PageNo) (index' : Index) (entry : Entry) :
    Radix.set mem page' index' entry page index = Radix.set mem' page' index' entry page index := by
  unfold Radix.set
  rw [agree]

lemma Tracks.set (tracks : Tracks taken left right left' right') (page : PageNo) (index : Index)
    (entry : Entry) :
    Tracks taken left right (left'.set page index entry) (right'.set page index entry) where
  supply := tracks.supply
  same := tracks.same
  kept other index' agree := set_congr (tracks.kept other index' agree) page index entry
  fresh other new := by
    funext index'
    exact set_congr (congrFun (tracks.fresh other new) index') page index entry

lemma tracks_withTable {supply : List (Except PageAllocError PageNo)} {page : PageNo}
    (answers : left.supply = .ok page :: supply) (table : PageNo) (index : Index) :
    Tracks [.ok page] left right ⟨withTable left.mem table index page, supply⟩
      ⟨withTable right.mem table index page, supply⟩ where
  supply := answers
  same := rfl
  kept other index' agree := by
    change withTable left.mem table index page other index' =
      withTable right.mem table index page other index'
    unfold withTable
    by_cases new : other = page
    · rw [new, update_self, update_self]
    rw [Function.update_of_ne new, Function.update_of_ne new]
    exact set_congr agree table index (tableEntry page)
  fresh other new := by
    change withTable left.mem table index page other = withTable right.mem table index page other
    rw [List.mem_singleton.mp (show other ∈ [page] from new)]
    unfold withTable
    rw [update_self, update_self]

end

/-! ## What a call reads -/

lemma prefix_indices {va : VirtAddr} {before : List Index} {index : Index}
    (begins : before ++ [index] <+: indices va) :
    ∃ level : Level, before = pathTo va level.depth ∧ index = vaIndex va level := by
  have length := begins.length_le
  have path := List.prefix_iff_eq_take.mp begins
  rw [List.length_append, List.length_singleton] at length path
  change before.length + 1 ≤ 4 at length
  have split : ∀ level : Level, before.length = level.depth →
      before = pathTo va level.depth ∧ index = vaIndex va level := by
    intro level depth
    have taken : (indices va).take (level.depth + 1) = pathTo va level.depth ++
      [vaIndex va level] := by
      cases level <;> rfl
    rw [depth, taken] at path
    have lengths : before.length = (pathTo va level.depth).length := by
      rw [length_pathTo va (by omega), depth]
    have same := List.append_inj path lengths
    exact ⟨same.1, List.singleton_inj.mp same.2⟩
  match known : before.length with
  | 0 => exact ⟨.level0, split .level0 known⟩
  | 1 => exact ⟨.level1, split .level1 known⟩
  | 2 => exact ⟨.level2, split .level2 known⟩
  | 3 => exact ⟨.level3, split .level3 known⟩
  | more + 4 => omega

/-- A memory shows the walk of an address as another does: they agree on the tables below the root,
and in the root on the word of the address. -/
structure Shows (va : VirtAddr) (root : PageNo) (mem other : Mem) : Prop where
  tables : ∀ page, InTree mem root page → page ≠ root → other page = mem page
  first : other root (vaIndex va .level0) = mem root (vaIndex va .level0)

section

variable {mem other : Mem} {root table : PageNo} {va : VirtAddr} {level : Level}
  (shows : Shows va root mem other) (tree : Tree mem root)
include shows tree

lemma Shows.word (here : tableAt mem root (pathTo va level.depth) = some table) :
    other table (vaIndex va level) = mem table (vaIndex va level) := by
  have short := short_pathTo va level
  by_cases same : table = root
  · subst same
    have empty := tree.unshared _ [] table short (by simp) here rfl
    have depth : level.depth = 0 := by
      rw [← length_pathTo va (show level.depth ≤ 4 by cases level <;> decide), empty]
      rfl
    cases level with
    | level0 => exact shows.first
    | level1 | level2 | level3 => cases depth
  · rw [shows.tables table ⟨_, short, here⟩ same]

lemma Shows.along (outside : vaIndex va .level0 ≠ recursiveSlot) :
    Radix.AgreeAlong tableOf (masked root mem) other root (indices va) := by
  intro _ _ _ begins reached
  obtain ⟨_, rfl, rfl⟩ := prefix_indices begins
  rw [masked_other root mem (not_slot tree outside reached)]
  exact shows.word tree reached

lemma Shows.walk (outside : vaIndex va .level0 ≠ recursiveSlot) :
    Vm.walk other root va = Vm.walk mem root va := by
  rw [walk_masked tree.unshared outside, Vm.walk, Radix.look_eq (shows.along tree outside)]

end

/-- Two memories agree on what a call for an address reads. -/
structure Sees (va : VirtAddr) (root live : PageNo) (left right : Phys) : Prop
    extends Shows va root left.mem right.mem where
  supply : right.supply = left.supply
  self : right.mem root recursiveSlot = left.mem root recursiveSlot
  slot : right.mem live recursiveSlot = left.mem live recursiveSlot

section

variable {root live : PageNo} {left right left' right' : Phys}
  {taken : List (Except PageAllocError PageNo)} {ttbr : Ttbr} {pgtype : RootPageTableType}
  {va : VirtAddr} {level next : Level} {table : PageNo}

lemma agreeAlong_begins {mem other : Mem} {path along : List Index} (begins : path <+: along)
    (agree : Radix.AgreeAlong tableOf mem other root along) :
    Radix.AgreeAlong tableOf mem other root path :=
  fun before index node within => agree before index node (within.trans begins)

lemma Sees.agrees (sees : Sees va root live left right) (tree : Tree left.mem root)
    (outside : vaIndex va .level0 ≠ recursiveSlot) (level : Level) :
    Radix.AgreeAlong tableOf (masked root left.mem) right.mem root (pathTo va level.depth) :=
  agreeAlong_begins (List.take_prefix _ _) (sees.along tree outside)

lemma Sees.tracks (sees : Sees va root live left right)
    (tracks : Tracks taken left right left' right') (touched : Touched root left left' taken) :
    Sees va root live left' right' where
  supply := tracks.same
  tables page inside below := by
    rcases touched.tables page inside with old | new
    · exact (tracks.page (sees.tables page old below).symm).symm
    · exact (tracks.fresh page new).symm
  first := (tracks.kept root _ sees.first.symm).symm
  self := (tracks.kept root _ sees.self.symm).symm
  slot := (tracks.kept live _ sees.slot.symm).symm

section

variable (sees : Sees va root (ttbr.root pgtype) left right)
    (ready : Ready left root (ttbr.root pgtype)) (outside : vaIndex va .level0 ≠ recursiveSlot)
include sees ready outside

lemma nextMut_sees (follows : level.next = some next)
    (here : tableAt left.mem root (pathTo va level.depth) = some table) :
    ∃ result left' right' taken, nextMut ttbr pgtype va level table left = some (result, left') ∧
      nextMut ttbr pgtype va level table right = some (result, right') ∧
      Tracks taken left right left' right' := by
  have entries := sees.word ready.tree here
  have agrees := sees.agrees ready.tree outside level
  have same := Tracks.refl sees.supply
  cases points : tableOf (left.mem table (vaIndex va level)) with
  | some =>
    exact ⟨_, left, right, [],
      nextMut_found outside follows points (ready.resolve_found outside here follows points),
      nextMut_found outside follows (entries ▸ points)
        (ready.resolve_agrees outside here agrees sees.slot sees.self follows entries points), same⟩
  | none =>
    cases valid : Entry.valid (left.mem table (vaIndex va level)) with
    | true =>
      exact ⟨_, left, right, [], nextMut_stopped outside valid points,
        nextMut_stopped outside (entries ▸ valid) (entries ▸ points), same⟩
    | false =>
      have valid' : Entry.valid (right.mem table (vaIndex va level)) = false := entries ▸ valid
      cases answers : left.supply with
      | nil =>
        have refused : left.alloc = (.error .outOfSpace, left) := by rw [Phys.alloc, answers]
        have refused' : right.alloc = (.error .outOfSpace, right) := by
          rw [Phys.alloc, sees.supply, answers]
        exact ⟨_, left, right, [], nextMut_refused outside valid refused,
          nextMut_refused outside valid' refused', same⟩
      | cons answer supply =>
        cases answer with
        | error err =>
          have refused : left.alloc = (.error err, { left with supply }) := by
            rw [Phys.alloc, answers]
          have refused' : right.alloc = (.error err, { right with supply }) := by
            rw [Phys.alloc, sees.supply, answers]
          exact ⟨_, _, _, [.error err], nextMut_refused outside valid refused,
            nextMut_refused outside valid' refused', answers, rfl, fun _ _ => id,
            fun _ impossible => by cases impossible⟩
        | ok page =>
          exact ⟨_, _, _, [.ok page], nextMut_linked outside follows valid answers
              (ready.resolve_set outside here (ready.tree.agrees outside level) rfl rfl
                follows page),
            nextMut_linked outside follows valid' (sees.supply.trans answers)
              (ready.resolve_set outside here agrees sees.slot sees.self follows page),
            tracks_withTable answers table (vaIndex va level)⟩

lemma nextAll_sees {levels : List Level} {last : Level} (descends : Descends levels level last)
    (here : tableAt left.mem root (pathTo va level.depth) = some table) :
    ∃ result left' right' taken, nextAll ttbr pgtype va levels table left = some (result, left') ∧
      nextAll ttbr pgtype va levels table right = some (result, right') ∧
      Tracks taken left right left' right' := by
  induction levels generalizing left right level table with
  | nil => exact ⟨.ok table, left, right, [], rfl, rfl, .refl sees.supply⟩
  | cons _ _ ih =>
    obtain ⟨rfl, _, follows, later⟩ := descends
    obtain ⟨result, middle, middle', taken, one, one', tracks⟩ :=
      nextMut_sees sees ready outside follows here
    obtain ⟨_, _, taken', again, grown, finds⟩ := nextMut_spec ready outside follows here
    obtain ⟨rfl, rfl⟩ := Prod.mk.inj (Option.some.inj (one.symm.trans again))
    have same : taken' = taken := List.append_cancel_right (grown.supply.symm.trans tracks.supply)
    subst same
    cases result with
    | error err =>
      refine ⟨.error err, middle, middle', taken', ?_, ?_, tracks⟩
      · rw [nextAll, one]
      · rw [nextAll, one']
    | ok found =>
      obtain ⟨result, left', right', more, rest, rest', tracksMore⟩ :=
        ih (sees.tracks tracks grown.toTouched) (ready.touched grown.toTouched) later
          (finds found rfl)
      refine ⟨result, left', right', taken' ++ more, ?_, ?_, tracks.trans tracksMore⟩
      · rw [nextAll, one]
        exact rest
      · rw [nextAll, one']
        exact rest'

end

lemma Sees.opened (sees : Sees va root live left right) (callable : Callable left root live) :
    Sees va root live (left.set live recursiveSlot (tableEntry root))
      (right.set live recursiveSlot (tableEntry root)) := by
  have tracks := (Tracks.refl sees.supply).set live recursiveSlot (tableEntry root)
  refine ⟨⟨fun page inside below => ?_, (tracks.kept root _ sees.first.symm).symm⟩, sees.supply,
    (tracks.kept root _ sees.self.symm).symm, (tracks.kept live _ sees.slot.symm).symm⟩
  rw [callable.open_agrees.inTree page] at inside
  exact (tracks.page (sees.tables page inside below).symm).symm

lemma mapTo_sees (sees : Sees va root (ttbr.root pgtype) left right)
    (callable : Callable left root (ttbr.root pgtype)) (size : PageSize) (entry : Entry)
    {result : Except PageTableError Unit}
    (returns : mapTo ttbr root entry va size pgtype left = some (result, left')) :
    ∃ right' taken, mapTo ttbr root entry va size pgtype right = some (result, right') ∧
      Tracks taken left right left' right' := by
  have slots := sees.slot
  by_cases slot : vaIndex va .level0 = recursiveSlot
  · rw [mapTo_refused slot] at returns
    cases returns
    exact ⟨right, [], mapTo_refused slot, .refl sees.supply⟩
  obtain ⟨found, middle, middle', taken, walked, walked', tracks⟩ :=
    nextAll_sees (sees.opened callable) callable.opened slot (descends_tables size) rfl
  have opened : Tracks taken left right middle middle' := by
    have first := (Tracks.refl sees.supply).set (ttbr.root pgtype) recursiveSlot (tableEntry root)
    exact first.trans tracks
  cases found with
  | error =>
    simp only [mapTo, walked] at returns
    cases returns
    refine ⟨middle'.set (ttbr.root pgtype) recursiveSlot
      (left.mem (ttbr.root pgtype) recursiveSlot), taken, ?_, opened.set _ _ _⟩
    simp only [mapTo, walked', slots]
  | ok table =>
    simp only [mapTo, walked] at returns
    split at returns
    · rename_i stuck
      cases returns
      refine ⟨(middle'.set table (vaIndex va size.level) (size.entry entry)).set
        (ttbr.root pgtype) recursiveSlot (left.mem (ttbr.root pgtype) recursiveSlot), taken, ?_,
        (opened.set _ _ _).set _ _ _⟩
      simp only [mapTo, walked', slots]
      simpa [Phys.set, Radix.set_same] using stuck
    · cases returns

end

end R9x.Verif.PageTree
