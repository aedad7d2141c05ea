import R9x.Lib.Layers
import R9x.Verif.MapCalls

/-!
# The kernel's own tables

The early boot code links its tables with other attributes than `next_mut` does, and gives each one
a pointer to itself, so the kernel's tables are no tree of `vm.rs`. They have layers: a table above
the last level points one level down, or to itself. `map_to` keeps the layers, whatever the
attributes are, for every address whose way does not pass a pointer of a table to itself.
-/

namespace R9x.Verif.KernelTables

open Lib Lib.Radix Aarch64 Aarch64.Vm PageTree
open Function (update update_self update_of_ne)

/-- The tables under a root by their level. -/
abbrev Layers (kernel : PageNo) (mem : Mem) (depth : PageNo → Option Nat) : Prop :=
  Layered tableOf mem kernel recursiveSlot 3 depth

/-- The way of an address to its last table passes no pointer of a table to itself; `map_to` refuses
an address of the recursive slot. -/
def Clear (mem : Mem) (kernel : PageNo) (va : VirtAddr) : Prop :=
  vaIndex va .level0 ≠ recursiveSlot → Straight tableOf mem kernel (pathTo va 3)

/-- The allocator has each page once, and none that is a table. -/
structure Stocked (depth : PageNo → Option Nat) (phys : Phys) : Prop where
  distinct : (pages phys.supply).Nodup
  unused : ∀ page ∈ pages phys.supply, depth page = none

/-- A change of the kernel's tables that takes pages for new tables and writes only to tables. -/
structure Grows (kernel : PageNo) (depth : PageNo → Option Nat) (phys : Phys)
    (taken : List (Except PageAllocError PageNo)) (depth' : PageNo → Option Nat) (after : Phys) :
    Prop where
  layers : Layers kernel after.mem depth'
  supply : phys.supply = taken ++ after.supply
  kept : ∀ page level, depth page = some level → depth' page = some level
  new : ∀ page level, depth' page = some level → depth page = some level ∨ page ∈ pages taken
  frame : ∀ page, depth page = none → page ∉ pages taken → after.mem page = phys.mem page
  clear : ∀ va, Clear phys.mem kernel va → Clear after.mem kernel va

section

variable {kernel node page : PageNo} {index : Index} {depth depth' depth'' : PageNo → Option Nat}
  {phys middle after : Phys} {taken more : List (Except PageAllocError PageNo)} {mem other : Mem}
  {va : VirtAddr}

lemma length_pathTo_three (va : VirtAddr) : (pathTo va 3).length = 3 := rfl

lemma pathTo_begins (va : VirtAddr) (level : Level) : pathTo va level.depth <+: pathTo va 3 := by
  apply List.take_prefix_take_left
  cases level <;> decide

/-- A way stays clear when tables keep what they hold. -/
lemma Clear.congr (clear : Clear mem kernel va) (layers : Layers kernel mem depth)
    (agree : ∀ page level, depth page = some level → other page = mem page) :
    Clear other kernel va := by
  intro outside
  have whole := layers.agreeAlong (clear outside) (length_pathTo_three va).le agree recursiveSlot
  exact (clear outside).congr fun before index node begins =>
    whole before index node (begins.trans (List.prefix_append _ _))

lemma Layers.walk_eq (layers : Layers kernel mem depth) (clear : Clear mem kernel va)
    (outside : vaIndex va .level0 ≠ recursiveSlot)
    (agree : ∀ page level, depth page = some level → other page = mem page) :
    walk other kernel va = walk mem kernel va := by
  have along := layers.agreeAlong (clear outside) (length_pathTo_three va).le agree
    (vaIndex va .level3)
  change AgreeAlong tableOf mem other kernel (indices va) at along
  rw [Vm.walk, Vm.walk, look_eq along]

lemma Grows.refl (layers : Layers kernel phys.mem depth) : Grows kernel depth phys [] depth phys :=
  ⟨layers, rfl, fun _ _ => id, fun _ _ => .inl, fun _ _ _ => rfl, fun _ => id⟩

lemma Grows.trans (one : Grows kernel depth phys taken depth' middle)
    (two : Grows kernel depth' middle more depth'' after) :
    Grows kernel depth phys (taken ++ more) depth'' after where
  layers := two.layers
  supply := by rw [one.supply, two.supply, List.append_assoc]
  kept page level known := two.kept page level (one.kept page level known)
  new page level known := by
    rw [pages_append, List.mem_append]
    rcases two.new page level known with old | late
    · exact (one.new page level old).imp_right .inl
    · exact .inr (.inr late)
  frame page unused untaken := by
    rw [pages_append, List.mem_append, not_or] at untaken
    have still : depth' page = none := by
      cases known : depth' page with
      | none => rfl
      | some level =>
        rcases one.new page level known with old | new
        · rw [unused] at old
          cases old
        · exact absurd new untaken.1
    rw [two.frame page still untaken.2, one.frame page unused untaken.1]
  clear va clear := two.clear va (one.clear va clear)

lemma Grows.stocked (grows : Grows kernel depth phys taken depth' after)
    (stocked : Stocked depth phys) :
    Stocked depth' after := by
  have distinct := stocked.distinct
  rw [grows.supply, pages_append, List.nodup_append] at distinct
  refine ⟨distinct.2.1, fun page later => ?_⟩
  cases known : depth' page with
  | none => rfl
  | some level =>
    rcases grows.new page level known with old | new
    · have listed : page ∈ pages phys.supply := by
        rw [grows.supply, pages_append]
        exact List.mem_append_right _ later
      rw [stocked.unused page listed] at old
      cases old
    · exact absurd rfl (distinct.2.2 page new page later)

/-- Writing a word of a table, off the way of every address. -/
lemma grows_set (layers : Layers kernel phys.mem depth) {level : Nat}
    (known : depth node = some level)
    (cell : Entry) (points : ∀ child, level < 3 → tableOf cell = some child →
      child = node ∧ index = recursiveSlot ∨ depth child = some (level + 1))
    (apart : ∀ va, vaIndex va .level0 ≠ recursiveSlot → ∀ before,
      before ++ [index] <+: pathTo va 3 → before.length ≠ level) :
    Grows kernel depth phys [] depth (phys.set node index cell) where
  layers := layers.set cell fun level' child known' upper reaches => by
    rw [known] at known'
    cases known'
    exact points child upper reaches
  supply := rfl
  kept _ _ := id
  new _ _ := .inl
  frame page unused _ := by
    apply set_node
    rintro rfl
    rw [known] at unused
    cases unused
  clear va clear outside := by
    refine (clear outside).congr (AgreeAlong.set (fun _ _ _ _ _ => rfl) node index ?_ cell)
    intro before begins leads
    have within := (List.prefix_append before [index]).trans begins
    have deep := layers.depth_follow (clear outside) (length_pathTo_three va).le within leads
    rw [known] at deep
    exact apart va outside before begins (Option.some.inj deep).symm

/-- The recursive slot of the root may point to the root or to a table of the next level. -/
lemma grows_slot (layers : Layers kernel phys.mem depth) (cell : Entry)
    (points : ∀ child, tableOf cell = some child → child = kernel ∨ depth child = some 1) :
    Grows kernel depth phys [] depth (phys.set kernel recursiveSlot cell) := by
  refine grows_set layers layers.root cell
    (fun child _ reaches => (points child reaches).imp_left fun same => ⟨same, rfl⟩) ?_
  intro va outside before begins empty
  rw [List.length_eq_zero_iff.mp empty] at begins
  exact outside (List.cons_prefix_cons.mp begins).1.symm

end

/-! ## A call of `map_to` -/

variable {ttbr : Ttbr} {depth : PageNo → Option Nat} {phys after : Phys} {va : VirtAddr}
  {level next : Level} {table page child : PageNo}

lemma resolve_child {mem : Mem} (slot : mem ttbr.kernel recursiveSlot = tableEntry ttbr.kernel)
    (follows : level.next = some next)
    (here : follow tableOf mem ttbr.kernel (pathTo va level.depth) = some table)
    (points : tableOf (mem table (vaIndex va level)) = some child)
    (resolved : resolveEntryMut ttbr .kernel va next mem = some page) : page = child := by
  have self : tableOf (mem ttbr.kernel recursiveSlot) = some ttbr.kernel := by
    rw [slot, tableOf_tableEntry]
  have walked := walk_recursive .kernel self self follows va here points
  rw [tableOf, Option.ite_none_right_eq_some] at points
  rw [resolveEntryMut, Ttbr.root, kernelPage, walked] at resolved
  dsimp only at resolved
  rw [Option.ite_none_right_eq_some] at resolved
  rw [← Option.some.inj resolved.2, ← Option.some.inj points.2, frame]

section

variable (slot : phys.mem ttbr.kernel recursiveSlot = tableEntry ttbr.kernel)
  (layers : Layers ttbr.kernel phys.mem depth) (stocked : Stocked depth phys)
  (outside : vaIndex va .level0 ≠ recursiveSlot) (clear : Clear phys.mem ttbr.kernel va)
include slot layers stocked outside clear

omit slot stocked in
lemma Layers.depth_here (follows : level.next = some next)
    (here : follow tableOf phys.mem ttbr.kernel (pathTo va level.depth) = some table) :
    depth table = some level.depth := by
  have deep := (depth_next follows).2
  rw [layers.depth_follow (clear outside) (length_pathTo_three va).le (pathTo_begins va level) here,
    length_pathTo va (by omega)]

omit stocked in
lemma linked_of_nextMut (follows : level.next = some next)
    (here : follow tableOf phys.mem ttbr.kernel (pathTo va level.depth) = some table)
    (invalid : (phys.mem table (vaIndex va level)).valid = false)
    {supply : List (Except PageAllocError PageNo)} (answers : phys.supply = .ok page :: supply)
    (unused : depth page = none) {result : Except PageTableError PageNo}
    (returns : nextMut ttbr .kernel va level table phys = some (result, after)) :
    result = .ok page ∧ after = ⟨withTable phys.mem table (vaIndex va level) page, supply⟩ ∧
      Radix.set phys.mem table (vaIndex va level) (tableEntry page) ttbr.kernel recursiveSlot =
        tableEntry ttbr.kernel ∧
      follow tableOf after.mem ttbr.kernel (pathTo va next.depth) = some page := by
  have deep := (depth_next follows).2
  have deeper := Layers.depth_here layers outside clear follows here
  have unseen : ∀ before index node, before ++ [index] <+: pathTo va level.depth →
      follow tableOf phys.mem ttbr.kernel before = some node → node ≠ table ∧ node ≠ page := by
    intro before index node begins leads
    have within := ((List.prefix_append before [index]).trans begins).trans (pathTo_begins va level)
    have known := layers.depth_follow (clear outside) (length_pathTo_three va).le within leads
    have length := begins.length_le
    rw [List.length_append, List.length_singleton, length_pathTo va (by omega)] at length
    constructor
    · rintro rfl
      rw [deeper] at known
      have same := Option.some.inj known
      omega
    · rintro rfl
      rw [unused] at known
      cases known
  -- the new word is off the way to its own table, whose slot is that of the root
  have path : follow tableOf (Radix.set phys.mem table (vaIndex va level) (tableEntry page))
    ttbr.kernel
      (pathTo va level.depth) = some table := by
    rw [follow_eq fun before index node begins leads => ?_, here]
    exact congrFun (set_node phys.mem _ _ (unseen before index node begins leads).1) index
  have slot' : Radix.set phys.mem table (vaIndex va level) (tableEntry page) ttbr.kernel
    recursiveSlot =
      tableEntry ttbr.kernel := by
    rw [set_other, slot]
    rintro ⟨same, index⟩
    rw [← same, layers.root] at deeper
    cases level with
    | level0 => exact outside index.symm
    | level1 | level2 | level3 => cases deeper
  have points : tableOf (Radix.set phys.mem table (vaIndex va level) (tableEntry page) table
      (vaIndex va level)) = some page := by
    rw [set_same, tableOf_tableEntry]
  simp [nextMut, not_refused outside, invalid, Phys.alloc, answers, Phys.set, Phys.clear,
    follows] at returns
  obtain ⟨found, resolved, rfl, rfl⟩ := returns
  obtain rfl := resolve_child slot' follows path points resolved
  refine ⟨rfl, rfl, slot', ?_⟩
  have last : tableOf (withTable phys.mem table (vaIndex va level) found table (vaIndex va level)) =
      some found := by
    rw [withTable, update_of_ne, points]
    rintro rfl
    rw [deeper] at unused
    cases unused
  rw [pathTo_next follows]
  refine follow_snoc.mpr ⟨table, ?_, last⟩
  rw [follow_eq fun before index node begins leads => ?_, here]
  obtain ⟨apart, other⟩ := unseen before index node begins leads
  change withTable phys.mem table (vaIndex va level) found node index = phys.mem node index
  rw [withTable, update_of_ne other, set_node _ _ _ apart]

lemma nextMut_grows (follows : level.next = some next)
    (here : follow tableOf phys.mem ttbr.kernel (pathTo va level.depth) = some table)
    {result : Except PageTableError PageNo}
    (returns : nextMut ttbr .kernel va level table phys = some (result, after)) :
    ∃ taken depth', Grows ttbr.kernel depth phys taken depth' after ∧
      after.mem ttbr.kernel recursiveSlot = tableEntry ttbr.kernel ∧
      ∀ found, result = .ok found →
        follow tableOf after.mem ttbr.kernel (pathTo va next.depth) = some found := by
  cases points : tableOf (phys.mem table (vaIndex va level)) with
  | some child =>
    have flags := points
    rw [tableOf, Option.ite_none_right_eq_some, Bool.and_eq_true_iff] at flags
    have upper : level ≠ .level3 := by
      rintro rfl
      cases follows
    simp [nextMut, not_refused outside, flags.1.1, flags.1.2, Entry.isTable, upper,
      follows] at returns
    obtain ⟨found, resolved, rfl, rfl⟩ := returns
    obtain rfl := resolve_child slot follows here points resolved
    refine ⟨[], depth, .refl layers, slot, fun found same => ?_⟩
    cases same
    rw [pathTo_next follows]
    exact follow_snoc.mpr ⟨table, here, points⟩
  | none =>
    cases valid : Entry.valid (phys.mem table (vaIndex va level)) with
    | true =>
      rw [nextMut_stopped outside valid points] at returns
      cases returns
      exact ⟨[], depth, .refl layers, slot, by simp⟩
    | false =>
      cases answers : phys.supply with
      | nil =>
        rw [nextMut_refused outside valid (by rw [Phys.alloc, answers])] at returns
        cases returns
        exact ⟨[], depth, .refl layers, slot, by simp⟩
      | cons answer supply =>
        cases answer with
        | error err =>
          rw [nextMut_refused outside valid (by rw [Phys.alloc, answers])] at returns
          cases returns
          exact ⟨[.error err], depth, ⟨layers, answers, fun _ _ => id, fun _ _ => .inl, fun _ _ _ =>
            rfl,
            fun _ => id⟩, slot, by simp⟩
        | ok page =>
          have unused : depth page = none := by
            apply stocked.unused page
            rw [answers]
            exact List.mem_cons_self
          have known := Layers.depth_here layers outside clear follows here
          have barren : ∀ index : Index, tableOf ((fun _ => 0 : Index → Entry) index) = none :=
            fun _ => tableOf_zero
          have points' := tableOf_tableEntry page
          have apart : ∀ other level', depth other = some level' → other ≠ page := by
            rintro _ _ deep rfl
            rw [unused] at deep
            cases deep
          obtain ⟨rfl, rfl, slot', path⟩ :=
            linked_of_nextMut slot layers outside clear follows here valid answers unused returns
          refine ⟨[.ok page], update depth page (some (level.depth + 1)), ?_, ?_, fun found same =>
            ?_⟩
          · refine ⟨layers.link known unused barren points' _, answers, fun other level' deep => ?_,
              fun other level' deep => ?_, fun other free untaken => ?_, fun va' clear' outside' =>
                ?_⟩
            · rw [update_of_ne (apart other level' deep), deep]
            · by_cases same : other = page
              · exact .inr (List.mem_singleton.mpr same)
              · rw [update_of_ne same] at deep
                exact .inl deep
            · have different : other ≠ page := fun same => untaken (List.mem_singleton.mpr same)
              change withTable phys.mem table (vaIndex va level) page other = phys.mem other
              rw [withTable, update_of_ne different, set_node]
              rintro rfl
              rw [known] at free
              cases free
            · exact layers.straight_link known (clear' outside') (length_pathTo_three va').le
                unused barren
                points' _
          · change withTable phys.mem table (vaIndex va level) page ttbr.kernel recursiveSlot = _
            rw [withTable, update_of_ne (apart _ _ layers.root), slot']
          · cases same
            exact path

lemma nextAll_grows {levels : List Level} {last : Level} (descends : Descends levels level last)
    (here : follow tableOf phys.mem ttbr.kernel (pathTo va level.depth) = some table)
    {result : Except PageTableError PageNo}
    (returns : nextAll ttbr .kernel va levels table phys = some (result, after)) :
    ∃ taken depth', Grows ttbr.kernel depth phys taken depth' after ∧
      ∀ found, result = .ok found →
        follow tableOf after.mem ttbr.kernel (pathTo va last.depth) = some found := by
  induction levels generalizing phys depth level table with
  | nil =>
    cases returns
    obtain rfl : level = last := descends
    refine ⟨[], depth, .refl layers, fun found same => ?_⟩
    cases same
    exact here
  | cons _ _ ih =>
    obtain ⟨rfl, next, follows, later⟩ := descends
    rw [nextAll] at returns
    split at returns
    · cases returns
    · rename_i called
      cases returns
      obtain ⟨taken, depth', grows, -, -⟩ :=
        nextMut_grows slot layers stocked outside clear follows here called
      exact ⟨taken, depth', grows, by simp⟩
    · rename_i found middle called
      obtain ⟨taken, depth₁, grows, slot', finds⟩ :=
        nextMut_grows slot layers stocked outside clear follows here called
      obtain ⟨more, depth₂, grows', found'⟩ := ih slot' grows.layers (grows.stocked stocked)
        (grows.clear va clear) later (finds found rfl) returns
      exact ⟨taken ++ more, depth₂, grows.trans grows', found'⟩

end

/-- The word that is written last is the one that the address is translated by. -/
lemma walk_written {mem : Mem} {kernel : PageNo} (layers : Layers kernel mem depth)
    (straight : Straight tableOf mem kernel (pathTo va 3))
    (path : follow tableOf mem kernel (pathTo va 3) = some table) (known : depth table = some 3)
    (outside : vaIndex va .level0 ≠ recursiveSlot) {entry : Entry} (valid : entry.valid = true)
    (cell : Entry) :
    walk (Radix.set (Radix.set mem table (vaIndex va .level3) (PageSize.page4K.entry entry)) kernel
      recursiveSlot cell) kernel va = some (.page4K, PageSize.page4K.entry entry) := by
  have apart : ¬ (table = kernel ∧ vaIndex va .level3 = recursiveSlot) := by
    rintro ⟨rfl, -⟩
    rw [layers.root] at known
    cases known
  have agree : AgreeAlong tableOf mem (Radix.set (Radix.set mem table (vaIndex va .level3)
      (PageSize.page4K.entry entry)) kernel recursiveSlot cell) kernel (pathTo va 3) := by
    intro before index node begins leads
    have within := (List.prefix_append before [index]).trans begins
    have deep := layers.depth_follow straight (length_pathTo_three va).le within leads
    have length := begins.length_le
    rw [List.length_append, List.length_singleton, length_pathTo_three] at length
    rw [set_other, set_other]
    · rintro ⟨rfl, -⟩
      rw [known] at deep
      have same := Option.some.inj deep
      omega
    · rintro ⟨rfl, rfl⟩
      rw [layers.root] at deep
      have empty := List.length_eq_zero_iff.mp (Option.some.inj deep).symm
      rw [empty] at begins
      exact outside (List.cons_prefix_cons.mp begins).1.symm
  rw [← follow_eq agree] at path
  have ends := look_append path (List.cons_ne_nil (vaIndex va .level3) [])
  change look tableOf _ kernel (indices va) = _ at ends
  rw [Vm.walk, ends, look, set_other _ _ apart, set_same]
  rw [Option.bind_some, Vm.leaf, PageSize.entry, if_pos rfl, Entry.valid_withPageOrTable, valid,
    Entry.pageOrTable_withPageOrTable]
  rfl

/-- A call for the kernel's own tables keeps their layers and every clear way, writes to tables
only, and where it succeeds maps the page. -/
lemma mapTo_grows (layers : Layers ttbr.kernel phys.mem depth) (stocked : Stocked depth phys)
    (clear : Clear phys.mem ttbr.kernel va) {entry : Entry} (valid : entry.valid = true)
    {result : Except PageTableError Unit}
    (returns : mapTo ttbr ttbr.kernel entry va .page4K .kernel phys = some (result, after)) :
    ∃ taken depth', Grows ttbr.kernel depth phys taken depth' after ∧
      (result = .ok () → vaIndex va .level0 ≠ recursiveSlot ∧
        walk after.mem ttbr.kernel va = some (.page4K, PageSize.page4K.entry entry)) := by
  by_cases outside : vaIndex va .level0 = recursiveSlot
  · rw [mapTo_refused outside] at returns
    cases returns
    exact ⟨[], depth, .refl layers, by simp⟩
  have opened := grows_slot layers (tableEntry ttbr.kernel) fun child points => by
    rw [tableOf_tableEntry] at points
    exact .inl (Option.some.inj points).symm
  have slot : (phys.set ttbr.kernel recursiveSlot (tableEntry ttbr.kernel)).mem ttbr.kernel
    recursiveSlot =
      tableEntry ttbr.kernel := set_same ..
  -- the slot may be restored in every memory that has grown from the first
  have closes : ∀ taken depth' (middle : Phys), Grows ttbr.kernel depth phys taken depth' middle →
      Grows ttbr.kernel depth' middle [] depth'
        (middle.set ttbr.kernel recursiveSlot (phys.mem ttbr.kernel recursiveSlot)) := by
    intro taken depth' middle grows
    refine grows_slot grows.layers _ fun child points => ?_
    rcases layers.below _ 0 _ child layers.root (by decide) points with ⟨rfl, -⟩ | deeper
    · exact .inl rfl
    · exact .inr (grows.kept child 1 deeper)
  rw [mapTo] at returns
  dsimp only [Ttbr.root] at returns
  split at returns
  · cases returns
  · rename_i called
    cases returns
    obtain ⟨taken, depth', grows, -⟩ :=
      nextAll_grows slot opened.layers (opened.stocked stocked) outside
      (opened.clear va clear) (descends_tables .page4K) rfl called
    have all := opened.trans grows
    exact ⟨_, depth', all.trans (closes _ _ _ all), by simp⟩
  · rename_i table middle called
    split at returns
    · cases returns
      obtain ⟨taken, depth', grows, finds⟩ :=
        nextAll_grows slot opened.layers (opened.stocked stocked)
        outside (opened.clear va clear) (descends_tables .page4K) rfl called
      have path : follow tableOf middle.mem ttbr.kernel (pathTo va 3) = some table :=
        finds table rfl
      have all := opened.trans grows
      have clear' := all.clear va clear
      have known : depth' table = some 3 :=
        grows.layers.depth_follow (clear' outside) (length_pathTo_three va).le List.prefix_rfl path
      have leaf : Grows ttbr.kernel depth' middle [] depth'
          (middle.set table (vaIndex va .level3) (PageSize.page4K.entry entry)) := by
        refine grows_set grows.layers known _ (fun _ deep => absurd deep (by decide)) ?_
        intro va' _ before begins
        have length := begins.length_le
        rw [List.length_append, List.length_singleton, length_pathTo_three] at length
        omega
      have written := all.trans leaf
      have closed := closes _ _ _ written
      refine ⟨_, depth', written.trans closed, fun _ => ⟨outside, ?_⟩⟩
      exact walk_written grows.layers (clear' outside) path known outside valid _
    · cases returns

end R9x.Verif.KernelTables
