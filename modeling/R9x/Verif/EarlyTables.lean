import R9x.Aarch64.VmInit
import R9x.Verif.MapCalls

/-!
# The tables that early boot leaves

`vm.rs` takes the kernel's tables for a tree in which only the root's last entry points back.
-/

namespace R9x.Verif.EarlyTables

open Lib Aarch64 Aarch64.Vm Aarch64.VmInit PageTree
open BitVec (ofNat toNat)
open Radix (set_other set_node set_same follow)
open Function (update update_of_ne update_self)
open PageSize (page2M)

/-- What `vm.rs` assumes of the kernel's tables after `init_vm` has mapped some ranges. -/
structure Expected (ttbr : Ttbr) (phys : Phys) (parts : List Section) : Prop where
  translates : ∀ part ∈ parts, ∀ pa : PhysAddr, part.range.start ≤ pa → pa < part.range.stop →
    Vm.translate phys.mem ttbr.kernel (pa + ofNat 64 kzero) = some pa.toNat
  tree : Radix.Unshared tableOf (masked ttbr.kernel phys.mem) ttbr.kernel 3
  nothingElse : ∀ va, vaIndex va .level0 ≠ recursiveSlot →
    (∀ part ∈ parts, ∀ pa : PhysAddr, part.range.start ≤ pa → pa < part.range.stop →
      va ≠ pa + ofNat 64 kzero) → Vm.translate phys.mem ttbr.kernel va = none
  later : ∀ (now : Phys) (entry : Entry) (va : VirtAddr) (size : PageSize), now.mem = phys.mem →
    Supplied now ttbr.kernel ttbr.kernel → entry.valid = true → entry.pageOrTable = false →
    ∀ result after, Vm.mapTo ttbr ttbr.kernel entry va size .kernel now = some (result, after) →
    ∀ other, vaIndex other .level0 ≠ recursiveSlot → ¬ Covers size va other →
      walk after.mem ttbr.kernel other = walk phys.mem ttbr.kernel other

/-! ## Ranks of tables -/

/-- The tables of the early boot code by rank; a page that is no table has rank 4. A table above the
last rank points one rank down, or to itself. -/
structure Ranked (early : List PageNo) (rank : PageNo → Nat) (root : PageNo) (phys : Phys) :
    Prop where
  top : rank root = 0
  below : ∀ page index child, rank page ≤ 2 → index ≠ recursiveSlot →
    tableOf (phys.mem page index) = some child → rank child = rank page + 1
  self : ∀ page, rank page = 1 → phys.mem page recursiveSlot = VmInit.tableEntry page
  loops : ∀ page child, rank page ≤ 2 → tableOf (phys.mem page recursiveSlot) = some child →
    child = page
  within : ∀ page, rank page ≠ 4 → page ∈ early
  stock : ∀ page ∈ pages phys.supply, page ∈ early
  fresh : ∀ page ∈ pages phys.supply, rank page = 4
  distinct : (pages phys.supply).Nodup

lemma tableOf_link (entry : Entry) :
    tableOf ((entry.withValid true).withPageOrTable true) = some entry.addr := by
  have addr : (entry.withValid true).addr = entry.addr :=
    Bits.extract_setField_other entry 0 (BitVec.ofBool true) 12 36 (by omega)
  have valid : (entry.withValid true).valid = true := by
    rw [Entry.valid, Entry.withValid, Bits.getLsbD_setField]
    simp
  rw [tableOf, Entry.valid_withPageOrTable, Entry.pageOrTable_withPageOrTable,
    Entry.addr_withPageOrTable, valid, addr]
  rfl

lemma tableOf_earlyEntry (page : PageNo) : tableOf (VmInit.tableEntry page) = some page := by
  rw [VmInit.tableEntry, tableOf_link, Entry.addr_withPhysAddr]

lemma tableOf_rootEntry (page : PageNo) : tableOf (rootEntry page) = some page := by
  have addr : ∀ entry : Entry, (entry.withAccessed true).addr = entry.addr := fun entry =>
    Bits.extract_setField_other entry 10 (BitVec.ofBool true) 12 36 (by omega)
  rw [rootEntry, tableOf_link, addr, Entry.addr_withPhysAddr]

section

variable {early : List PageNo} {rank : PageNo → Nat} {root : PageNo} {phys after : Phys}
  {page : PageNo} {rest : Phys}

lemma Ranked.taken (ranked : Ranked early rank root phys) (taken : phys.alloc = (.ok page, rest)) :
    Ranked early rank root rest ∧ rank page = 4 ∧ page ∈ early ∧ page ∉ pages rest.supply := by
  rw [Phys.alloc] at taken
  split at taken
  · cases taken
  rename_i supply answers
  cases taken
  have listed : pages phys.supply = page :: pages supply := by
    rw [answers]
    rfl
  have unused : rank page = 4 := ranked.fresh page (by rw [listed]; exact List.mem_cons_self)
  have distinct := ranked.distinct
  rw [listed, List.nodup_cons] at distinct
  have still : ∀ other ∈ pages supply, other ∈ pages phys.supply := by
    intro _ later
    rw [listed]
    exact List.mem_cons_of_mem _ later
  have known : page ∈ early := ranked.stock page (by rw [listed]; exact List.mem_cons_self)
  exact ⟨⟨ranked.top, ranked.below, ranked.self, ranked.loops, ranked.within,
    fun other later => ranked.stock other (still other later),
    fun other later => ranked.fresh other (still other later), distinct.2⟩, unused,
      known, distinct.1⟩

lemma Ranked.write (ranked : Ranked early rank root phys) (unused : 3 ≤ rank page) {mem : Mem}
    (same : ∀ other, other ≠ page → mem other = phys.mem other) :
    Ranked early rank root { phys with mem := mem } := by
  have old : ∀ other, rank other ≤ 2 → mem other = phys.mem other := by
    intro other bound
    apply same
    rintro rfl
    omega
  refine ⟨ranked.top, fun other index child bound apart points => ?_, fun other first => ?_,
    fun other child bound points => ?_, ranked.within, ranked.stock, ranked.fresh, ranked.distinct⟩
  · have points' : tableOf (mem other index) = some child := points
    rw [old other bound] at points'
    exact ranked.below other index child bound apart points'
  · change mem other recursiveSlot = VmInit.tableEntry other
    rw [old other (by omega)]
    exact ranked.self other first
  · have points' : tableOf (mem other recursiveSlot) = some child := points
    rw [old other bound] at points'
    exact ranked.loops other child bound points'

variable {err : PageAllocError}

lemma Ranked.refused (ranked : Ranked early rank root phys)
    (refused : phys.alloc = (.error err, rest)) :
    Ranked early rank root rest := by
  rw [Phys.alloc] at refused
  split at refused
  · cases refused
    exact ranked
  rename_i supply answers
  cases refused
  have listed : pages phys.supply = pages supply := by
    rw [answers]
    rfl
  exact ⟨ranked.top, ranked.below, ranked.self, ranked.loops, ranked.within,
    fun page later => ranked.stock page (by rw [listed]; exact later),
    fun page later => ranked.fresh page (by rw [listed]; exact later), listed ▸ ranked.distinct⟩

variable {table : PageNo}

section

variable (ranked : Ranked early rank root phys)
include ranked

lemma Ranked.link {index : Index} (upper : rank table ≤ 2) (unused : rank page = 4)
    (apart : index ≠ recursiveSlot) (empty : phys.mem page = fun _ => 0) (listed : page ∈ early)
    (free : page ∉ pages phys.supply) :
    Ranked early (update rank page (rank table + 1)) root
      ((phys.set table index (VmInit.tableEntry page)).set page recursiveSlot
        (VmInit.tableEntry page)) := by
  have different : table ≠ page := by
    rintro rfl
    omega
  have word : ∀ other index',
    ((phys.set table index (VmInit.tableEntry page)).set page recursiveSlot
      (VmInit.tableEntry page)).mem other index' =
        Radix.set (Radix.set phys.mem table index (VmInit.tableEntry page)) page recursiveSlot
          (VmInit.tableEntry page) other index' := fun _ _ => rfl
  have top : root ≠ page := by
    rintro rfl
    rw [ranked.top] at unused
    cases unused
  refine ⟨?_, fun other index' child bound outside points => ?_, fun other first => ?_,
    fun other child bound points => ?_, fun other used => ?_, ranked.stock, fun other later => ?_,
    ranked.distinct⟩
  · rw [update_of_ne top]
    exact ranked.top
  · rw [word, set_other _ _ fun both => outside both.2] at points
    by_cases new : other = page
    · subst new
      rw [set_node _ _ _ different.symm, empty, tableOf_zero] at points
      cases points
    rw [update_of_ne new] at bound ⊢
    by_cases written : other = table ∧ index' = index
    · rw [written.1, written.2, set_same, tableOf_earlyEntry] at points
      rw [← Option.some.inj points, update_self, written.1]
    rw [set_other _ _ written] at points
    have next := ranked.below other index' child bound outside points
    have old : child ≠ page := by
      rintro rfl
      omega
    rw [update_of_ne old]
    exact next
  · rw [word]
    by_cases new : other = page
    · rw [new, set_same]
    rw [update_of_ne new] at first
    rw [set_node _ _ _ new, set_other _ _ fun both => apart both.2.symm]
    exact ranked.self other first
  · rw [word] at points
    by_cases new : other = page
    · rw [new, set_same, tableOf_earlyEntry] at points
      rw [new, Option.some.inj points]
    rw [update_of_ne new] at bound
    rw [set_node _ _ _ new, set_other _ _ fun both => apart both.2.symm] at points
    exact ranked.loops other child bound points
  · by_cases new : other = page
    · rw [new]
      exact listed
    rw [update_of_ne new] at used
    exact ranked.within other used
  · have old : other ≠ page := by
      rintro rfl
      exact free later
    rw [update_of_ne old]
    exact ranked.fresh other later

lemma allocPhyspage_ok (taken : allocPhyspage phys = (.ok page, after)) :
    Ranked early rank root after ∧ rank page = 4 ∧ page ∈ early ∧ page ∉ pages after.supply := by
  rw [allocPhyspage] at taken
  split at taken
  · cases taken
  rename_i answer rest allocated
  obtain ⟨same, rfl⟩ := Prod.mk.inj taken
  obtain rfl := Except.ok.inj same
  obtain ⟨ranked', unused, listed, free⟩ := ranked.taken allocated
  have last : 3 ≤ rank answer := by omega
  refine ⟨ranked'.write last fun other apart => ?_, unused, listed, free⟩
  exact update_of_ne apart ..

lemma allocPhyspage_error (refused : allocPhyspage phys = (.error err, after)) :
    Ranked early rank root after := by
  rw [allocPhyspage] at refused
  split at refused
  · rename_i failed
    cases refused
    exact ranked.refused failed
  · cases refused

end

/-! ## Mapping keeps the ranks -/

variable {level : Level} {va : VirtAddr} {result : Except PageTableError PageNo}

lemma nextMut_ranked (upper : level.depth ≤ 2) (ranked : Ranked early rank root phys)
    (here : rank table = level.depth) (returns : VmInit.nextMut level va table phys =
      (result, after)) :
    ∃ rank', Ranked early rank' root after ∧ ∀ next, result = .ok next → rank' next =
      level.depth + 1 := by
  simp only [VmInit.nextMut] at returns
  split at returns
  · cases returns
    exact ⟨rank, ranked, nofun⟩
  rename_i apart
  split at returns
  · split at returns
    · rename_i refused
      cases returns
      exact ⟨rank, allocPhyspage_error ranked refused, nofun⟩
    · rename_i page rest taken
      cases returns
      obtain ⟨ranked', unused, listed, free⟩ := allocPhyspage_ok ranked taken
      have last : 3 ≤ rank page := by omega
      have same : ∀ other, other ≠ page → (rest.clear page).mem other = rest.mem other :=
        fun other apart => update_of_ne apart ..
      have cleared := ranked'.write last same
      have linked := cleared.link (by omega : rank table ≤ 2) unused apart (update_self ..) listed
        free
      refine ⟨_, linked, fun next same => ?_⟩
      rw [← Except.ok.inj same, update_self, here]
  rename_i valid
  split at returns
  · cases returns
    exact ⟨rank, ranked, nofun⟩
  rename_i isTable
  cases returns
  refine ⟨rank, ranked, fun next same => ?_⟩
  cases same
  have flag : Entry.pageOrTable (phys.mem table (vaIndex va level)) = true := by
    have both : Entry.isTable (phys.mem table (vaIndex va level)) level = true := by
      simpa using isTable
    exact (Bool.and_eq_true_iff.mp both).1
  have points : tableOf (phys.mem table (vaIndex va level)) =
      some (Entry.addr (phys.mem table (vaIndex va level))) := by
    rw [tableOf, flag]
    simpa using valid
  rw [ranked.below table _ _ (by omega) apart points, here]

lemma nextAll_ranked {levels : List Level} {last : Level} (descends : Descends levels level last)
    (ranked : Ranked early rank root phys) (here : rank table = level.depth)
    (returns : VmInit.nextAll va levels table phys = (result, after)) :
    ∃ rank', Ranked early rank' root after ∧ ∀ found, result = .ok found → rank' found =
      last.depth := by
  induction levels generalizing rank phys level table with
  | nil =>
    cases returns
    refine ⟨rank, ranked, fun found same => ?_⟩
    rw [← Except.ok.inj same, here, show level = last from descends]
  | cons first _ ih =>
    obtain ⟨rfl, next, follows, later⟩ := descends
    obtain ⟨depth, upper⟩ := depth_next follows
    rw [VmInit.nextAll] at returns
    cases step : VmInit.nextMut first va table phys with
    | mk answer =>
      obtain ⟨rank', ranked', leads⟩ := nextMut_ranked upper ranked here step
      rw [step] at returns
      cases answer with
      | error =>
        cases returns
        exact ⟨rank', ranked', nofun⟩
      | ok child =>
        have down : rank' child = next.depth := by rw [leads child rfl, depth]
        exact ih later ranked' down returns

lemma mapTo_ranked {size : PageSize} {entry : Entry} (small : size ≠ .page1G)
    (block : entry.pageOrTable = false) (ranked : Ranked early rank root phys)
    {result : Except PageTableError Unit}
    (returns : VmInit.mapTo root entry va size phys = (result, after)) :
    ∃ rank', Ranked early rank' root after := by
  rw [VmInit.mapTo] at returns
  cases walked : VmInit.nextAll va size.tables root phys with
  | mk answer middle =>
    obtain ⟨rank', ranked', leads⟩ := nextAll_ranked (descends_tables size) ranked ranked.top walked
    rw [walked] at returns
    cases answer with
    | error =>
      cases returns
      exact ⟨rank', ranked'⟩
    | ok table =>
      cases returns
      have last := leads table rfl
      have same : ∀ other, other ≠ table →
          (middle.set table (vaIndex va size.level) (size.entry entry)).mem other =
          middle.mem other :=
        fun other apart => set_node _ _ _ apart
      refine ⟨rank', ?_⟩
      cases size with
      | page4K => exact ranked'.write (Nat.le_of_eq last.symm) same
      | page2M =>
        have old : ∀ other index child,
            tableOf (Radix.set middle.mem table (vaIndex va page2M.level) (page2M.entry entry) other
              index) = some child → tableOf (middle.mem other index) = some child := by
          intro other index child points
          by_cases written : other = table ∧ index = vaIndex va page2M.level
          · have none : tableOf (page2M.entry entry) = none := by
              change tableOf entry = none
              simp [tableOf, block]
            rw [written.1, written.2, set_same, none] at points
            cases points
          · rwa [set_other _ _ written] at points
        refine ⟨ranked'.top, fun other index child bound outside points => ?_, fun other first =>
          ?_,
          fun other child bound points => ?_, ranked'.within, ranked'.stock, ranked'.fresh,
          ranked'.distinct⟩
        · exact ranked'.below other index child bound outside (old other index child points)
        · have apart : other ≠ table := by
            rintro rfl
            rw [last] at first
            cases first
          rw [same other apart]
          exact ranked'.self other first
        · exact ranked'.loops other child bound (old other _ child points)
      | page1G => exact absurd rfl small

/-- A part of the map is mapped in pages or blocks of 2 MiB. -/
structure Small (part : Section) : Prop where
  size : part.size ≠ .page1G
  block : part.flags.pageOrTable = false

variable {part : Section}

lemma mapPages_ranked (small : Small part) {pas : List PhysAddr} {last : VirtAddr}
    (ranked : Ranked early rank root phys)
    (returns : VmInit.mapPages root part.flags part.size pas va phys = some (last, after)) :
    ∃ rank', Ranked early rank' root after := by
  induction pas generalizing rank va phys with
  | nil =>
    cases returns
    exact ⟨rank, ranked⟩
  | cons pa _ ih =>
    rw [VmInit.mapPages] at returns
    split at returns
    · have block : Entry.pageOrTable (part.flags.withPhysAddr pa) = false := by
        rw [Entry.pageOrTable_withPhysAddr]
        exact small.block
      cases step : VmInit.mapTo root (part.flags.withPhysAddr pa) va part.size phys with
      | mk =>
        obtain ⟨_, ranked'⟩ := mapTo_ranked small.size block ranked step
        rw [step] at returns
        exact ih ranked' returns
    · cases returns

lemma mapPhysRange_ranked (small : Small part) {mapping : VaMapping}
    (ranked : Ranked early rank root phys) {vr : VirtRange}
    (returns : VmInit.mapPhysRange root part.range mapping part.flags part.size phys =
      some (.ok vr, after)) :
    (∃ rank', Ranked early rank' root after) ∧ part.range.stepByRounded part.size.size ≠
    some [] := by
  rw [VmInit.mapPhysRange] at returns
  split at returns
  · cases returns
  split at returns
  · cases returns
  · cases returns
  rename_i steps
  obtain ⟨⟨_, _⟩, mapped, same⟩ := Option.map_eq_some_iff.mp returns
  cases same
  refine ⟨mapPages_ranked small ranked mapped, ?_⟩
  rw [steps]
  exact nofun

lemma mapSections_ranked {parts : List Section} (small : ∀ part ∈ parts, Small part)
    (ranked : Ranked early rank root phys) (returns : mapSections root parts phys = some after) :
    (∃ rank', Ranked early rank' root after) ∧
      ∀ part ∈ parts, part.range.stepByRounded part.size.size ≠ some [] := by
  induction parts generalizing rank phys with
  | nil =>
    cases returns
    exact ⟨⟨rank, ranked⟩, fun part member => nomatch member⟩
  | cons part _ ih =>
    rw [mapSections] at returns
    split at returns
    · rename_i mapped
      obtain ⟨⟨_, ranked'⟩, filled⟩ :=
        mapPhysRange_ranked (small part List.mem_cons_self) ranked mapped
      obtain ⟨kept, others⟩ :=
        ih (fun other member => small other (List.mem_cons_of_mem _ member)) ranked' returns
      refine ⟨kept, fun other member => ?_⟩
      rcases List.mem_cons.mp member with rfl | later
      · exact filled
      · exact others other later
    · cases returns

lemma identityTables_ranked {lower : PageNo} (ranked : Ranked early rank root phys)
    (returns : identityTables phys = some (lower, after)) :
    Ranked early rank root after ∧ rank lower = 4 := by
  rw [identityTables] at returns
  split at returns
  · cases returns
  rename_i third middle taken
  obtain ⟨ranked', unused, -, -⟩ := allocPhyspage_ok ranked taken
  have last : 3 ≤ rank third := by omega
  have written := ranked'.write last (fun other apart =>
    (set_node middle.mem 0 identityBlock apart : _ = _))
  split at returns
  · cases returns
  rename_i fourth rest taken'
  obtain ⟨ranked'', unused', -, -⟩ := allocPhyspage_ok written taken'
  obtain ⟨rfl, rfl⟩ := Prod.mk.inj (Option.some.inj returns)
  have last' : 3 ≤ rank fourth := by omega
  exact ⟨ranked''.write last' fun other apart => set_node _ _ _ apart, unused'⟩

end

/-! ## `init_vm` -/

section

variable {layout : Layout} {mem : Mem} {parts : List Section} {root : PageNo} {phys : Phys}

lemma early_nodup (early : EarlyPages) : early.list.Nodup := by
  have bounded := early.bounded
  apply List.Nodup.map_on _ List.nodup_range
  intro one first two second same
  have below := List.mem_range.mp first
  have below' := List.mem_range.mp second
  have numbers := congrArg toNat same
  rw [BitVec.toNat_add, BitVec.toNat_add, BitVec.toNat_ofNat, BitVec.toNat_ofNat,
    Nat.mod_eq_of_lt (by omega : one < 2 ^ 36), Nat.mod_eq_of_lt (by omega : two < 2 ^ 36),
    Nat.mod_eq_of_lt (by omega), Nat.mod_eq_of_lt (by omega)] at numbers
  omega

lemma pages_ok (list : List PageNo) : pages (list.map .ok) = list := by
  induction list with
  | nil => rfl
  | cons page list ih =>
    change page :: pages (list.map .ok) = page :: list
    rw [ih]

lemma root_ranked (taken : allocPhyspage (layout.early.new mem) = (.ok root, phys)) :
    Ranked layout.early.list (fun page => if page = root then 0 else 4) root
      (phys.set root recursiveSlot (rootEntry root)) := by
  have distinct := early_nodup layout.early
  rw [allocPhyspage, Phys.alloc] at taken
  have answers : (layout.early.new mem).supply = layout.early.list.map .ok := rfl
  rw [answers] at taken
  cases listed : layout.early.list with
  | nil =>
    rw [listed] at taken
    cases taken
  | cons first list =>
    rw [listed] at taken
    obtain ⟨same, rfl⟩ := Prod.mk.inj taken
    obtain rfl := Except.ok.inj same
    rw [listed, List.nodup_cons] at distinct
    have others : ∀ page ∈ pages (list.map Except.ok : List (Except PageAllocError PageNo)),
        (if page = first then 0 else 4) = 4 := by
      intro _ later
      rw [pages_ok] at later
      rw [if_neg]
      rintro rfl
      exact distinct.1 later
    have known : ∀ page, (if page = first then 0 else 4) ≠ 4 → page = first := by
      intro page used
      by_contra other
      exact used (if_neg other)
    refine ⟨if_pos rfl, fun page index child bound outside points => ?_, fun page one => ?_,
      fun page child bound points => ?_, fun page used => ?_, fun page later => ?_, others, ?_⟩
    · obtain rfl := known page (by omega)
      change tableOf (Radix.set (update _ page fun _ => 0) page recursiveSlot _ page index) =
        some child at points
      rw [set_other _ _ fun both => outside both.2, update_self, tableOf_zero] at points
      cases points
    · split at one
      · cases one
      · cases one
    · obtain rfl := known page (by omega)
      change tableOf (Radix.set _ page recursiveSlot (rootEntry page) page recursiveSlot) =
        some child at points
      rw [set_same, tableOf_rootEntry] at points
      exact (Option.some.inj points).symm
    · rw [known page used]
      exact List.mem_cons_self
    · change page ∈ pages (list.map .ok) at later
      rw [pages_ok] at later
      exact List.mem_cons_of_mem first later
    · change (pages (list.map .ok)).Nodup
      rw [pages_ok]
      exact distinct.2

lemma mem_customMap (mapped : layout.customMap = some parts) :
    (∀ part ∈ parts, Small part) ∧ ⟨layout.textRange, .roKernelText, .page2M⟩ ∈ parts := by
  obtain ⟨_, -, rfl⟩ := Option.map_eq_some_iff.mp mapped
  constructor
  · intro _ member
    rw [List.mem_insertionSort] at member
    simp only [List.mem_cons, List.not_mem_nil, or_false] at member
    rcases member with rfl | rfl | rfl | rfl
    · exact ⟨nofun, show Entry.roKernelData.pageOrTable = false by decide⟩
    · exact ⟨nofun, show Entry.roKernelText.pageOrTable = false by decide⟩
    · exact ⟨nofun, show Entry.roKernelData.pageOrTable = false by decide⟩
    · exact ⟨nofun, show Entry.rwKernelData.pageOrTable = false by decide⟩
  · simp

lemma initVm_ranked {ttbr : Ttbr} (mapped : layout.customMap = some parts)
    (finishes : initVm layout mem = some (ttbr, phys)) :
    (∃ rank, Ranked layout.early.list rank ttbr.kernel phys ∧ rank ttbr.user = 4) ∧
      layout.textRange.stepByRounded page2M.size ≠ some [] := by
  obtain ⟨small, text⟩ := mem_customMap mapped
  rw [initVm, mapped] at finishes
  simp only at finishes
  split at finishes
  · cases finishes
  rename_i taken
  split at finishes
  · cases finishes
  rename_i sections
  obtain ⟨⟨_, _⟩, identity, same⟩ := Option.map_eq_some_iff.mp finishes
  cases same
  obtain ⟨⟨rank, ranked⟩, filled⟩ := mapSections_ranked small (root_ranked taken) sections
  have nonempty := filled _ text
  exact ⟨⟨rank, identityTables_ranked ranked identity⟩, nonempty⟩

lemma textRange_first (filled : layout.textRange.stepByRounded page2M.size ≠ some []) :
    layout.textRange.start ≤ 0 ∧ 0 < layout.textRange.stop := by
  have start : layout.textRange.start = 0 := by
    have least : (0 : PhysAddr) ≤ layout.text.start := by bv_omega
    simp only [Layout.textRange, PhysRange.add, least, if_true]
  by_contra empty
  have stop : layout.textRange.stop = 0 := by bv_omega
  have range : layout.textRange = ⟨layout.textRange.start, layout.textRange.stop⟩ := rfl
  rw [start, stop] at range
  rw [range] at filled
  exact filled (by decide)

end

lemma table_of_translated {mem : Mem} {root : PageNo} {va : VirtAddr} {pa : Nat}
    (translated : translate mem root va = some pa) :
    ∃ child, tableOf (mem root (vaIndex va .level0)) = some child := by
  rw [Vm.translate] at translated
  split at translated
  · obtain ⟨⟨_, _⟩, walked, -⟩ := Option.map_eq_some_iff.mp translated
    cases points : tableOf (mem root (vaIndex va .level0)) with
    | some child => exact ⟨child, rfl⟩
    | none =>
      rw [walk, indices, Radix.look_stop fun _ => points] at walked
      cases walked
  · cases translated

/-- Whenever `init_vm` finishes, the kernel's tables are not what `vm.rs` assumes: either the
kernel's text is not mapped, or the table it is mapped through points to itself. -/
theorem initVm_never_expected (layout : Layout) (mem : Mem) (parts : List Section) (ttbr : Ttbr)
    (phys : Phys) (mapped : layout.customMap = some parts)
    (finishes : initVm layout mem = some (ttbr, phys)) : ¬ Expected ttbr phys parts := by
  intro expected
  obtain ⟨⟨rank, ranked, -⟩, filled⟩ := initVm_ranked mapped finishes
  obtain ⟨first, last⟩ := textRange_first filled
  have text := (mem_customMap mapped).2
  have translated := expected.translates _ text 0 first last
  have index : vaIndex (0 + ofNat 64 kzero) .level0 = 256 := by decide
  have apart : (256 : Index) ≠ recursiveSlot := by decide
  obtain ⟨child, points⟩ := table_of_translated translated
  have below : rank child = 1 := by
    rw [ranked.below ttbr.kernel 256 child (by rw [ranked.top]; omega) apart points, ranked.top]
  have self := ranked.self child below
  have other : child ≠ ttbr.kernel := by
    rintro rfl
    rw [ranked.top] at below
    cases below
  have seen : tableOf (masked ttbr.kernel phys.mem ttbr.kernel 256) = some child := by
    rw [masked_other ttbr.kernel phys.mem fun both => apart both.2]
    exact points
  have again : tableOf (masked ttbr.kernel phys.mem child recursiveSlot) = some child := by
    rw [masked_page ttbr.kernel phys.mem other, self, tableOf_earlyEntry]
  have once : tableAt phys.mem ttbr.kernel [256] = some child := by
    simp only [tableAt, follow, seen, Option.bind_some]
  have twice : tableAt phys.mem ttbr.kernel [256, recursiveSlot] = some child := by
    simp only [tableAt, follow, seen, again, Option.bind_some]
  have same := expected.tree [256] [256, recursiveSlot] child (by simp) (by simp) once twice
  exact absurd same (by decide)

def smallLayout : Layout where
  eboottext :=
  0x1000
  text := ⟨0x1000, 0x200000⟩
  rodata := ⟨0x200000, 0x400000⟩
  data := ⟨0x400000, 0x500000⟩
  bss := ⟨0x500000, 0x600000⟩
  dtbPa := 0x8000000
  dtbSize := 0x1000
  early := ⟨0x580, 32, by decide⟩

def aliased : VirtAddr := 0xffff807fc0000000

/-- Early boot of the small kernel finishes, and the tables it leaves are not what `vm.rs` assumes.
-/
theorem initVm_never_expected_small : ∃ parts ttbr phys, smallLayout.customMap = some parts ∧
      initVm smallLayout (fun _ _ => 0) = some (ttbr, phys) ∧ ¬ Expected ttbr phys parts := by
  have mapped : smallLayout.customMap.isSome = true := by decide +kernel
  have finishes : (initVm smallLayout fun _ _ => 0).isSome = true := by decide +kernel
  obtain ⟨parts, mapped⟩ := Option.isSome_iff_exists.mp mapped
  obtain ⟨⟨ttbr, phys⟩, finishes⟩ := Option.isSome_iff_exists.mp finishes
  exact ⟨parts, ttbr, phys, mapped, finishes,
    initVm_never_expected smallLayout _ parts ttbr phys mapped finishes⟩

/-- After early boot of the small kernel, `map_to` maps 2 MiB of device memory at an address whose
level-1 index is the last one. It succeeds, and an address outside these 2 MiB, the first of the
kernel's text, is translated to the device. -/
theorem later_map_moves_text : ∃ ttbr phys after, initVm smallLayout (fun _ _ => 0) = some
    (ttbr, phys) ∧
      Vm.mapTo ttbr ttbr.kernel (Entry.rwDevice.withPhysAddr 0x40000000) aliased .page2M
        .kernel phys =
        some (.ok (), after) ∧
      ¬ Covers .page2M aliased (ofNat 64 kzero) ∧
      Vm.translate phys.mem ttbr.kernel (ofNat 64 kzero) = some 0 ∧
      Vm.translate after.mem ttbr.kernel (ofNat 64 kzero) = some 0x40000000 := by
  have evaluated : ((initVm smallLayout fun _ _ => 0).any fun booted =>
      (Vm.mapTo booted.1 booted.1.kernel (Entry.rwDevice.withPhysAddr 0x40000000) aliased .page2M
        .kernel booted.2).any fun outcome => outcome.1.isOk &&
          decide (¬ Covers .page2M aliased (ofNat 64 kzero) ∧
            Vm.translate booted.2.mem booted.1.kernel (ofNat 64 kzero) = some 0 ∧
            Vm.translate outcome.2.mem booted.1.kernel (ofNat 64 kzero) = some 0x40000000)) =
      true := by
    decide +kernel
  obtain ⟨⟨ttbr, phys⟩, boots, later⟩ := (Option.any_eq_true _ _).mp evaluated
  obtain ⟨⟨result, after⟩, maps, passes⟩ := (Option.any_eq_true _ _).mp later
  obtain ⟨succeeds, tested⟩ := Bool.and_eq_true_iff.mp passes
  cases result with
  | error => cases succeeds
  | ok => exact ⟨ttbr, phys, after, boots, maps, of_decide_eq_true tested⟩

end R9x.Verif.EarlyTables
