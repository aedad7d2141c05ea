import R9x.Aarch64.Spawn
import R9x.Verif.HeapRuns
import R9x.Verif.KernelTables

/-!
# Spawning keeps the account

The three ways to spawn, and the heap calls, take pages for an address space, for the tables of its
root and for the kernel's tables, and write only to pages they have taken and to those tables.
-/

namespace R9x.Verif.Spawning

open Lib Aarch64 Aarch64.Vm Aarch64.Spawn PageTree Ownership KernelTables
open Aspace (kernelPointer)
open BitVec (ofNat)
open Function (update update_self update_of_ne)
open Option (bind_eq_some_iff map_eq_some_iff some.inj)

/-! ## The account with the kernel's tables -/

/-- The trees of the address spaces are accounted for, and so are the kernel's tables, which have
layers; the kernel can map each page that the allocator still has. -/
structure Account (owner : PageNo → Owner) (roots : List PageNo) (kernel : PageNo) (phys : Phys) :
    Prop where
  owned : Owned owner roots roots phys
  layers : ∃ depth, Layers kernel phys.mem depth ∧
    ∀ page level, depth page = some level → owner page = .table kernel
  clear : ∀ page ∈ pages phys.supply, Clear phys.mem kernel (kernelPointer page)
  apart : kernel ∉ roots

/-- What a call does to the account: owners of pages in use stay, and clear ways stay clear. -/
structure Step (roots : List PageNo) (kernel : PageNo) (owner : PageNo → Owner) (phys : Phys)
    (owner' : PageNo → Owner) (after : Phys) : Prop where
  account : Account owner' roots kernel after
  settled : ∀ page, owner page ≠ .free → owner page ≠ .held → owner' page = owner page
  clear : ∀ va, Clear phys.mem kernel va → Clear after.mem kernel va

/-- The kernel reaches a page at the address where it maps it. -/
structure Reaches (kernel page : PageNo) (mem : Mem) : Prop where
  outside : vaIndex (kernelPointer page) .level0 ≠ recursiveSlot
  clear : Clear mem kernel (kernelPointer page)
  page : kernelPage mem kernel (kernelPointer page) = some page

section

variable {owner owner' owner'' : PageNo → Owner} {roots : List PageNo} {kernel root page : PageNo}
  {phys middle after : Phys}

lemma Account.refl (account : Account owner roots kernel phys) :
    Step roots kernel owner phys owner phys :=
  ⟨account, fun _ _ _ => rfl, fun _ => id⟩

lemma Step.trans (one : Step roots kernel owner phys owner' middle)
    (two : Step roots kernel owner' middle owner'' after) :
    Step roots kernel owner phys owner'' after := by
  refine ⟨two.account, fun page used settled => ?_, fun va clear =>
    two.clear va (one.clear va clear)⟩
  exact stays two.settled (one.settled page used settled) used settled

lemma Step.user (step : Step roots kernel owner phys owner' after)
    (belongs : owner page = .user root) : owner' page = .user root :=
  stays step.settled belongs (by simp) (by simp)

lemma Step.other (step : Step roots kernel owner phys owner' after)
    (unrelated : owner page = .other) : owner' page = .other :=
  stays step.settled unrelated (by simp) (by simp)

lemma Step.live (step : Step roots kernel owner phys owner' after) {live : PageNo}
    (alive : Live owner roots live) : Live owner' roots live :=
  alive.imp id step.other

lemma Account.kernel_settled (account : Account owner roots kernel phys)
    (settled : ∀ page, owner page ≠ .free → owner page ≠ .held → owner' page = owner page)
    {mem : Mem} (contents : ∀ page, owner page = .table kernel → mem page = phys.mem page) :
    (∃ depth, Layers kernel mem depth ∧
      ∀ page level, depth page = some level → owner' page = .table kernel) ∧
      ∀ va, Clear phys.mem kernel va → Clear mem kernel va := by
  obtain ⟨depth, layers, tables⟩ := account.layers
  have agree : ∀ page level, depth page = some level → mem page = phys.mem page :=
    fun page level known => contents page (tables page level known)
  refine ⟨⟨depth, layers.congr agree, fun page level known => ?_⟩,
    fun va clear => clear.congr layers agree⟩
  exact stays settled (tables page level known) (by simp) (by simp)

/-! ## Pages of an address space -/

variable {ttbr : Ttbr} {attributes : Entry} {va : VirtAddr}

lemma Account.takePage (account : Account owner roots kernel phys)
    (alive : Live owner roots ttbr.user)
    (member : root ∈ roots) (plain : Plain attributes) {result : Except PageAllocError PageNo}
    (returns : takePage ttbr root attributes va phys = some (result, after)) :
    ∃ owner', Step roots kernel owner phys owner' after ∧ ∀ page, result = .ok page →
      page ∈ pages phys.supply ∧ owner' page = .user root := by
  obtain ⟨owner', took⟩ := account.owned.takePage member alive plain returns
  have contents : ∀ page, owner page = .table kernel → after.mem page = phys.mem page := by
    intro page table
    apply took.moved.contents page
    rw [stays took.moved.settled table (by simp) (by simp)]
    intro same
    exact account.apart (Owner.table.inj same ▸ member)
  obtain ⟨layers, clear⟩ := account.kernel_settled took.moved.settled contents
  refine ⟨owner', ⟨⟨took.owned, layers, fun page later => ?_, account.apart⟩, took.moved.settled,
    clear⟩,
    fun page given => ?_⟩
  · exact clear _ (account.clear page (took.moved.supply page later))
  · have gives := took.gives
    rw [given] at gives
    exact ⟨gives.1, gives.2.1⟩

/-- Writing a page of an address space, or one that a call holds. -/
lemma Account.write (account : Account owner roots kernel phys) (row : Index → Entry)
    (data : ∀ which, owner page ≠ .table which) :
    Step roots kernel owner phys owner { phys with mem := update phys.mem page row } := by
  have contents : ∀ other, owner other = .table kernel →
      update phys.mem page row other = phys.mem other := by
    rintro other table
    apply update_of_ne
    rintro rfl
    exact data kernel table
  obtain ⟨layers, clear⟩ := account.kernel_settled (fun _ _ _ => rfl) contents
  exact ⟨⟨account.owned.write row data, layers, fun page later =>
    clear _ (account.clear page later),
    account.apart⟩, fun _ _ _ => rfl, clear⟩

lemma Account.write_reaches (account : Account owner roots kernel phys) (row : Index → Entry)
    (data : ∀ which, owner page ≠ .table which) {other : PageNo}
    (reaches : Reaches kernel other phys.mem) :
    Reaches kernel other (update phys.mem page row) := by
  obtain ⟨depth, layers, tables⟩ := account.layers
  have agree : ∀ other level, depth other = some level →
      update phys.mem page row other = phys.mem other := by
    intro other level known
    apply update_of_ne
    rintro rfl
    exact data kernel (tables other level known)
  refine ⟨reaches.outside, reaches.clear.congr layers agree, ?_⟩
  rw [kernelPage, Layers.walk_eq layers reaches.clear reaches.outside agree]
  exact reaches.page

lemma Account.storeWord (account : Account owner roots kernel phys) (member : root ∈ roots)
    {word : Entry} (stores : storeWord root va word phys = some after) :
    Step roots kernel owner phys owner after := by
  obtain ⟨_, row, data, rfl⟩ := account.owned.stored member stores
  exact account.write row data

/-! ## Pages of the kernel half -/

lemma Account.mapKernelPage (account : Account owner roots ttbr.kernel phys)
    (clear : Clear phys.mem ttbr.kernel (kernelPointer page))
    {result : Except PageTableError VirtRange}
    (returns : Aspace.mapKernelPage ttbr page phys = some (result, after)) :
    ∃ owner', Step roots ttbr.kernel owner phys owner' after ∧
      (∀ other, owner other = .held → owner' other = .held) ∧
      ∀ range, result = .ok range → Reaches ttbr.kernel page after.mem := by
  obtain ⟨depth, layers, tables⟩ := account.layers
  obtain ⟨done, maps, good, -⟩ := mapPhysRange_returns returns
  have free := account.owned.free
  have stocked : Stocked depth phys := by
    refine ⟨account.owned.distinct, fun other later => ?_⟩
    cases known : depth other with
    | none => rfl
    | some level =>
      have table := tables other level known
      rw [free other later] at table
      cases table
  have plain := plain_rwKernelData.withPhysAddr (pageAddr page)
  obtain ⟨taken, depth', grows, mapped⟩ := mapTo_grows layers stocked clear plain.valid maps
  have taken_free : ∀ other ∈ pages taken, owner other = .free := by
    intro other new
    apply free other
    rw [grows.supply, pages_append]
    exact List.mem_append_left _ new
  have stays : ∀ other, owner other ≠ .free → claim owner ttbr.kernel taken other = owner other :=
    fun other used => if_neg fun new => used (taken_free other new)
  have frame : ∀ other, owner other ≠ .table ttbr.kernel → owner other ≠ .free →
      after.mem other = phys.mem other := by
    intro other foreign used
    refine grows.frame other ?_ fun new => used (taken_free other new)
    cases known : depth other with
    | none => rfl
    | some level => exact absurd (tables other level known) foreign
  have agrees : ∀ root ∈ roots, Agrees root phys.mem after.mem := by
    intro root member other inside
    have belongs := account.owned.tables root member other inside
    apply frame other
    · rw [belongs]
      intro same
      exact account.apart (Owner.table.inj same ▸ member)
    · simp [belongs]
  refine ⟨claim owner ttbr.kernel taken, ⟨⟨account.owned.foreign ttbr.kernel grows.supply agrees,
    ⟨depth', grows.layers, fun other level known => ?_⟩, fun other later => ?_, account.apart⟩,
    fun other used _ => stays other used, grows.clear⟩, fun other held => ?_, fun range success =>
      ?_⟩
  · rcases grows.new other level known with old | new
    · have table := tables other level old
      rw [stays other (by simp [table]), table]
    · exact if_pos new
  · refine grows.clear _ (account.clear other ?_)
    rw [grows.supply, pages_append]
    exact List.mem_append_right _ later
  · rw [stays other (by simp [held]), held]
  · obtain ⟨outside, walked⟩ := mapped (good range success)
    refine ⟨outside, grows.clear _ clear, ?_⟩
    change walk after.mem ttbr.kernel (kernelPointer page) = _ at walked
    rw [kernelPage, walked]
    change (if (descriptor .rwKernelData page).accessPermission.kernelWritable then
      some (descriptor .rwKernelData page).addr else none) = some page
    rw [accessPermission_descriptor, addr_descriptor]
    rfl

/-! ## A page that the kernel fills -/

variable {va : Nat} {kptr : VirtAddr}

lemma mapOrPanic_some (returns : mapOrPanic ttbr root attributes va phys = some (kptr, after)) :
    ∃ page middle range, takePage ttbr root attributes (ofNat 64 va) phys =
      some (.ok page, middle) ∧
      Aspace.mapKernelPage ttbr page middle = some (.ok range, after) ∧
        kptr = kernelPointer page := by
  rw [mapOrPanic, mapUserPage_eq] at returns
  rcases takes : takePage ttbr root attributes (ofNat 64 va) phys with _ | ⟨_ | page, middle⟩
  · simp [takes] at returns
  · simp [takes] at returns
  rcases called : Aspace.mapKernelPage ttbr page middle with _ | ⟨_ | range, _⟩
  · simp [takes, called] at returns
  · simp [takes, called] at returns
  · simp only [takes, called, Option.bind_some, Option.map_some] at returns
    obtain ⟨rfl, rfl⟩ := Prod.mk.inj (some.inj returns)
    exact ⟨page, middle, range, rfl, called, rfl⟩

/-- A page of an address space that the kernel reaches. -/
structure Filling (roots : List PageNo) (kernel root page : PageNo) (owner : PageNo → Owner)
    (phys : Phys) (owner' : PageNo → Owner) (after : Phys) : Prop
    extends Step roots kernel owner phys owner' after where
  mine : owner' page = .user root
  reaches : Reaches kernel page after.mem

lemma Account.mapOrPanic (account : Account owner roots ttbr.kernel phys)
    (alive : Live owner roots ttbr.user) (member : root ∈ roots) (plain : Plain attributes)
    (returns : mapOrPanic ttbr root attributes va phys = some (kptr, after)) :
    ∃ owner' page, kptr = kernelPointer page ∧
      Filling roots ttbr.kernel root page owner phys owner' after := by
  obtain ⟨page, middle, range, takes, maps, rfl⟩ := mapOrPanic_some returns
  obtain ⟨owner₁, first, given⟩ := account.takePage alive member plain takes
  obtain ⟨listed, belongs⟩ := given page rfl
  have clear := first.clear _ (account.clear page listed)
  obtain ⟨owner₂, second, -, reaches⟩ := first.account.mapKernelPage clear maps
  exact ⟨owner₂, page, rfl, first.trans second, second.user belongs, reaches range rfl⟩

lemma Filling.write (filling : Filling roots ttbr.kernel root page owner phys owner' middle)
    {change : (Index → Entry) → Index → Entry}
    (returns : writePage ttbr (kernelPointer page) change middle = some after) :
    Filling roots ttbr.kernel root page owner phys owner' after := by
  have data : ∀ which, owner' page ≠ .table which := by
    simp [filling.mine]
  rw [writePage, filling.reaches.page] at returns
  cases returns
  exact ⟨filling.toStep.trans (filling.account.write _ data), filling.mine,
    filling.account.write_reaches _ data filling.reaches⟩

lemma Filling.copy (filling : Filling roots ttbr.kernel root page owner phys owner' middle)
    {offset : Nat} {src : List Byte}
    (returns : copyToPage ttbr (kernelPointer page) offset src middle = some after) :
    Filling roots ttbr.kernel root page owner phys owner' after := by
  rw [copyToPage] at returns
  split at returns
  · exact filling.write returns
  · cases returns

/-- A page is mapped and filled. -/
lemma Account.fillPage (account : Account owner roots ttbr.kernel phys)
    (alive : Live owner roots ttbr.user) (member : root ∈ roots) (plain : Plain attributes)
    {src : List Byte} (maps : Spawn.mapOrPanic ttbr root attributes va phys = some (kptr, middle))
    (copies : copyToPage ttbr kptr 0 src middle = some after) :
    ∃ owner', Step roots ttbr.kernel owner phys owner' after := by
  obtain ⟨owner', page, rfl, filling⟩ := account.mapOrPanic alive member plain maps
  exact ⟨owner', (filling.copy copies).toStep⟩

/-! ## A new address space -/

lemma mem_emptyRoot (phys : Phys) (page : PageNo) :
    (initEmptyRootPageTable page (phys.clear page)).mem =
      update phys.mem page (update (fun _ => 0) recursiveSlot (tableEntry page)) := by
  rw [initEmptyRootPageTable, Phys.set, Radix.set_eq_update, Phys.clear, Function.update_idem]
  dsimp only
  rw [update_self]

/-- A step that adds an address space. -/
structure Spawned (root : PageNo) (ttbr : Ttbr) (roots : List PageNo) (owner : PageNo → Owner)
    (phys : Phys) (owner' : PageNo → Owner) (after : Phys) : Prop
    extends Step (root :: roots) ttbr.kernel owner phys owner' after where
  fresh : root ∉ roots
  alive : Live owner' (root :: roots) ttbr.user

lemma Spawned.step (spawned : Spawned root ttbr roots owner phys owner' middle)
    (step : Step (root :: roots) ttbr.kernel owner' middle owner'' after) :
    Spawned root ttbr roots owner phys owner'' after :=
  ⟨spawned.toStep.trans step, spawned.fresh, step.live spawned.alive⟩

lemma Account.addRoot (account : Account owner roots kernel phys) (held : owner page = .held) :
    Step (page :: roots) kernel owner phys (update owner page (.table page))
      (initEmptyRootPageTable page (phys.clear page)) := by
  have settled : ∀ other, owner other ≠ .free → owner other ≠ .held →
      update owner page (.table page) other = owner other := by
    intro other _ settled
    apply update_of_ne
    rintro rfl
    exact settled held
  have contents : ∀ other, owner other = .table kernel →
      (initEmptyRootPageTable page (phys.clear page)).mem other = phys.mem other := by
    intro other table
    rw [mem_emptyRoot]
    apply update_of_ne
    rintro rfl
    rw [held] at table
    cases table
  obtain ⟨layers, clear⟩ := account.kernel_settled settled contents
  refine ⟨⟨account.owned.addRoot held, layers, fun other later =>
    clear _ (account.clear other later), ?_⟩,
    settled, clear⟩
  rw [List.mem_cons, not_or]
  refine ⟨?_, account.apart⟩
  rintro rfl
  obtain ⟨depth, known, tables⟩ := account.layers
  rw [tables _ 0 known.root] at held
  cases held

lemma Account.hold (account : Account owner roots kernel phys)
    {supply : List (Except PageAllocError PageNo)} (answers : phys.supply = .ok page :: supply) :
    Step roots kernel owner phys (update owner page .held) { phys with supply } := by
  obtain ⟨-, owned⟩ := account.owned.alloc answers
  have moved := account.owned.hold answers kernel
  obtain ⟨layers, clear⟩ := account.kernel_settled moved.settled fun _ _ => rfl
  exact ⟨⟨owned, layers, fun other later =>
    clear _ (account.clear other (moved.supply other later)),
    account.apart⟩, moved.settled, clear⟩

lemma Account.new (account : Account owner roots ttbr.kernel phys)
    (alive : Live owner roots ttbr.user)
    (returns : Aspace.new ttbr phys = some (root, after)) :
    ∃ owner', Spawned root ttbr roots owner phys owner' after := by
  rw [Aspace.new, Phys.alloc] at returns
  cases answers : phys.supply with
  | nil =>
    rw [answers] at returns
    cases returns
  | cons answer =>
    rw [answers] at returns
    cases answer with
    | error => cases returns
    | ok page =>
      have listed : page ∈ pages phys.supply := by
        rw [answers]
        exact List.mem_cons_self
      have first := account.hold answers
      dsimp only at returns
      split at returns
      · cases returns
      · cases returns
      rename_i range middle called
      have clear := first.clear _ (account.clear page listed)
      obtain ⟨owner₁, second, keeps, reaches⟩ := first.account.mapKernelPage clear called
      have held : owner₁ page = .held := keeps page (update_self ..)
      have unlisted : page ∉ roots := by
        intro member
        have belongs := second.account.owned.tables page member page (inTree_root middle.mem page)
        rw [held] at belongs
        cases belongs
      split at returns
      · rw [(reaches range rfl).page] at returns
        obtain ⟨rfl, rfl⟩ := Prod.mk.inj (some.inj returns)
        have third := second.account.addRoot held
        have both := first.trans second
        refine ⟨_, ⟨third.account, fun other used settled => ?_, fun va clear =>
          third.clear va (both.clear va clear)⟩,
          unlisted, ?_⟩
        · exact stays third.settled (both.settled other used settled) used settled
        · exact (both.live alive).imp (List.mem_cons_of_mem page) fun other =>
            stays third.settled other (by simp) (by simp)
      · cases returns

/-! ## Loading an image -/

lemma plain_segment (exec : Bool) :
    Plain (if exec then Entry.roUserText else Entry.rwUserData) := by
  cases exec
  · exact plain_rwUserData
  · exact plain_roUserText

variable {bytes : List Byte} {seg : Port.Elf.Segment} {count : Nat}

section

variable (account : Account owner roots ttbr.kernel phys) (alive : Live owner roots ttbr.user)
  (member : root ∈ roots)
include account alive member

lemma Account.loadPage (returns : loadPage ttbr root bytes seg va phys = some after) :
    ∃ owner', Step roots ttbr.kernel owner phys owner' after := by
  obtain ⟨⟨kptr, mapped⟩, maps, rest⟩ := bind_eq_some_iff.mp returns
  obtain ⟨owner', page, rfl, filling⟩ :=
    account.mapOrPanic alive member (plain_segment seg.exec) maps
  obtain ⟨zeroed, zeroes, rest⟩ := bind_eq_some_iff.mp rest
  have filling' := filling.write zeroes
  dsimp only at rest
  split at rest
  · split at rest
    · exact ⟨owner', (filling'.copy rest).toStep⟩
    · cases rest
  · cases rest
    exact ⟨owner', filling'.toStep⟩

lemma Account.loadPages (returns : loadPages ttbr root bytes seg count va phys = some after) :
    ∃ owner', Step roots ttbr.kernel owner phys owner' after := by
  induction count generalizing va owner phys with
  | zero =>
    cases returns
    exact ⟨owner, account.refl⟩
  | succ _ ih =>
    obtain ⟨_, one, rest⟩ := bind_eq_some_iff.mp returns
    obtain ⟨_, first⟩ := account.loadPage alive member one
    obtain ⟨owner₂, others⟩ := ih first.account (first.live alive) rest
    exact ⟨owner₂, first.trans others⟩

lemma Account.loadSegments {segs : List Port.Elf.Segment}
    (returns : loadSegments ttbr root bytes segs phys = some after) :
    ∃ owner', Step roots ttbr.kernel owner phys owner' after := by
  induction segs generalizing owner phys with
  | nil =>
    cases returns
    exact ⟨owner, account.refl⟩
  | cons _ _ ih =>
    obtain ⟨_, one, rest⟩ := bind_eq_some_iff.mp returns
    obtain ⟨_, first⟩ := account.loadPages alive member one
    obtain ⟨owner₂, others⟩ := ih first.account (first.live alive) rest
    exact ⟨owner₂, first.trans others⟩

lemma Account.mapStack (returns : mapStack ttbr root count va phys = some after) :
    ∃ owner', Step roots ttbr.kernel owner phys owner' after := by
  induction count generalizing va owner phys with
  | zero =>
    cases returns
    exact ⟨owner, account.refl⟩
  | succ _ ih =>
    obtain ⟨⟨_, _⟩, one, rest⟩ := bind_eq_some_iff.mp returns
    obtain ⟨_, _, -, first⟩ := account.mapOrPanic alive member plain_rwUserData one
    obtain ⟨owner₂, others⟩ := ih first.account (first.live alive) rest
    exact ⟨owner₂, first.toStep.trans others⟩

end

variable {loaded : Loaded}

lemma loadElf_some (returns : loadElf ttbr bytes phys = some (loaded, after)) :
    ∃ (image : Port.Elf.Image) (top : Nat) (fresh full : Phys), Aspace.new ttbr phys =
      some (loaded.root, fresh) ∧
      loadSegments ttbr loaded.root bytes image.segments fresh = some full ∧
      mapStack ttbr loaded.root stackPages top full = some after := by
  rw [loadElf] at returns
  split at returns
  · cases returns
  rename_i image _
  split at returns
  · cases returns
  split at returns
  · obtain ⟨⟨_, fresh⟩, new, rest⟩ := bind_eq_some_iff.mp returns
    obtain ⟨full, loads, rest⟩ := bind_eq_some_iff.mp rest
    obtain ⟨_, stack, same⟩ := map_eq_some_iff.mp rest
    cases same
    exact ⟨image, _, fresh, full, new, loads, stack⟩
  · cases returns

lemma Account.loadElf (account : Account owner roots ttbr.kernel phys)
    (alive : Live owner roots ttbr.user)
    (returns : loadElf ttbr bytes phys = some (loaded, after)) :
    ∃ owner', Spawned loaded.root ttbr roots owner phys owner' after := by
  obtain ⟨_, _, _, _, new, loads, stack⟩ := loadElf_some returns
  have member : loaded.root ∈ loaded.root :: roots := List.mem_cons_self
  obtain ⟨_, first⟩ := account.new alive new
  obtain ⟨_, second⟩ := first.account.loadSegments first.alive member loads
  obtain ⟨owner', third⟩ := second.account.mapStack (second.live first.alive) member stack
  exact ⟨owner', (first.step second).step third⟩

/-! ## The three ways to spawn -/

variable {slot : Bool} {space : Space} {heapBase : Nat}

lemma tryInstall_some (installs : tryInstall root heapBase slot = some (some space)) :
    space = ⟨root, heapBase, heapBase, heapBase⟩ := by
  rw [tryInstall] at installs
  split at installs
  · split at installs
    · exact (some.inj (some.inj installs)).symm
    · cases installs
  · cases installs

lemma install_some (installs : install root heapBase slot = some space) :
    space = ⟨root, heapBase, heapBase, heapBase⟩ := by
  obtain ⟨_, tried, rfl⟩ := bind_eq_some_iff.mp installs
  exact tryInstall_some tried

variable {state : List Byte} {result : Except SpawnError Space}

lemma sysSpawn_cases {registry : List (List Byte)} {index stateVa prio : Nat}
    (returns : sysSpawn ttbr registry index stateVa prio slot phys = some (result, after)) :
    ((∃ err, result = .error err) ∧ after = phys) ∨
      ∃ bytes state, Spawn.spawnState ttbr bytes state slot phys = some (result, after) := by
  rw [sysSpawn] at returns
  split at returns
  · cases returns
    exact .inl ⟨⟨_, rfl⟩, rfl⟩
  split at returns
  · split at returns
    · cases returns
    · cases returns
      exact .inl ⟨⟨_, rfl⟩, rfl⟩
    · exact .inr ⟨_, _, returns⟩
  cases returns
  exact .inl ⟨⟨_, rfl⟩, rfl⟩

section

variable (account : Account owner roots ttbr.kernel phys) (alive : Live owner roots ttbr.user)
include account alive

lemma Account.spawnElf {handles : Option Handles}
    (returns : spawnElf ttbr bytes handles slot phys = some (space, after)) :
    ∃ owner', Spawned space.root ttbr roots owner phys owner' after := by
  obtain ⟨⟨_, _⟩, loads, rest⟩ := bind_eq_some_iff.mp returns
  obtain ⟨_, fills, rest⟩ := bind_eq_some_iff.mp rest
  obtain ⟨_, installs, same⟩ := map_eq_some_iff.mp rest
  cases same
  obtain ⟨owner₁, spawned⟩ := account.loadElf alive loads
  obtain rfl := install_some installs
  cases handles with
  | none =>
    cases fills
    exact ⟨owner₁, spawned⟩
  | some =>
    obtain ⟨⟨_, _⟩, maps, copies⟩ := bind_eq_some_iff.mp fills
    obtain ⟨owner', step⟩ :=
      spawned.account.fillPage spawned.alive List.mem_cons_self plain_rwUserData maps copies
    exact ⟨owner', spawned.step step⟩

lemma Account.spawnState (returns : spawnState ttbr bytes state slot phys = some (result, after)) :
    ∃ owner' root, Spawned root ttbr roots owner phys owner' after ∧
      ∀ space, result = .ok space → space.root = root := by
  obtain ⟨⟨loaded, _⟩, loads, rest⟩ := bind_eq_some_iff.mp returns
  obtain ⟨⟨_, _⟩, maps, rest⟩ := bind_eq_some_iff.mp rest
  obtain ⟨_, copies, rest⟩ := bind_eq_some_iff.mp rest
  obtain ⟨installed, installs, same⟩ := map_eq_some_iff.mp rest
  obtain ⟨_, spawned⟩ := account.loadElf alive loads
  have filled := spawned.account.fillPage spawned.alive List.mem_cons_self plain_rwUserData maps
    copies
  obtain ⟨owner', step⟩ := filled
  cases installed with
  | none =>
    cases same
    exact ⟨owner', loaded.root, spawned.step step, by simp⟩
  | some space =>
    cases same
    refine ⟨owner', loaded.root, spawned.step step, fun other success => ?_⟩
    obtain rfl := Except.ok.inj success
    rw [tryInstall_some installs]

lemma Account.spawnRaw {text : List Byte} {textVa stackVa : Nat}
    (returns : spawnRaw ttbr text textVa stackVa slot phys = some (space, after)) :
    ∃ owner', Spawned space.root ttbr roots owner phys owner' after := by
  obtain ⟨⟨root, _⟩, new, rest⟩ := bind_eq_some_iff.mp returns
  obtain ⟨⟨_, _⟩, maps, rest⟩ := bind_eq_some_iff.mp rest
  obtain ⟨_, copies, rest⟩ := bind_eq_some_iff.mp rest
  obtain ⟨⟨_, _⟩, laid, rest⟩ := bind_eq_some_iff.mp rest
  obtain ⟨⟨_, _⟩, handles, rest⟩ := bind_eq_some_iff.mp rest
  obtain ⟨_, headers, rest⟩ := bind_eq_some_iff.mp rest
  obtain ⟨_, -, rest⟩ := bind_eq_some_iff.mp rest
  obtain ⟨_, installs, same⟩ := map_eq_some_iff.mp rest
  cases same
  have member : root ∈ root :: roots := List.mem_cons_self
  obtain ⟨_, first⟩ := account.new alive new
  obtain ⟨_, second⟩ := first.account.fillPage first.alive member plain_roUserText maps copies
  have two := first.step second
  obtain ⟨_, _, -, third⟩ := two.account.mapOrPanic two.alive member plain_rwUserData laid
  have three := two.step third.toStep
  obtain ⟨owner', fourth⟩ :=
    three.account.fillPage three.alive member plain_rwUserData handles headers
  obtain rfl := install_some installs
  exact ⟨owner', three.step fourth⟩

end

/-! ## The heap -/

open HeapRuns

section

variable (account : Account owner roots kernel phys)
include account

lemma Account.mapUserDataPagePa {ttbr : Ttbr} {va : VirtAddr}
    {result : Except PageAllocError PhysAddr}
    (alive : ttbr.user ∈ roots) (member : root ∈ roots)
    (returns : Aspace.mapUserDataPagePa ttbr root va phys = some (result, after)) :
    ∃ owner', Step roots kernel owner phys owner' after := by
  rw [mapUserDataPagePa_eq] at returns
  obtain ⟨⟨_, _⟩, takes, same⟩ := map_eq_some_iff.mp returns
  cases same
  obtain ⟨owner', step, -⟩ := account.takePage (.inl alive) member plain_rwUserData takes
  exact ⟨owner', step⟩

lemma Account.growPages {ttbr : Ttbr} {grant : Grant} (alive : ttbr.user ∈ roots)
    (member : root ∈ roots)
    (returns : growPages ttbr root count va phys = some (grant, after)) :
    ∃ owner', Step roots kernel owner phys owner' after := by
  induction count generalizing va owner phys grant with
  | zero =>
    cases returns
    exact ⟨owner, account.refl⟩
  | succ _ ih =>
    rw [Aarch64.growPages] at returns
    split at returns
    · cases returns
    · rename_i called
      obtain ⟨owner', step⟩ := account.mapUserDataPagePa alive member called
      cases returns
      exact ⟨owner', step⟩
    rename_i called
    obtain ⟨_, step⟩ := account.mapUserDataPagePa alive member called
    obtain ⟨⟨_, _⟩, loop, same⟩ := map_eq_some_iff.mp returns
    cases same
    obtain ⟨owner₂, others⟩ := ih step.account loop
    exact ⟨owner₂, step.trans others⟩

lemma Account.heapGrow {outcome : HeapOutcome Nat} (member : space.root ∈ roots)
    (returns : heapGrow kernel space count phys = some outcome) :
    outcome.space.root = space.root ∧ ∃ owner', Step roots kernel owner phys owner'
      outcome.phys := by
  cases grown : brkGrow space.heapBrk count kzero with
  | none =>
    rw [heapGrow_declined grown] at returns
    cases returns
    exact ⟨rfl, owner, account.refl⟩
  | some =>
    rw [heapGrow_granted grown] at returns
    obtain ⟨⟨⟨failed, _⟩, _⟩, loop, rfl⟩ := map_eq_some_iff.mp returns
    obtain ⟨owner', step⟩ := account.growPages member member loop
    cases failed with
    | none | some _ => exact ⟨rfl, owner', step⟩

lemma Account.heapAllocPage {outcome : HeapOutcome (Nat × PhysAddr)} (member : space.root ∈ roots)
    (returns : heapAllocPage kernel space phys = some outcome) :
    outcome.space.root = space.root ∧ ∃ owner', Step roots kernel owner phys owner'
      outcome.phys := by
  cases grown : brkGrow space.heapBrk pageSize4K kzero with
  | none =>
    rw [heapAllocPage_declined grown] at returns
    cases returns
    exact ⟨rfl, owner, account.refl⟩
  | some =>
    rw [heapAllocPage_granted grown] at returns
    obtain ⟨⟨result, _⟩, called, rfl⟩ := map_eq_some_iff.mp returns
    obtain ⟨owner', step⟩ := account.mapUserDataPagePa member member called
    cases result with
    | error | ok => exact ⟨rfl, owner', step⟩

end

end

end R9x.Verif.Spawning
