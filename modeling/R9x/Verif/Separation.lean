import R9x.Verif.EarlyTables
import R9x.Verif.Spawning

/-!
# Address spaces are apart

A system of processes that are spawned in the three ways the kernel has, use their heaps and store
to their memory, in any order.
-/

namespace R9x.Verif.Separation

open Lib Aarch64 Aarch64.Vm PageTree Ownership KernelTables Spawning
open Aspace (kernelPointer)
open Option (map_some map_eq_some_iff)
open List (mem_cons_of_mem mem_cons_self mem_cons)

/-- The processes of a system, with memory. -/
structure System where
  kernel : PageNo
  boot : PageNo
  registry : List (List Byte)
  spaces : List Space
  phys : Phys

/-- What the kernel or the running process does. -/
inductive Call where
  | spawnRaw (text : List Byte) (textVa stackVa : BitVec 64) (slot : Bool)
  | spawnElf (bytes : List Byte) (handles : Option Spawn.Handles) (slot : Bool)
  | sysSpawn (index stateVa prio : BitVec 64) (slot : Bool)
  | heapGrow (count : BitVec 64)
  | heapAllocPage
  | heapShrink (va : BitVec 64)
  | store (va : VirtAddr) (word : Entry)

/-- A call, and the process that runs; before the first process runs there is none. -/
structure Label where
  running : Option Nat
  call : Call

/-- A process can access a page at EL0. -/
def UserMapped (mem : Mem) (root page : PageNo) : Prop :=
  ∃ va size entry, walk mem root va = some (size, entry) ∧ entry.accessPermission.user = true ∧
    frame size entry va = page

namespace System

def roots (system : System) : List PageNo := system.spaces.map Space.root

def space? (system : System) (running : Option Nat) : Option Space :=
  running.bind fun pid => system.spaces[pid]?

/-- The live roots while a process runs. -/
def ttbr (system : System) (running : Option Nat) : Ttbr :=
  ⟨((system.space? running).map Space.root).getD system.boot, system.kernel⟩

/-- The system with one more process. -/
def add (system : System) (space : Space) (phys : Phys) : System :=
  { system with spaces := system.spaces ++ [space], phys }

/-- The system after `SYS_SPAWN`. -/
def answer (system : System) (result : Except Spawn.SpawnError Space) (phys : Phys) : System :=
  match result with
  | .ok space => system.add space phys
  | .error _ => { system with phys }

/-- A call of the running process on its own address space. -/
def own (system : System) (running : Option Nat) (call : Space → Option (Space × Phys)) :
    Option System :=
  running.bind fun pid => system.spaces[pid]?.bind fun space => (call space).map fun outcome =>
    { system with spaces := system.spaces.set pid outcome.1, phys := outcome.2 }

/-- One call. -/
def step (system : System) (label : Label) : Option System :=
  match label.call with
  | .spawnRaw text textVa stackVa slot =>
    (Spawn.spawnRaw (system.ttbr label.running) text textVa.toNat stackVa.toNat slot
      system.phys).map
      fun outcome => system.add outcome.1 outcome.2
  | .spawnElf bytes handles slot =>
    (Spawn.spawnElf (system.ttbr label.running) bytes handles slot system.phys).map
      fun outcome => system.add outcome.1 outcome.2
  | .sysSpawn index stateVa prio slot =>
    (Spawn.sysSpawn (system.ttbr label.running) system.registry index.toNat stateVa.toNat prio.toNat
      slot system.phys).map fun outcome => system.answer outcome.1 outcome.2
  | .heapGrow count => system.own label.running fun space =>
      (heapGrow system.kernel space count.toNat system.phys).map fun outcome =>
        (outcome.space, outcome.phys)
  | .heapAllocPage => system.own label.running fun space =>
      (heapAllocPage system.kernel space system.phys).map fun outcome =>
        (outcome.space, outcome.phys)
  | .heapShrink va => system.own label.running fun space =>
      some (heapShrink space va.toNat, system.phys)
  | .store va word => system.own label.running fun space =>
      (storeWord space.root va word system.phys).map fun phys => (space, phys)

/-- No page is accessible in two processes, and no table of a process is accessible in any. -/
structure Separated (system : System) : Prop where
  apart : ∀ (i j : Nat) (one two : Space), i ≠ j → system.spaces[i]? = some one →
    system.spaces[j]? = some two →
    ∀ page, UserMapped system.phys.mem one.root page → ¬ UserMapped system.phys.mem two.root page
  tables : ∀ one ∈ system.spaces, ∀ two ∈ system.spaces, ∀ page,
    InTree system.phys.mem one.root page → ¬ UserMapped system.phys.mem two.root page

/-- A system before the first process: the kernel's tables have layers, the allocator has every page
at most once and none that is a table or the live user root, and the way to the kernel's address of
such a page passes no pointer of a table to itself. -/
structure Booted (system : System) : Prop where
  empty : system.spaces = []
  layers : ∃ depth, Layers system.kernel system.phys.mem depth ∧ depth system.boot = none ∧
    ∀ page ∈ pages system.phys.supply, depth page = none
  clear : ∀ page ∈ pages system.phys.supply,
    Clear system.phys.mem system.kernel (kernelPointer page)
  distinct : (pages system.phys.supply).Nodup
  reserved : system.boot ∉ pages system.phys.supply

/-! ## The invariant -/

/-- The owners account for the tables and pages of all processes. -/
structure Accounted (system : System) (owner : PageNo → Owner) : Prop where
  account : Account owner system.roots system.kernel system.phys
  distinct : system.roots.Nodup
  boot : owner system.boot = .other

variable {system next : System} {owner owner' : PageNo → Owner} {space : Space}

lemma root_mem {pid : Nat} (found : system.spaces[pid]? = some space) : space.root ∈ system.roots :=
  List.mem_map.mpr ⟨space, List.mem_of_getElem? found, rfl⟩

lemma Accounted.separated (accounted : Accounted system owner) : Separated system := by
  have mine : ∀ root ∈ system.roots, ∀ page, UserMapped system.phys.mem root page →
      owner page = .user root := by
    rintro _ member _ ⟨_, _, _, found, lets, rfl⟩
    exact accounted.account.owned.accessible member found lets
  refine ⟨fun i j one two different first second page maps also => ?_,
    fun one listed two listed' page inside maps => ?_⟩
  · have one' := mine one.root (root_mem first) page maps
    have two' := mine two.root (root_mem second) page also
    have same : one.root = two.root := Owner.user.inj (one'.symm.trans two')
    have here : system.roots[i]? = some one.root := by
      rw [roots, List.getElem?_map, first, map_some]
    have there : system.roots[j]? = some one.root := by
      rw [roots, List.getElem?_map, second, map_some, same]
    have bound : i < system.roots.length := (List.getElem?_eq_some_iff.mp here).1
    exact different ((List.getElem?_inj bound accounted.distinct).mp (here.trans there.symm))
  · have table := accounted.account.owned.tables one.root (List.mem_map_of_mem listed) page inside
    have user := mine two.root (List.mem_map_of_mem listed') page maps
    rw [table] at user
    cases user

lemma Accounted.alive (accounted : Accounted system owner) (running : Option Nat) :
    Live owner system.roots (system.ttbr running).user := by
  rw [ttbr, space?]
  cases found : running.bind fun pid => system.spaces[pid]? with
  | none => exact .inr accounted.boot
  | some =>
    obtain ⟨_, -, listed⟩ := Option.bind_eq_some_iff.mp found
    exact .inl (root_mem listed)

variable {after : Phys} {ttbr : Ttbr}

section

variable (accounted : Accounted system owner)
include accounted

lemma Accounted.keep (step : Step system.roots system.kernel owner system.phys owner' after)
    (spaces : List Space) (same : spaces.map Space.root = system.roots) :
    Accounted { system with spaces, phys := after } owner' := by
  have roots : System.roots { system with spaces, phys := after } = system.roots := same
  refine ⟨?_, ?_, step.other accounted.boot⟩
  · rw [roots]
    exact step.account
  · rw [roots]
    exact accounted.distinct

lemma Accounted.abandon {root : PageNo} (kernel : ttbr.kernel = system.kernel)
    (spawned : Spawned root ttbr system.roots owner system.phys owner' after) :
    Accounted { system with phys := after } owner' := by
  have account := spawned.account
  rw [kernel] at account
  refine ⟨⟨account.owned.restrict ?_ ?_ fun _ => id, account.layers, account.clear, fun listed =>
    ?_⟩,
    accounted.distinct, spawned.toStep.other accounted.boot⟩
  · exact fun _ member => mem_cons_of_mem root member
  · exact fun _ member => mem_cons_of_mem root member
  · exact account.apart (mem_cons_of_mem root listed)

lemma Accounted.add (kernel : ttbr.kernel = system.kernel)
    (spawned : Spawned space.root ttbr system.roots owner system.phys owner' after) :
    Accounted (system.add space after) owner' := by
  have roots : (system.add space after).roots = system.roots ++ [space.root] := by
    rw [System.add, System.roots, List.map_append, List.map_singleton, System.roots]
  have members : ∀ root ∈ (system.add space after).roots, root ∈ space.root :: system.roots := by
    intro _ member
    rw [roots, List.mem_append, List.mem_singleton] at member
    exact mem_cons.mpr member.symm
  have account := spawned.account
  rw [kernel] at account
  refine ⟨⟨account.owned.restrict members members fun _ => id, account.layers, account.clear,
    fun listed => account.apart (members _ listed)⟩, ?_, spawned.toStep.other accounted.boot⟩
  rw [roots]
  exact accounted.distinct.append (List.nodup_singleton _)
    (List.disjoint_singleton.mpr spawned.fresh)

lemma Accounted.own {running : Option Nat} {call : Space → Option (Space × Phys)}
    (keeps : ∀ space outcome, space.root ∈ system.roots → call space = some outcome →
      outcome.1.root = space.root ∧
        ∃ owner', Step system.roots system.kernel owner system.phys owner' outcome.2)
    (taken : system.own running call = some next) : ∃ owner', Accounted next owner' := by
  obtain ⟨_, -, rest⟩ := Option.bind_eq_some_iff.mp taken
  obtain ⟨space, found, rest⟩ := Option.bind_eq_some_iff.mp rest
  obtain ⟨outcome, calls, rfl⟩ := map_eq_some_iff.mp rest
  obtain ⟨same, owner', step⟩ := keeps space outcome (root_mem found) calls
  refine ⟨owner', accounted.keep step _ ?_⟩
  obtain ⟨_, rfl⟩ := List.getElem?_eq_some_iff.mp found
  rw [List.map_set, same, ← List.map_set, List.set_getElem_self, roots]

/-! ## Runs -/

lemma Accounted.step {label : Label} (taken : system.step label = some next) :
    ∃ owner', Accounted next owner' := by
  have account := accounted.account
  have alive := accounted.alive label.running
  obtain ⟨_, call⟩ := label
  cases call with
  | spawnRaw =>
    obtain ⟨⟨_, _⟩, spawns, rfl⟩ := map_eq_some_iff.mp taken
    obtain ⟨owner', spawned⟩ := account.spawnRaw alive spawns
    exact ⟨owner', accounted.add rfl spawned⟩
  | spawnElf =>
    obtain ⟨⟨_, _⟩, spawns, rfl⟩ := map_eq_some_iff.mp taken
    obtain ⟨owner', spawned⟩ := account.spawnElf alive spawns
    exact ⟨owner', accounted.add rfl spawned⟩
  | sysSpawn =>
    obtain ⟨⟨result, _⟩, spawns, rfl⟩ := map_eq_some_iff.mp taken
    rcases sysSpawn_cases spawns with ⟨⟨_, rfl⟩, rfl⟩ | ⟨_, _, loads⟩
    · exact ⟨owner, accounted⟩
    obtain ⟨owner', _, spawned, installs⟩ := account.spawnState alive loads
    cases result with
    | error => exact ⟨owner', accounted.abandon rfl spawned⟩
    | ok space =>
      obtain rfl := installs space rfl
      exact ⟨owner', accounted.add rfl spawned⟩
  | heapGrow =>
    refine accounted.own (fun space outcome member calls => ?_) taken
    obtain ⟨_, grows, rfl⟩ := map_eq_some_iff.mp calls
    exact account.heapGrow member grows
  | heapAllocPage =>
    refine accounted.own (fun space outcome member calls => ?_) taken
    obtain ⟨_, grows, rfl⟩ := map_eq_some_iff.mp calls
    exact account.heapAllocPage member grows
  | heapShrink =>
    refine accounted.own (fun space outcome member calls => ?_) taken
    cases calls
    refine ⟨?_, owner, account.refl⟩
    rw [heapShrink]
    split <;> rfl
  | store =>
    refine accounted.own (fun space outcome member calls => ?_) taken
    obtain ⟨_, stores, rfl⟩ := map_eq_some_iff.mp calls
    exact ⟨rfl, owner, account.storeWord member stores⟩

end

/-- The owners before the first process: the tables of the kernel by their depth. -/
def bootOwner (system : System) (depth : PageNo → Option Nat) (page : PageNo) : Owner :=
  if (depth page).isSome then .table system.kernel
  else if page ∈ pages system.phys.supply then .free
  else .other

lemma Booted.accounted (booted : Booted system) : ∃ owner, Accounted system owner := by
  have none : system.roots = [] := by rw [roots, booted.empty, List.map_nil]
  obtain ⟨depth, layers, boot, unused⟩ := booted.layers
  refine ⟨bootOwner system depth, ⟨?_, ⟨depth, layers, fun page level known => ?_⟩, booted.clear,
    ?_⟩, ?_, ?_⟩
  · rw [none]
    refine ⟨nofun, nofun, nofun, nofun, nofun, fun page later => ?_, booted.distinct⟩
    rw [bootOwner, unused page later, if_neg (by simp), if_pos later]
  · rw [bootOwner, known, if_pos (by simp)]
  · rw [none]
    exact List.not_mem_nil
  · rw [none]
    exact List.nodup_nil
  · rw [bootOwner, boot, if_neg (by simp), if_neg booted.reserved]

lemma step_accounted (system : System) (label : Label) (next : System) :
    (∃ owner, Accounted system owner) → step system label = some next → ∃ owner,
    Accounted next owner :=
  fun ⟨_, accounted⟩ taken => accounted.step taken

/-- The allocator gives each page once and none that is in use, the processes' tables are trees of
which no two share one, and no table that the kernel's root leads to is one of a process or
accessible to it. -/
structure Guarded (system : System) : Prop where
  once : (pages system.phys.supply).Nodup
  trees : ∀ root ∈ system.roots, Tree system.phys.mem root
  tables : ∀ root ∈ system.roots, ∀ page, InTree system.phys.mem root page →
    page ∉ pages system.phys.supply ∧
      ∀ other ∈ system.roots, InTree system.phys.mem other page → root = other
  users : ∀ root ∈ system.roots, ∀ page, UserMapped system.phys.mem root page →
    page ∉ pages system.phys.supply
  layers : ∃ depth, Layers system.kernel system.phys.mem depth
  kernel : ∀ page, Radix.Reached tableOf system.phys.mem system.kernel 3 page →
    page ∉ pages system.phys.supply ∧ ∀ root ∈ system.roots,
      ¬ InTree system.phys.mem root page ∧ ¬ UserMapped system.phys.mem root page

lemma Accounted.guarded (accounted : Accounted system owner) : Guarded system := by
  have owned := accounted.account.owned
  have apart := accounted.account.apart
  obtain ⟨depth, layers, kernel⟩ := accounted.account.layers
  have users : ∀ root ∈ system.roots, ∀ page, UserMapped system.phys.mem root page →
      owner page = .user root := by
    rintro root member _ ⟨_, _, _, found, lets, rfl⟩
    exact owned.accessible member found lets
  refine ⟨owned.distinct, owned.trees, fun root member page inside =>
    ?_, fun root member page maps later => ?_,
    ⟨depth, layers⟩, fun page reached => ?_⟩
  · have table := owned.tables root member page inside
    refine ⟨fun later => ?_, fun other listed also => ?_⟩
    · cases table.symm.trans (owned.free page later)
    · exact Owner.table.inj (table.symm.trans (owned.tables other listed page also))
  · cases (users root member page maps).symm.trans (owned.free page later)
  · obtain ⟨level, known⟩ := layers.depth_reached reached
    have table := kernel page level known
    refine ⟨fun later => ?_, fun root member => ⟨fun inside => ?_, fun maps => ?_⟩⟩
    · cases table.symm.trans (owned.free page later)
    · have same := Owner.table.inj (table.symm.trans (owned.tables root member page inside))
      exact apart (same ▸ member)
    · cases table.symm.trans (users root member page maps)

/-- The system that `init_vm` leaves, with pages for the allocator. -/
def started (ttbr : Ttbr) (mem : Mem) (supply : List (Except PageAllocError PageNo)) : System :=
  ⟨ttbr.kernel, ttbr.user, [], [], ⟨mem, supply⟩⟩

/-- The ranks of the early tables are layers. -/
lemma layers_of_ranked {early : List PageNo} {rank : PageNo → Nat} {kernel : PageNo} {phys : Phys}
    (ranked : EarlyTables.Ranked early rank kernel phys) :
    Layers kernel phys.mem fun page => if rank page ≤ 3 then some (rank page) else none := by
  refine ⟨by rw [if_pos (by rw [ranked.top]; omega), ranked.top], ?_⟩
  intro node level index child known upper points
  rw [Option.ite_none_right_eq_some] at known
  obtain ⟨-, same⟩ := known
  obtain rfl := Option.some.inj same
  by_cases slot : index = recursiveSlot
  · subst slot
    exact .inl ⟨ranked.loops node child (by omega) points, rfl⟩
  · have next := ranked.below node index child (by omega) slot points
    exact .inr (by rw [if_pos (by omega), next])

/-- What early boot leaves meets the conditions on the start, if the allocator gets pages that early
boot did not use and that the kernel does not map through the last entry of a table. -/
lemma started_booted {layout : VmInit.Layout} {mem : Mem} {ttbr : Ttbr} {phys : Phys}
    (finishes : VmInit.initVm layout mem = some (ttbr, phys))
    {supply : List (Except PageAllocError PageNo)} (distinct : (pages supply).Nodup)
    (reserved : ttbr.user ∉ pages supply)
    (apart : ∀ page ∈ pages supply, page ∉ layout.early.list ∧
      recursiveSlot ∉ pathTo (kernelPointer page) 3) : Booted (started ttbr phys.mem supply) := by
  obtain ⟨parts, mapped⟩ : ∃ parts, layout.customMap = some parts := by
    cases mapped : layout.customMap with
    | some parts => exact ⟨parts, rfl⟩
    | none =>
      rw [VmInit.initVm, mapped] at finishes
      cases finishes
  obtain ⟨⟨rank, ranked, user⟩, -⟩ := EarlyTables.initVm_ranked mapped finishes
  have layers := layers_of_ranked ranked
  refine ⟨rfl, ⟨_, layers, ?_, fun page listed => ?_⟩, fun page listed _ => ?_, distinct, reserved⟩
  · change (if rank ttbr.user ≤ 3 then _ else _) = none
    exact if_neg (by omega)
  · have unused : rank page = 4 := by
      by_contra used
      exact (apart page listed).1 (ranked.within page used)
    exact if_neg (by omega)
  · exact layers.straight (apart page listed).2 (length_pathTo_three _).le

/-- Pages from 16 MiB on. -/
def freePages : List (Except PageAllocError PageNo) :=
  (List.range' 0x1000 40).map fun page => .ok (BitVec.ofNat 36 page)

def twoProcesses : List Label :=
  [⟨none, .spawnRaw [1, 2, 3] 0x100000 0x200000 true⟩, ⟨some 0, .heapGrow 0x1000⟩,
    ⟨some 0, .spawnRaw [4, 5, 6] 0x100000 0x200000 true⟩,
    ⟨some 1, .heapAllocPage⟩,
    ⟨some 1, .store 0x201000 7⟩]

/-- Early boot of a small kernel finishes, and the two processes then run. -/
lemma small_started : ∃ ttbr phys, VmInit.initVm EarlyTables.smallLayout (fun _ _ => 0) = some
    (ttbr, phys) ∧
    Booted (started ttbr phys.mem freePages) ∧
    (run step (started ttbr phys.mem freePages) twoProcesses).map
    (fun system => system.spaces.length) =
      some 2 := by
  have evaluated : ((VmInit.initVm EarlyTables.smallLayout fun _ _ => 0).any fun booted =>
      decide (booted.1.user ∉ pages freePages) &&
        ((run step (started booted.1 booted.2.mem freePages) twoProcesses).map fun system =>
          system.spaces.length) == some 2) = true := by
    decide +kernel
  obtain ⟨⟨ttbr, phys⟩, boots, passes⟩ := (Option.any_eq_true _ _).mp evaluated
  obtain ⟨reserved, runs⟩ := Bool.and_eq_true_iff.mp passes
  have apart : ((pages freePages).all fun page =>
    decide (page ∉ EarlyTables.smallLayout.early.list ∧
      recursiveSlot ∉ pathTo (kernelPointer page) 3)) = true := by
    decide +kernel
  have booted := started_booted boots (by decide) (of_decide_eq_true reserved) fun page listed =>
    of_decide_eq_true (List.all_eq_true.mp apart page listed)
  exact ⟨ttbr, phys, boots, booted, eq_of_beq runs⟩

end System

end R9x.Verif.Separation
