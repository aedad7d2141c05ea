import R9x.Aarch64.Aspace
import Mathlib.Data.List.Sort

/-!
# The first page tables

`aarch64/src/pre_mmu/vminit.rs` builds the kernel's page tables before the MMU is on, so tables are
reached at their physical addresses.
-/

namespace R9x.Aarch64.VmInit

open Aarch64.Vm

/-! ## The early page allocator -/

/-- The pages between `earlyvm_pagetables_pa` and `eearlyvm_pagetables_pa`. -/
structure EarlyPages where
  first : PageNo
  count : Nat
  bounded : first.toNat + count ≤ 2 ^ 36

/-- The pages in the order in which they are handed out. -/
def EarlyPages.list (pages : EarlyPages) : List PageNo :=
  (List.range pages.count).map fun i => pages.first + BitVec.ofNat 36 i

/-- `EarlyPageAllocator::new`: clear all pages. -/
def EarlyPages.new (pages : EarlyPages) (mem : Mem) : Phys where
  mem page :=
  if page ∈ pages.list then fun _ => 0 else mem page
  supply := pages.list.map .ok

def allocPhyspage (phys : Phys) : Except PageAllocError PageNo × Phys :=
  match phys.alloc with
  | (.error err, phys) => (.error err, phys)
  | (.ok page, phys) => (.ok page, phys.clear page)

/-! ## Tables -/

/-- The descriptor `next_mut` writes for a new table. -/
def tableEntry (page : PageNo) : Entry :=
  ((((((0 : Entry).withAccessPermission .privRw).withAccessed true).withMairIndex
    .normal).withPhysAddr
    (pageAddr page)).withValid true).withPageOrTable true

/-- The descriptor `init_vm` writes in the last entry of the root. -/
def rootEntry (page : PageNo) : Entry :=
  ((((0 : Entry).withPhysAddr (pageAddr page)).withAccessed true).withValid true).withPageOrTable
  true

def nextMut (level : Level) (va : VirtAddr) (table : PageNo) (phys : Phys) :
    Except PageTableError PageNo × Phys :=
  let index := vaIndex va level
  if index = recursiveSlot then (.error .mappingRecursiveIndex, phys)
  else
    let entry := phys.mem table index
    if !entry.valid then
      match allocPhyspage phys with
      | (.error err, phys) => (.error (.allocationFailed err), phys)
      | (.ok page, phys) =>
        let entry := tableEntry page
        (.ok page, ((phys.clear page).set table index entry).set page recursiveSlot entry)
    else if !entry.isTable level then (.error .entryIsNotTable, phys)
    else (.ok entry.addr, phys)

/-- The chain of `next_mut` calls of `map_to`. -/
def nextAll (va : VirtAddr) : List Level → PageNo → Phys → Except PageTableError PageNo × Phys
  | [], table, phys => (.ok table, phys)
  | level :: levels, table, phys =>
    match nextMut level va table phys with
    | (.error err, phys) => (.error err, phys)
    | (.ok next, phys) => nextAll va levels next phys

def mapTo (root : PageNo) (entry : Entry) (va : VirtAddr) (size : PageSize) (phys : Phys) :
    Except PageTableError Unit × Phys :=
  match nextAll va size.tables root phys with
  | (.error err, phys) => (.error err, phys)
  | (.ok table, phys) => (.ok (), phys.set table (vaIndex va size.level) (size.entry entry))

/-! ## Ranges -/

/-- The loop of `map_phys_range`; the result is `endva`. A page that cannot be mapped is reported
and passed over. -/
def mapPages (root : PageNo) (entry : Entry) (size : PageSize) :
    List PhysAddr → VirtAddr → Phys → Option (VirtAddr × Phys)
  | [], currva, phys => some (currva, phys)
  | pa :: pas, currva, phys =>
    if currva.toNat + size.size < 2 ^ 64 then
      mapPages root entry size pas (currva + BitVec.ofNat 64 size.size)
        (mapTo root (entry.withPhysAddr pa) currva size phys).2
    else none

def mapPhysRange (root : PageNo) (range : PhysRange) (mapping : VaMapping) (entry : Entry)
    (size : PageSize) (phys : Phys) : Outcome PageTableError VirtRange :=
  if range.start.toNat % size.size ≠ 0 ∨ range.stop.toNat % size.size ≠ 0 then
    some (.error .physRangeIsNotOnPageBoundary, phys)
  else
    match range.stepByRounded size.size with
    | none => none
    | some [] => some (.error .physRangeIsZero, phys)
    | some (pa :: pas) =>
      let startva := mapping.map pa
      (mapPages root entry size (pa :: pas) startva phys).map fun outcome =>
        (.ok ⟨startva, outcome.1⟩, outcome.2)

/-! ## `init_vm` -/

/-- The places of the kernel's sections and of the device tree, as the linker and the boot loader
give them. -/
structure Layout where
  eboottext : PhysAddr
  text : PhysRange
  rodata : PhysRange
  data : PhysRange
  bss : PhysRange
  dtbPa : PhysAddr
  dtbSize : BitVec 32
  early : EarlyPages

/-- One entry of `custom_map`. -/
structure Section where
  range : PhysRange
  flags : Entry
  size : PageSize
  deriving DecidableEq

/-- The range of the kernel's text: `boottext_physrange` begins at address 0. -/
def Layout.textRange (layout : Layout) : PhysRange :=
    PhysRange.add ⟨0, layout.eboottext⟩ layout.text

/-- The range of the device tree, rounded to pages. -/
def Layout.dtbRange (layout : Layout) : Option PhysRange :=
  (PhysRange.withPaLen layout.dtbPa layout.dtbSize.toNat).bind fun range =>
    range.round PageSize.page4K.size

/-- `custom_map`, sorted by the start of the range. -/
def Layout.customMap (layout : Layout) : Option (List Section) :=
  layout.dtbRange.map fun dtb =>
    [⟨dtb, .roKernelData, .page4K⟩, ⟨layout.textRange, .roKernelText, .page2M⟩,
      ⟨layout.rodata, .roKernelData, .page2M⟩,
      ⟨layout.data.add layout.bss, .rwKernelData, .page2M⟩].insertionSort
      fun one two : Section => one.range.start ≤ two.range.start

/-- The loop of `init_vm` over `custom_map`; a range that is refused stops the kernel. -/
def mapSections (root : PageNo) : List Section → Phys → Option Phys
  | [], phys => some phys
  | part :: parts, phys =>
    match mapPhysRange root part.range (.offset (BitVec.ofNat 64 kzero)) part.flags
      part.size phys with
    | some (.ok _, phys) => mapSections root parts phys
    | _ => none

/-- The first entry of `physicalpt3`: the first gigabyte. -/
def identityBlock : Entry :=
  (((((((0 : Entry).withPhysAddr 0).withValid true).withPageOrTable false).withAccessed
    true).withAccessPermission .privRw).withShareable .inner).withUxn true |>.withMairIndex .normal

/-- The first entry of `physicalpt4`. -/
def identityTable (page : PageNo) : Entry :=
  (((0 : Entry).withPhysAddr (pageAddr page)).withValid true).withPageOrTable true

/-- The tables for the transition: `physicalpt3` and `physicalpt4`, the root of the lower half. -/
def identityTables (phys : Phys) : Option (PageNo × Phys) :=
  match allocPhyspage phys with
  | (.error _, _) => none
  | (.ok third, phys) =>
    match allocPhyspage (phys.set third 0 identityBlock) with
    | (.error _, _) => none
    | (.ok fourth, phys) => some (fourth, phys.set fourth 0 (identityTable third))

/-- `init_vm`: the roots it installs and the memory it leaves. -/
def initVm (layout : Layout) (mem : Mem) : Option (Ttbr × Phys) :=
  match layout.customMap with
  | none => none
  | some parts =>
    match allocPhyspage (layout.early.new mem) with
    | (.error _, _) => none
    | (.ok root, phys) =>
      match mapSections root parts (phys.set root recursiveSlot (rootEntry root)) with
      | none => none
      | some phys => (identityTables phys).map fun outcome => (⟨outcome.1, root⟩, outcome.2)

end R9x.Aarch64.VmInit
