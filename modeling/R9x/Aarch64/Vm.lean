import R9x.Lib.Bits
import R9x.Lib.Radix

/-!
# Page tables

`aarch64/src/vm.rs`: the descriptor format, the table walk that creates tables on demand, and the
mapping of ranges.
-/

namespace R9x.Aarch64.Vm

open Lib
open BitVec (ofBool ofNat)
open Bits (setField)

/-- The number of a 4 KiB page of physical memory. -/
abbrev PageNo := BitVec 36

/-- Equal page numbers are the same page. -/
instance lawfulPageNo : LawfulBEq PageNo := inferInstance

/-- A physical address. -/
abbrev PhysAddr := BitVec 64

/-- A virtual address. -/
abbrev VirtAddr := BitVec 64

/-- The index of an entry in a table. -/
abbrev Index := BitVec 9

def pageAddr (page : PageNo) : PhysAddr := page.setWidth 64 <<< 12

/-- `PageAllocError`. -/
inductive PageAllocError where
  | outOfBounds
  | misalignedAddr
  | outOfSpace
  | notAllocated
  | unableToMap
  deriving DecidableEq

/-- `PageTableError`. -/
inductive PageTableError where
  | allocationFailed (err : PageAllocError)
  | entryIsNotTable
  | physRangeIsZero
  | physRangeIsNotOnPageBoundary
  | mappingRecursiveIndex
  deriving DecidableEq

/-- `PageSize`. -/
inductive PageSize where
  | page4K
  | page2M
  | page1G
  deriving DecidableEq

def PageSize.size : PageSize → Nat
  | .page4K => 4 * 2 ^ 10
  | .page2M => 2 * 2 ^ 20
  | .page1G => 2 ^ 30

/-! ## Descriptors -/

/-- `Mair`. -/
inductive Mair where
  | normal
  | device
  deriving DecidableEq

/-- The three-bit encoding of `Mair`. -/
def Mair.bits : Mair → BitVec 3
  | .normal => 0
  | .device => 1

/-- `AccessPermission`. -/
inductive AccessPermission where
  | privRw
  | allRw
  | privRo
  | allRo
  deriving DecidableEq

/-- The two-bit encoding of `AccessPermission`. -/
def AccessPermission.bits : AccessPermission → BitVec 2
  | .privRw => 0
  | .allRw => 1
  | .privRo => 2
  | .allRo => 3

/-- The permission two bits encode. -/
def AccessPermission.ofBits (bits : BitVec 2) : AccessPermission :=
  if bits = 1 then .allRw else if bits = 2 then .privRo else if bits = 3 then .allRo else .privRw

/-- The permissions that let EL0 in. -/
def AccessPermission.user : AccessPermission → Bool
  | .allRw => true
  | .allRo => true
  | _ => false

/-- The permissions that let EL1 write. -/
def AccessPermission.kernelWritable : AccessPermission → Bool
  | .privRw => true
  | .allRw => true
  | _ => false

/-- `Shareable`. -/
inductive Shareable where
  | non
  | unpredictable
  | outer
  | inner
  deriving DecidableEq

/-- The two-bit encoding of `Shareable`. -/
def Shareable.bits : Shareable → BitVec 2
  | .non => 0
  | .unpredictable => 1
  | .outer => 2
  | .inner => 3

/-- `Level`. -/
inductive Level where
  | level0
  | level1
  | level2
  | level3
  deriving DecidableEq

def Level.next : Level → Option Level
  | .level0 => some .level1
  | .level1 => some .level2
  | .level2 => some .level3
  | .level3 => none

def Level.depth : Level → Nat
  | .level0 => 0
  | .level1 => 1
  | .level2 => 2
  | .level3 => 3

/-- A 64-bit descriptor. -/
abbrev Entry := BitVec 64

namespace Entry

/-- Bit 0. -/
def valid (entry : Entry) : Bool := entry.getLsbD 0

/-- Bit 1. -/
def pageOrTable (entry : Entry) : Bool := entry.getLsbD 1

/-- Bits 6 and 7. -/
def accessPermission (entry : Entry) : AccessPermission := .ofBits (entry.extractLsb' 6 2)

/-- Bits 12 to 47: the number of the page the descriptor points to. -/
def addr (entry : Entry) : PageNo := entry.extractLsb' 12 36

def withValid (entry : Entry) (value : Bool) : Entry := setField entry 0 (ofBool value)

def withPageOrTable (entry : Entry) (value : Bool) : Entry := setField entry 1 (ofBool value)

def withMairIndex (entry : Entry) (value : Mair) : Entry := setField entry 2 value.bits

def withAccessPermission (entry : Entry) (value : AccessPermission) : Entry :=
  setField entry 6 value.bits

def withShareable (entry : Entry) (value : Shareable) : Entry := setField entry 8 value.bits

def withAccessed (entry : Entry) (value : Bool) : Entry := setField entry 10 (ofBool value)

/-- `with_addr`: the field takes the low 36 bits. -/
def withAddr (entry : Entry) (value : BitVec 64) : Entry := setField entry 12 (value.setWidth 36)

def withPxn (entry : Entry) (value : Bool) : Entry := setField entry 53 (ofBool value)

def withUxn (entry : Entry) (value : Bool) : Entry := setField entry 54 (ofBool value)

def withPhysAddr (entry : Entry) (pa : PhysAddr) : Entry := entry.withAddr (pa >>> 12)

def isTable (entry : Entry) (level : Level) : Bool := entry.pageOrTable && level ≠ .level3

/-- The common body of the attribute constructors: inner-shareable, accessed and valid. -/
def attributes (permission : AccessPermission) (uxn pxn : Bool) (mair : Mair) : Entry :=
  withValid (withMairIndex (withPxn (withUxn (withAccessed (withShareable
    (withAccessPermission 0 permission) .inner) true) uxn) pxn) mair) true

def rwKernelData : Entry := attributes .privRw true true .normal

def roKernelData : Entry := attributes .privRo true true .normal

def roKernelText : Entry := attributes .privRo true false .normal

def rwDevice : Entry := attributes .privRw true true .device

def roUserText : Entry := attributes .allRo false true .normal

def rwUserData : Entry := attributes .allRw true true .normal

end Entry

/-- A descriptor of a table: what `next_mut` writes for a new page, and `init_empty_root_page_table`
and `generate_temp_recursive_address` for a root. -/
def tableEntry (page : PageNo) : Entry :=
  (Entry.rwKernelData.withPhysAddr (pageAddr page)).withPageOrTable true

/-! ## Addresses -/

def recursiveSlot : Index := 511

def vaIndex (va : VirtAddr) : Level → Index
  | .level0 => ((va >>> 39) &&& 0x1ff#64).setWidth 9
  | .level1 => ((va >>> 30) &&& 0x1ff#64).setWidth 9
  | .level2 => ((va >>> 21) &&& 0x1ff#64).setWidth 9
  | .level3 => ((va >>> 12) &&& 0x1ff#64).setWidth 9

/-- `RootPageTableType`. -/
inductive RootPageTableType where
  | user
  | kernel
  deriving DecidableEq

/-- The `indices_mask` of `recursive_table_addr`: the index bits of an address. -/
def indicesMask : BitVec 64 := 0x0000fffffffff000#64

/-- The `shift` of `recursive_table_addr`. -/
def recursiveShift : Level → Nat
  | .level0 => 36
  | .level1 => 27
  | .level2 => 18
  | .level3 => 9

/-- The `recursive_indices` of `recursive_table_addr`. -/
def recursiveIndices : Level → BitVec 64
  | .level0 => (511#64 <<< 39) ||| (511#64 <<< 30) ||| (511#64 <<< 21) ||| (511#64 <<< 12)
  | .level1 => (511#64 <<< 39) ||| (511#64 <<< 30) ||| (511#64 <<< 21)
  | .level2 => (511#64 <<< 39) ||| (511#64 <<< 30)
  | .level3 => 511#64 <<< 39

/-- The `msbits` of `recursive_table_addr`. -/
def msbits : RootPageTableType → BitVec 64
  | .kernel => 0xffff000000000000#64
  | .user => 0#64

def recursiveTableAddr (pgtype : RootPageTableType) (va : VirtAddr) (level : Level) : VirtAddr :=
  let indices := va &&& indicesMask
  msbits pgtype ||| recursiveIndices level |||
    ((indices >>> recursiveShift level) &&& indicesMask)

/-! ## The hardware walk -/

/-- Physical memory: the words of each page. -/
abbrev Mem := PageNo → Index → Entry

/-- The table a descriptor of level 0, 1 or 2 points to. -/
def tableOf (entry : Entry) : Option PageNo :=
  if entry.valid && entry.pageOrTable then some entry.addr else none

/-- The indices of an address, from level 0 on. -/
def indices (va : VirtAddr) : List Index :=
  [vaIndex va .level0, vaIndex va .level1, vaIndex va .level2, vaIndex va .level3]

/-- What the hardware makes of the descriptor its search ended at, by the number of levels left: a
page at level 3, a block at levels 2 and 1, a fault otherwise. -/
def leaf : Nat × Entry → Option (PageSize × Entry)
  | (0, entry) => if entry.valid && entry.pageOrTable then some (.page4K, entry) else none
  | (1, entry) => if entry.valid then some (.page2M, entry) else none
  | (2, entry) => if entry.valid then some (.page1G, entry) else none
  | _ => none

/-- The four-level walk from a root. -/
def walk (mem : Mem) (root : PageNo) (va : VirtAddr) : Option (PageSize × Entry) :=
  (Radix.look tableOf mem root (indices va)).bind leaf

/-- The page an address is in, given the descriptor that maps it. -/
def frame (size : PageSize) (entry : Entry) (va : VirtAddr) : PageNo :=
  let page : PageNo := (va >>> 12).setWidth 36
  match size with
  | .page4K => entry.addr
  | .page2M => (entry.addr &&& ~~~0x1ff) ||| (page &&& 0x1ff)
  | .page1G => (entry.addr &&& ~~~0x3ffff) ||| (page &&& 0x3ffff)

/-- The page a kernel access to an address reaches. -/
def kernelPage (mem : Mem) (root : PageNo) (va : VirtAddr) : Option PageNo :=
  match walk mem root va with
  | some (size, entry) =>
    if entry.accessPermission.kernelWritable then some (frame size entry va) else none
  | none => none

/-- The physical address behind an address of the kernel half, of which the hardware translates the
last 48 bits. -/
def translate (mem : Mem) (root : PageNo) (va : VirtAddr) : Option Nat :=
  if 2 ^ 64 - 2 ^ 48 ≤ va.toNat then
    (walk mem root va).map fun found => (frame found.1 found.2 va).toNat * 4096 + va.toNat % 4096
  else none

/-! ## Tables -/

/-- The root of each half: `TTBR0_EL1` and `TTBR1_EL1`. -/
structure Ttbr where
  user : PageNo
  kernel : PageNo
  deriving DecidableEq

/-- `root_page_table`. -/
def Ttbr.root (ttbr : Ttbr) : RootPageTableType → PageNo
  | .user => ttbr.user
  | .kernel => ttbr.kernel

/-- Physical memory and the answers the page allocator will give; once they are used up it is out of
space. -/
structure Phys where
  mem : Mem
  supply : List (Except PageAllocError PageNo)

namespace Phys

/-- `allocate_physpage`. On a shortage the source also prints, which in a trap fails the assertion
of `devcons.rs:62`; the model goes on. -/
def alloc (phys : Phys) : Except PageAllocError PageNo × Phys :=
  match phys.supply with
  | [] => (.error .outOfSpace, phys)
  | answer :: supply => (answer, { phys with supply })

/-- Write one word. -/
def set (phys : Phys) (page : PageNo) (index : Index) (entry : Entry) : Phys :=
  { phys with mem := Radix.set phys.mem page index entry }

/-- `PhysPage4K::clear`: zero a page. -/
def clear (phys : Phys) (page : PageNo) : Phys :=
  { phys with mem := Function.update phys.mem page fun _ => 0 }

end Phys

/-- A computation on physical memory. No result means that the kernel has stopped. -/
abbrev Outcome (ε α : Type) := Option (Except ε α × Phys)

/-- `resolve_entry_mut`: the page behind the recursive address. -/
def resolveEntryMut (ttbr : Ttbr) (pgtype : RootPageTableType) (va : VirtAddr) (level : Level)
    (mem : Mem) : Option PageNo :=
  kernelPage mem (ttbr.root pgtype) (recursiveTableAddr pgtype va level)

/-- `next_mut`: the next table of the walk, created if it does not exist. -/
def nextMut (ttbr : Ttbr) (pgtype : RootPageTableType) (va : VirtAddr) (level : Level)
    (table : PageNo) (phys : Phys) : Outcome PageTableError PageNo :=
  let index := vaIndex va level
  if level = .level0 ∧ index = recursiveSlot then some (.error .mappingRecursiveIndex, phys)
  else
    let entry := phys.mem table index
    if entry.valid && !entry.isTable level then some (.error .entryIsNotTable, phys)
    else if entry.valid then
      (level.next.bind fun nextLevel => resolveEntryMut ttbr pgtype va nextLevel phys.mem).map
        fun next => (.ok next, phys)
    else match phys.alloc with
      | (.error err, phys) => some (.error (.allocationFailed err), phys)
      | (.ok page, phys) =>
        let phys := phys.set table index (tableEntry page)
        (level.next.bind fun nextLevel => resolveEntryMut ttbr pgtype va nextLevel phys.mem).map
          fun next => (.ok next, phys.clear next)

/-- The chain of `next_mut` calls of `map_to`. -/
def nextAll (ttbr : Ttbr) (pgtype : RootPageTableType) (va : VirtAddr) :
    List Level → PageNo → Phys → Outcome PageTableError PageNo
  | [], table, phys => some (.ok table, phys)
  | level :: levels, table, phys =>
    match nextMut ttbr pgtype va level table phys with
    | none => none
    | some (.error err, phys) => some (.error err, phys)
    | some (.ok next, phys) => nextAll ttbr pgtype va levels next phys

/-- The levels whose tables `map_to` walks through for a page size. -/
def PageSize.tables : PageSize → List Level
  | .page4K => [.level0, .level1, .level2]
  | .page2M => [.level0, .level1]
  | .page1G => [.level0]

/-- The level of the entry `map_to` writes for a page size. -/
def PageSize.level : PageSize → Level
  | .page4K => .level3
  | .page2M => .level2
  | .page1G => .level1

/-- The entry `map_to` writes: a page needs the page flag. -/
def PageSize.entry (size : PageSize) (entry : Entry) : Entry :=
  if size = .page4K then entry.withPageOrTable true else entry

/-- `map_to`. The live root's recursive slot points to the mapped root for the duration and is
restored whatever the outcome; the written slot is read back and asserted. -/
def mapTo (ttbr : Ttbr) (root : PageNo) (entry : Entry) (va : VirtAddr) (size : PageSize)
    (pgtype : RootPageTableType) (phys : Phys) : Outcome PageTableError Unit :=
  let live := ttbr.root pgtype
  let old := phys.mem live recursiveSlot
  let phys := phys.set live recursiveSlot (tableEntry root)
  match nextAll ttbr pgtype va size.tables root phys with
  | none => none
  | some (.error err, phys) => some (.error err, phys.set live recursiveSlot old)
  | some (.ok table, phys) =>
    let entry := size.entry entry
    let index := vaIndex va size.level
    let phys := phys.set table index entry
    let written := phys.mem table index
    if written.valid && written.addr = entry.addr then
      some (.ok (), phys.set live recursiveSlot old)
    else none

def initEmptyRootPageTable (root : PageNo) (phys : Phys) : Phys :=
  phys.set root recursiveSlot (tableEntry root)

/-! ## Ranges -/

/-- `PhysRange`. -/
structure PhysRange where
  start : PhysAddr
  stop : PhysAddr
  deriving DecidableEq

/-- `PhysRange::with_pa_len` for one page: the end of a page of physical memory does not overflow.
-/
def PhysRange.ofPage (page : PageNo) : PhysRange :=
  ⟨pageAddr page, pageAddr page + ofNat 64 PageSize.page4K.size⟩

def roundDown2 (value step : BitVec 64) : BitVec 64 := value &&& ~~~(step - 1)

/-- `round_up2_u64`; an overflow stops the kernel. -/
def roundUp2 (value step : BitVec 64) : Option (BitVec 64) :=
  if value.toNat + step.toNat < 2 ^ 64 then some ((value + step - 1) &&& ~~~(step - 1)) else none

/-- `PhysRange::step_by_rounded`, as the list of its addresses. -/
def PhysRange.stepByRounded (range : PhysRange) (step : Nat) : Option (List PhysAddr) :=
  let first := roundDown2 range.start (ofNat 64 step)
  (roundUp2 range.stop (ofNat 64 step)).map fun last =>
    (List.range ((last.toNat - first.toNat + step - 1) / step)).map fun k =>
      first + ofNat 64 (k * step)

def PhysRange.round (range : PhysRange) (step : Nat) : Option PhysRange :=
  (roundUp2 range.stop (ofNat 64 step)).map fun stop =>
    ⟨roundDown2 range.start (ofNat 64 step), stop⟩

/-- `PhysRange::with_pa_len`; an overflow stops the kernel. -/
def PhysRange.withPaLen (start : PhysAddr) (len : Nat) : Option PhysRange :=
  if start.toNat + len < 2 ^ 64 then some ⟨start, start + ofNat 64 len⟩ else none

/-- `PhysRange::add`: the hull of two ranges. -/
def PhysRange.add (one two : PhysRange) : PhysRange :=
  ⟨if one.start ≤ two.start then one.start else two.start, if one.stop ≤ two.stop then two.stop
    else one.stop⟩

/-- `VaMapping`. -/
inductive VaMapping where
  | addr (va : VirtAddr)
  | offset (distance : BitVec 64)
  deriving DecidableEq

def VaMapping.map (mapping : VaMapping) (pa : PhysAddr) : VirtAddr :=
  match mapping with
  | .addr va => va
  | .offset distance => pa + distance

/-- `VirtRange`. -/
structure VirtRange where
  start : VirtAddr
  stop : VirtAddr
  deriving DecidableEq

/-- The loop of `map_phys_range` over the physical addresses that are left, from a virtual address
on; the result is `endva`. An overflow of `endva` stops the kernel. -/
def mapPages (ttbr : Ttbr) (root : PageNo) (entry : Entry) (size : PageSize)
    (pgtype : RootPageTableType) :
    List PhysAddr → VirtAddr → Phys → Outcome PageTableError VirtAddr
  | [], currva, phys => some (.ok currva, phys)
  | pa :: pas, currva, phys =>
    if currva.toNat + size.size < 2 ^ 64 then
      match mapTo ttbr root (entry.withPhysAddr pa) currva size pgtype phys with
      | none => none
      | some (.error err, phys) => some (.error err, phys)
      | some (.ok (), phys) =>
        mapPages ttbr root entry size pgtype pas (currva + ofNat 64 size.size) phys
    else none

def mapPhysRange (ttbr : Ttbr) (root : PageNo) (range : PhysRange) (mapping : VaMapping)
    (entry : Entry) (size : PageSize) (pgtype : RootPageTableType) (phys : Phys) :
    Outcome PageTableError VirtRange :=
  if range.start.toNat % size.size ≠ 0 ∨ range.stop.toNat % size.size ≠ 0 then
    some (.error .physRangeIsNotOnPageBoundary, phys)
  else
    match range.stepByRounded size.size with
    | none => none
    | some [] => some (.error .physRangeIsZero, phys)
    | some (pa :: pas) =>
      let startva := mapping.map pa
      match mapPages ttbr root entry size pgtype (pa :: pas) startva phys with
      | none => none
      | some (.error err, phys) => some (.error err, phys)
      | some (.ok endva, phys) => some (.ok ⟨startva, endva⟩, phys)

end R9x.Aarch64.Vm
