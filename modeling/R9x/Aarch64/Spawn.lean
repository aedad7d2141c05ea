import R9x.Aarch64.UserAccess
import R9x.Port.Elf

/-!
# Spawning

`aarch64/src/process.rs`: the loading of an image into a new address space, for raw text, for an
embedded image and for `SYS_SPAWN`.
-/

namespace R9x.Aarch64.Spawn

open Lib Aarch64.Vm Aarch64.Aspace
open Port.Elf (Segment SymTable)

def elfBase : Nat := 0x100000

def handlesVa : Nat := 0x1000000

def stackPages : Nat := 16

def spawnMaxHandles : Nat := 512

/-! ## Pages the kernel fills -/

/-- `map_user_page` where a failure is a panic. -/
def mapOrPanic (ttbr : Ttbr) (root : PageNo) (entry : Entry) (va : Nat) (phys : Phys) :
    Option (VirtAddr × Phys) :=
  match mapUserPage ttbr root entry (BitVec.ofNat 64 va) phys with
  | some (.ok kptr, phys) => some (kptr, phys)
  | some (.error _, _) => none
  | none => none

/-- Write a page through its kernel address. -/
def writePage (ttbr : Ttbr) (kptr : VirtAddr) (change : (Index → Entry) → Index → Entry)
    (phys : Phys) : Option Phys :=
  (kernelPage phys.mem ttbr.kernel kptr).map fun page =>
    { phys with mem := Function.update phys.mem page (change (phys.mem page)) }

/-- `write_bytes` of a whole page with zero. -/
def zeroPage (ttbr : Ttbr) (kptr : VirtAddr) (phys : Phys) : Option Phys :=
  writePage ttbr kptr (fun _ _ => 0) phys

/-- `copy_nonoverlapping` to an offset of a page; every copy here ends within the page. -/
def copyToPage (ttbr : Ttbr) (kptr : VirtAddr) (offset : Nat) (src : List Byte) (phys : Phys) :
    Option Phys :=
  if offset + src.length ≤ pageSize4K then writePage ttbr kptr (fun row => setBytes row offset src)
    phys
  else none

/-- The little-endian bytes of a number. -/
def toLeBytes : Nat → Nat → List Byte
  | 0, _ => []
  | count + 1, value => BitVec.ofNat 8 value :: toLeBytes count (value / 256)

/-! ## Loading an image -/

def pageLo (seg : Segment) : Nat := seg.vaddr / pageSize4K * pageSize4K

/-- The `page_hi` of a segment whose end does not overflow. -/
def pageHi (seg : Segment) : Nat :=
    (seg.vaddr + seg.memsz + pageSize4K - 1) / pageSize4K * pageSize4K

/-- The checks of a segment's placement against the image base, the user half and the segments
before it. -/
def placed (before : List Segment) (seg : Segment) : Bool :=
  elfBase ≤ seg.vaddr && seg.vaddr + seg.memsz < 2 ^ 64 &&
    seg.vaddr + seg.memsz + pageSize4K < 2 ^ 64 && pageHi seg < kzero &&
    before.all fun prev => !(pageLo seg < pageHi prev && pageLo prev < pageHi seg)

/-- The placement loop of `load_elf`: the highest `page_hi`. -/
def placeSegments (before : List Segment) : List Segment → Nat → Option Nat
  | [], top => some top
  | seg :: rest, top =>
    if placed before seg then placeSegments (before ++ [seg]) rest (max top (pageHi seg)) else none

/-- The entry point lies in an executable segment. -/
def inSegment (segs : List Segment) (entry : Nat) : Bool :=
  segs.any fun seg => seg.exec && seg.vaddr ≤ entry && entry < seg.vaddr + seg.memsz

/-- One page of a segment: map it, zero it and copy its share of the file. -/
def loadPage (ttbr : Ttbr) (root : PageNo) (bytes : List Byte) (seg : Segment) (page : Nat)
    (phys : Phys) : Option Phys :=
  let entry := if seg.exec then Entry.roUserText else Entry.rwUserData
  (mapOrPanic ttbr root entry page phys).bind fun (kptr, phys) =>
    (zeroPage ttbr kptr phys).bind fun phys =>
      let vaLo := max page seg.vaddr
      let vaHi := min (page + pageSize4K) (seg.vaddr + seg.filesz)
      if vaLo < vaHi then
        let first := seg.offset + (vaLo - seg.vaddr)
        let last := seg.offset + (vaHi - seg.vaddr)
        if last ≤ bytes.length then
          copyToPage ttbr kptr (vaLo - page) ((bytes.drop first).take (last - first)) phys
        else none
      else some phys

/-- The loop over the pages of a segment. -/
def loadPages (ttbr : Ttbr) (root : PageNo) (bytes : List Byte) (seg : Segment) :
    Nat → Nat → Phys → Option Phys
  | 0, _, phys => some phys
  | count + 1, page, phys =>
    (loadPage ttbr root bytes seg page phys).bind
      (loadPages ttbr root bytes seg count (page + pageSize4K))

/-- The loop over the segments. -/
def loadSegments (ttbr : Ttbr) (root : PageNo) (bytes : List Byte) :
    List Segment → Phys → Option Phys
  | [], phys => some phys
  | seg :: rest, phys =>
    (loadPages ttbr root bytes seg ((pageHi seg - pageLo seg) / pageSize4K) (pageLo seg) phys).bind
      (loadSegments ttbr root bytes rest)

def mapStack (ttbr : Ttbr) (root : PageNo) : Nat → Nat → Phys → Option Phys
  | 0, _, phys => some phys
  | count + 1, page, phys =>
    (mapOrPanic ttbr root .rwUserData page phys).bind fun (_, phys) =>
      mapStack ttbr root count (page + pageSize4K) phys

/-- `LoadedElf`, without the image's buffer. -/
structure Loaded where
  root : PageNo
  entry : Nat
  userSp : Nat
  heapBase : Nat
  symtab : Option SymTable
  deriving DecidableEq

def loadElf (ttbr : Ttbr) (bytes : List Byte) (phys : Phys) : Option (Loaded × Phys) :=
  match Port.Elf.parse bytes with
  | .error _ => none
  | .ok image =>
    match placeSegments [] image.segments 0 with
    | none => none
    | some top =>
      if inSegment image.segments image.entry then
        (Aspace.new ttbr phys).bind fun (root, phys) =>
          (loadSegments ttbr root bytes image.segments phys).bind fun phys =>
            let stackBase := (top + pageSize4K - 1) / pageSize4K * pageSize4K
            (mapStack ttbr root stackPages stackBase phys).map fun phys =>
              (⟨root, image.entry, stackBase + stackPages * pageSize4K - 16,
                stackBase + stackPages * pageSize4K, image.symtab⟩, phys)
      else none

/-! ## The three ways to spawn -/

/-- The handles a new process is given. -/
structure Handles where
  inbound : BitVec 32
  outbound : BitVec 32
  nsInbound : BitVec 32
  nsOutbound : BitVec 32
  deriving DecidableEq

/-- The header `spawn_elf` writes to the handle page. -/
def Handles.header (handles : Handles) : List Byte :=
  let n := if handles.nsInbound ≠ 0 ∨ handles.nsOutbound ≠ 0 then 4 else 2
  let words := [n, handles.inbound.toNat, handles.outbound.toNat, handles.nsInbound.toNat,
    handles.nsOutbound.toNat]
  (words.take (n + 1)).flatMap (toLeBytes 4)

/-- The part of `try_install` that is about memory: a process whose heap is empty, if there is a
free slot. A bad heap base fails an assertion. -/
def tryInstall (root : PageNo) (heapBase : Nat) (slot : Bool) : Option (Option Space) :=
  if slot then
    if heapBase % pageSize4K = 0 ∧ heapBase < kzero then
      some (some ⟨root, heapBase, heapBase, heapBase⟩)
    else none
  else some none

/-- `install`: a full table is a panic. -/
def install (root : PageNo) (heapBase : Nat) (slot : Bool) : Option Space :=
  (tryInstall root heapBase slot).bind id

def spawnRaw (ttbr : Ttbr) (text : List Byte) (textVa stackVa : Nat) (slot : Bool) (phys : Phys) :
    Option (Space × Phys) :=
  (Aspace.new ttbr phys).bind fun (root, phys) =>
    (mapOrPanic ttbr root .roUserText textVa phys).bind fun (ktext, phys) =>
      (copyToPage ttbr ktext 0 text phys).bind fun phys =>
        (mapOrPanic ttbr root .rwUserData stackVa phys).bind fun (_, phys) =>
          (mapOrPanic ttbr root .rwUserData handlesVa phys).bind fun (userHandles, phys) =>
            (copyToPage ttbr userHandles 0 (toLeBytes 8 1 ++ toLeBytes 8 0) phys).bind fun phys =>
              (checkedAdd stackVa pageSize4K).bind fun heapBase =>
                (install root heapBase slot).map fun space => (space, phys)

def spawnElf (ttbr : Ttbr) (bytes : List Byte) (handles : Option Handles) (slot : Bool)
    (phys : Phys) : Option (Space × Phys) :=
  (loadElf ttbr bytes phys).bind fun (loaded, phys) =>
    (match handles with
      | none => some phys
      | some handles =>
        (mapOrPanic ttbr loaded.root .rwUserData handlesVa phys).bind fun (kptr, phys) =>
          copyToPage ttbr kptr 0 handles.header phys).bind fun phys =>
      (install loaded.root loaded.heapBase slot).map fun space => (space, phys)

/-- The `SPAWN_*` codes. -/
inductive SpawnError where
  | badIndex
  | noSlot
  | badState
  deriving DecidableEq

/-- The child-state of `sys_spawn`: a zero page without an address, and otherwise the spawner's
page, unless it cannot be read or names too many handles. -/
def readState (ttbr : Ttbr) (mem : Mem) (stateVa : Nat) : Option (Option (List Byte)) :=
  if stateVa = 0 then some (some (List.replicate pageSize4K 0))
  else match readUser ttbr mem stateVa pageSize4K with
    | none => none
    | some none => some none
    | some (some state) =>
      if Port.Elf.fromLeBytes (state.take 4) > spawnMaxHandles then some none else some (some state)

/-- The part of `sys_spawn` after its checks. -/
def spawnState (ttbr : Ttbr) (bytes state : List Byte) (slot : Bool) (phys : Phys) :
    Outcome SpawnError Space :=
  (loadElf ttbr bytes phys).bind fun (loaded, phys) =>
    (mapOrPanic ttbr loaded.root .rwUserData handlesVa phys).bind fun (kptr, phys) =>
      (copyToPage ttbr kptr 0 state phys).bind fun phys =>
        (tryInstall loaded.root loaded.heapBase slot).map fun installed =>
          match installed with
          | some space => (.ok space, phys)
          | none => (.error .noSlot, phys)

/-- `sys_spawn`, given the images of the registry. -/
def sysSpawn (ttbr : Ttbr) (registry : List (List Byte)) (index stateVa prio : Nat) (slot : Bool)
    (phys : Phys) : Outcome SpawnError Space :=
  match registry[index]? with
  | none => some (.error .badIndex, phys)
  | some bytes =>
    if prio ≤ 254 then
      match readState ttbr phys.mem stateVa with
      | none => none
      | some none => some (.error .badState, phys)
      | some (some state) => spawnState ttbr bytes state slot phys
    else some (.error .badState, phys)

end R9x.Aarch64.Spawn
