import R9x.Lib.ByteMem
import R9x.Lib.Checked
import Mathlib.Logic.Function.Basic

/-!
# The QuickFit allocator

`port/src/allocator.rs`: a bump allocator over an arena, nine lists of free blocks of a power of two
bytes, a list of other free blocks, and a hash table of the headers of those that are in use.
-/

namespace R9x.Port.Allocator

open Lib
open Function (update)

/-- `core::alloc::Layout`: the alignment is a power of two, and the size rounded up to it is at most
the largest `isize`. -/
structure Layout where
  size : Nat
  align : Nat
  power : align.isPowerOfTwo
  fits : size + align ≤ 2 ^ 63
  deriving DecidableEq

def Layout.fromSizeAlign (size align : Nat) : Option Layout :=
  if valid : align.isPowerOfTwo ∧ size + align ≤ 2 ^ 63 then some ⟨size, align, valid.1, valid.2⟩
    else none

/-- `pointer::align_offset` for a pointer to bytes; it panics if the alignment is no power of two.
-/
def alignOffset (ptr align : Nat) : Option Nat :=
  if align.isPowerOfTwo then some ((align - ptr % align) % align) else none

def wrappingAdd (ptr offset : Nat) : Nat := (ptr + offset) % 2 ^ 64

def nextPowerOfTwo (value : Nat) : Nat := if value ≤ 1 then 1 else 2 ^ ((value - 1).log2 + 1)

/-- `allocator.rs` `Block`. -/
structure Block where
  ptr : Nat
  len : Nat
  deriving DecidableEq

def allocUnitShift : Nat := 6

def minAllocSize : Nat := 2 ^ allocUnitShift

def maxQuickSize : Nat := 2 ^ 14

def numQlists : Nat := 14 - allocUnitShift + 1

def numHashBuckets : Nat := 31

/-- The header of a free block. -/
structure Header where
  next : Nat
  addr : Nat
  size : Nat
  align : Nat

/-- The layout of a `Header`, which is aligned to 64 bytes. -/
def headerLayout : Layout := ⟨64, 64, ⟨6, rfl⟩, by decide⟩

def readHeader (mem : ByteMem) (addr : Nat) : Header :=
  ⟨readLe mem addr 8, readLe mem (addr + 8) 8, readLe mem (addr + 16) 8, readLe mem (addr + 24) 8⟩

/-- Write the `next` field of the header at an address. -/
def writeNext (mem : ByteMem) (addr next : Nat) : ByteMem := writeLe mem addr 8 next

/-- `ptr::write` of a header; its padding keeps what it had. -/
def writeHeader (mem : ByteMem) (addr : Nat) (header : Header) : ByteMem :=
  writeLe (writeLe (writeLe (writeLe mem addr 8 header.next) (addr + 8) 8 header.addr) (addr + 16) 8
    header.size) (addr + 24) 8 header.align

/-- `BumpAlloc` and `QuickFit`, with the memory they manage. -/
structure QuickFit where
  base : Nat
  len : Nat
  cursor : Nat
  qlists : Fin numQlists → Nat
  misc : Nat
  allocatedMisc : Fin numHashBuckets → Nat
  mem : ByteMem

/-- `unlink`. It returns the node and the list head. -/
def unlink (predicate : Header → Bool) :
    Nat → (previous list : Nat) → ByteMem → Option ((Nat × Nat) × ByteMem)
  | 0, _, _, _ => none
  | fuel + 1, previous, list, mem =>
    if list = 0 then some ((0, list), mem)
    else
      let node := readHeader mem list
      if predicate node then
        let mem := writeNext mem list 0
        if previous = 0 then some ((list, node.next), mem)
        else some ((list, list), writeNext mem previous node.next)
      else unlink predicate fuel list node.next mem

def hash (ptr : Nat) : Fin numHashBuckets :=
  let k := BitVec.ofNat 64 ptr
  let k := k ^^^ k >>> 33
  let k := k * 0xff51afd7ed558ccd
  let k := k ^^^ k >>> 33
  let k := k * 0xc4ceb9fe1a85ec53
  ⟨(k >>> 33).toNat % numHashBuckets, Nat.mod_lt _ (by decide)⟩

def adjust (layout : Layout) : Nat × Nat :=
  if maxQuickSize < layout.size then (layout.size, layout.align)
  else
    let size := max minAllocSize (nextPowerOfTwo layout.size)
    (size, max layout.align size)

namespace QuickFit

/-- `QuickFit::new` over `BumpAlloc::new`. -/
def new (arena : Block) (mem : ByteMem) : QuickFit :=
  ⟨arena.ptr, arena.len, 0, fun _ => 0, 0, fun _ => 0, mem⟩

def tryAlloc (self : QuickFit) (align size : Nat) : Option (Option (Block × Block) × QuickFit) :=
  let first := wrappingAdd self.base self.cursor
  (alignOffset first align).bind fun adjust =>
    (checkedAdd self.cursor adjust).bind fun offset =>
      (checkedAdd offset size).map fun next =>
        if next ≤ self.len then
          (some (⟨first, adjust⟩, ⟨wrappingAdd first adjust, size⟩), { self with cursor := next })
        else (none, self)

/-- `BumpAlloc::allocate`, which gives `try_alloc` the size and the alignment in this order. -/
def allocate (self : QuickFit) (layout : Layout) : Option (Option Block × QuickFit) :=
  (self.tryAlloc layout.size layout.align).map fun (result, self) => (result.map Prod.snd, self)

/-- The branch of `free` for blocks of a quick list. -/
def freeQuick (self : QuickFit) (block size align : Nat) : Option QuickFit :=
  let k := size.log2 - allocUnitShift
  if inside : k < numQlists then
    if alignOffset block headerLayout.align = some 0 then
      some { self with
        mem := writeHeader self.mem block ⟨self.qlists ⟨k, inside⟩, block, size, align⟩,
        qlists := update self.qlists ⟨k, inside⟩ block }
    else none
  else none

/-- The call of `free` in `try_free_prefix`. The size is that of a quick list, so `free` takes the
branch for quick lists. -/
def freeSized (self : QuickFit) (block size : Nat) : Option QuickFit :=
  if block = 0 then some self else self.freeQuick block size size

/-- The loop of `try_free_prefix` over the sizes of the quick lists. -/
def tryFreePrefixOf (self : QuickFit) (front : Block) : List Nat → Option (Option Block × QuickFit)
  | [] => some (none, self)
  | k :: ks =>
    let size := 2 ^ (k + allocUnitShift)
    if size ≤ front.len ∧ alignOffset front.ptr size = some 0 then
      (self.freeSized front.ptr size).map fun self =>
        let rest : Block := ⟨wrappingAdd front.ptr size, front.len - size⟩
        (if minAllocSize ≤ rest.len then some rest else none, self)
    else self.tryFreePrefixOf front ks

def tryFreePrefix (self : QuickFit) (front : Block) : Option (Option Block × QuickFit) :=
  self.tryFreePrefixOf front (List.range numQlists).reverse

def alignPrefix (front : Block) : Option Block :=
  (alignOffset front.ptr minAllocSize).bind fun offset =>
    if offset ≤ front.len then some ⟨wrappingAdd front.ptr offset, front.len - offset⟩ else none

/-- The loop of `free_prefix`. -/
def freePrefixFrom : Nat → QuickFit → Block → Option QuickFit
  | 0, _, _ => none
  | fuel + 1, self, front =>
    match self.tryFreePrefix front with
    | none => none
    | some (none, self) => some self
    | some (some rest, self) => freePrefixFrom fuel self rest

def freePrefix (fuel : Nat) (self : QuickFit) (front : Block) : Option QuickFit :=
  (alignPrefix front).bind fun front => freePrefixFrom fuel self front

def allocTail (fuel : Nat) (self : QuickFit) (size align : Nat) : Option (Option Nat × QuickFit) :=
  match self.tryAlloc size align with
  | none => none
  | some (none, self) => some (none, self)
  | some (some (front, block), self) => (self.freePrefix fuel front).map fun self =>
      (some block.ptr, self)

def allocMisc (fuel : Nat) (self : QuickFit) (size align : Nat) : Option (Option Nat × QuickFit) :=
  (unlink (fun node => size ≤ node.size ∧ align ≤ node.align) fuel 0 self.misc self.mem).map
    fun ((node, list), mem) =>
      let self := { self with misc := list, mem := mem }
      if node = 0 then (none, self)
      else
        let addr := (readHeader mem node).addr
        let k := hash addr
        (some addr, { self with
          mem := writeNext mem node (self.allocatedMisc k),
          allocatedMisc := update self.allocatedMisc k node })

def allocQuick (fuel : Nat) (self : QuickFit) (size align : Nat) : Option (Option Nat × QuickFit) :=
  if size ≤ maxQuickSize ∧ align = size then
    let k := size.log2 - allocUnitShift
    if inside : k < numQlists then
      (unlink (fun _ => true) fuel 0 (self.qlists ⟨k, inside⟩) self.mem).map
      fun ((node, list), mem) =>
        (if node = 0 then none else some (readHeader mem node).addr,
          { self with qlists := update self.qlists ⟨k, inside⟩ list, mem := mem })
    else none
  else self.allocMisc fuel size align

def malloc (fuel : Nat) (self : QuickFit) (layout : Layout) : Option (Nat × QuickFit) :=
  let (size, align) := adjust layout
  match self.allocQuick fuel size align with
  | none => none
  | some (some p, self) => some (p, self)
  | some (none, self) => (self.allocTail fuel size align).map fun (p, self) => (p.getD 0, self)

def unlinkAllocatedMisc (fuel : Nat) (self : QuickFit) (block : Nat) : Option (Nat × QuickFit) :=
  let k := hash block
  (unlink (fun node => node.addr = block) fuel 0 (self.allocatedMisc k) self.mem).map
    fun ((node, list), mem) =>
      (node, { self with allocatedMisc := update self.allocatedMisc k list, mem := mem })

/-- The closure of `free_misc` that makes a header. It panics if `malloc` returns one. -/
def newMiscHeader (fuel : Nat) (self : QuickFit) (block size : Nat) : Option (Nat × QuickFit) :=
  match self.malloc fuel headerLayout with
  | none => none
  | some (hblock, self) =>
    if hblock = 0 then
      (alignOffset block minAllocSize).bind fun offset =>
        let hblock := wrappingAdd block offset
        let next := wrappingAdd hblock minAllocSize
        if offset + minAllocSize ≤ size then
          some (hblock, { self with
            mem := writeHeader self.mem hblock ⟨0, next, size - (offset + minAllocSize),
              minAllocSize⟩ })
        else none
    else none

def freeMisc (fuel : Nat) (self : QuickFit) (block size : Nat) : Option QuickFit :=
  (self.unlinkAllocatedMisc fuel block).bind fun (header, self) =>
    (if header = 0 then self.newMiscHeader fuel block size else some (header, self)).bind
      fun (header, self) =>
        if header = 0 then none
        else some { self with mem := writeNext self.mem header self.misc, misc := header }

def free (fuel : Nat) (self : QuickFit) (block : Nat) (layout : Layout) : Option QuickFit :=
  if block = 0 then some self
  else
    let (size, align) := adjust layout
    if size ≤ maxQuickSize ∧ align = size then self.freeQuick block size align
    else self.freeMisc fuel block size

def realloc (fuel : Nat) (self : QuickFit) (block : Nat) (layout : Layout) (newSize : Nat) :
    Option (Nat × QuickFit) :=
  if block = 0 then self.malloc fuel layout
  else
    (Layout.fromSizeAlign newSize layout.align).bind fun newLayout =>
      if adjust newLayout = (layout.size, layout.align) then some (block, self)
      else
        (self.malloc fuel newLayout).bind fun (np, self) =>
          if np = 0 then some (np, self)
          else
            let self := { self with mem := copyBytes self.mem block np (min layout.size newSize) }
            (self.free fuel block layout).map fun self => (np, self)

end QuickFit

end R9x.Port.Allocator
