import R9x.Aarch64.Vm
import R9x.Lib.Checked
import R9x.Lib.Iter
import Mathlib.Data.Nat.Count

/-!
# The bitmap page allocator

`port/src/bitmapalloc.rs`: one bit for each page, set while the page is allocated.
-/

namespace R9x.Port

open Lib
open Aarch64.Vm (PhysAddr PhysRange PageAllocError)
open BitVec (ofNat)

def trailingOnes (byte : BitVec 8) : Nat :=
    ((List.range 8).takeWhile fun bit => byte.getLsbD bit).length

def countZeros (byte : BitVec 8) : Nat := Nat.count (fun bit => byte.getLsbD bit = false) 8

/-- `Bitmap`. -/
abbrev Bitmap (sizeBytes : Nat) := Fin sizeBytes → BitVec 8

namespace Bitmap

variable {sizeBytes : Nat}

def isSet (bitmap : Bitmap sizeBytes) (i : Nat) : Option Bool :=
  if inside : i / 8 < sizeBytes then some (decide (0 < bitmap ⟨i / 8, inside⟩ &&& 1#8 <<< (i % 8)))
  else none

def set (bitmap : Bitmap sizeBytes) (i : Nat) (b : Bool) : Option (Bitmap sizeBytes) :=
  if inside : i / 8 < sizeBytes then
    let byte := bitmap ⟨i / 8, inside⟩
    some (Function.update bitmap ⟨i / 8, inside⟩
      (if b then byte ||| 1#8 <<< (i % 8) else byte &&& ~~~(1#8 <<< (i % 8))))
  else none

end Bitmap

/-- The place of a page's bit. -/
structure ByteIndices where
  bitmap : Nat
  byte : Nat
  deriving DecidableEq

/-- What the closure of `indices_from` captures. -/
structure IndicesFrom where
  startBitmapIdx : Nat
  startByteIdx : Nat
  bitmapIdx : Nat
  byteIdx : Nat
  passedFirst : Bool
  currpa : PhysAddr
  deriving DecidableEq

/-- `BitmapPageAlloc`. -/
structure BitmapPageAlloc (numBitmaps bitmapSizeBytes : Nat) where
  bitmaps : Fin numBitmaps → Bitmap bitmapSizeBytes
  allocPageSize : Nat
  stop : PhysAddr
  nextPaToScan : PhysAddr

namespace BitmapPageAlloc

variable {numBitmaps bitmapSizeBytes : Nat}

def newAllAllocated (numBitmaps bitmapSizeBytes allocPageSize : Nat) :
    Option (BitmapPageAlloc numBitmaps bitmapSizeBytes) :=
  do
  let bytes ← checkedMul numBitmaps bitmapSizeBytes
  let bits ← checkedMul bytes 8
  let stop ← checkedMul bits allocPageSize
  return ⟨fun _ _ => 0xff, allocPageSize, ofNat 64 stop, 0⟩

def bytesPerBitmapByte (alloc : BitmapPageAlloc numBitmaps bitmapSizeBytes) : Option Nat :=
  checkedMul 8 alloc.allocPageSize

def bytesPerBitmap (alloc : BitmapPageAlloc numBitmaps bitmapSizeBytes) : Option Nat :=
  alloc.bytesPerBitmapByte.bind fun bytes => checkedMul bitmapSizeBytes bytes

def maxBytes (alloc : BitmapPageAlloc numBitmaps bitmapSizeBytes) : Option Nat :=
  alloc.bytesPerBitmap.bind fun bytes => checkedMul numBitmaps bytes

def physaddrAsIndices (alloc : BitmapPageAlloc numBitmaps bitmapSizeBytes) (pa : PhysAddr) :
    Option (Nat × Nat × Nat) :=
  if alloc.allocPageSize = 0 ∨ pa.toNat % alloc.allocPageSize ≠ 0 then none
  else
    alloc.bytesPerBitmap.bind fun bytesPerBitmap =>
      if bytesPerBitmap = 0 then none
      else
        let paOffsetIntoBitmap := pa.toNat % bytesPerBitmap
        alloc.bytesPerBitmapByte.map fun bytesPerBitmapByte =>
          let byteIdx := paOffsetIntoBitmap / bytesPerBitmapByte
          (pa.toNat / bytesPerBitmap, byteIdx,
            (paOffsetIntoBitmap - byteIdx * bytesPerBitmapByte) / alloc.allocPageSize)

def indicesAsPhysaddr (alloc : BitmapPageAlloc numBitmaps bitmapSizeBytes)
    (bitmapIdx byteIdx bitIdx : Nat) : Option PhysAddr :=
  do
  let bitmaps ← checkedMul bitmapIdx (← alloc.bytesPerBitmap)
  let bytes ← checkedMul byteIdx (← alloc.bytesPerBitmapByte)
  let bits ← checkedMul bitIdx alloc.allocPageSize
  let sum ← checkedAdd (← checkedAdd bitmaps bytes) bits
  return ofNat 64 sum

/-- Write one bitmap. -/
def withBitmap (alloc : BitmapPageAlloc numBitmaps bitmapSizeBytes) (bitmapIdx : Fin numBitmaps)
    (bitmap : Bitmap bitmapSizeBytes) : BitmapPageAlloc numBitmaps bitmapSizeBytes :=
  { alloc with bitmaps := Function.update alloc.bitmaps bitmapIdx bitmap }

/-- The loop of `mark_range`. -/
def markPages (markAllocated : Bool) : List PhysAddr → BitmapPageAlloc numBitmaps bitmapSizeBytes →
    Option (Except PageAllocError Unit × BitmapPageAlloc numBitmaps bitmapSizeBytes)
  | [], alloc => some (.ok (), alloc)
  | pa :: pas, alloc =>
    (alloc.physaddrAsIndices pa).bind fun (bitmapIdx, byteIdx, bitIdx) =>
      if inside : bitmapIdx < numBitmaps then
        ((alloc.bitmaps ⟨bitmapIdx, inside⟩).set (8 * byteIdx + bitIdx) markAllocated).bind
        fun bitmap =>
          markPages markAllocated pas (alloc.withBitmap ⟨bitmapIdx, inside⟩ bitmap)
      else some (.error .outOfBounds, alloc)

def markRange (alloc : BitmapPageAlloc numBitmaps bitmapSizeBytes) (range : PhysRange)
    (markAllocated checkEnd : Bool) :
    Option (Except PageAllocError Unit × BitmapPageAlloc numBitmaps bitmapSizeBytes) :=
  if checkEnd ∧ alloc.stop < range.stop then some (.error .outOfBounds, alloc)
  else if alloc.allocPageSize.isPowerOfTwo then
    (range.stepByRounded alloc.allocPageSize).bind fun pas => markPages markAllocated pas alloc
  else none

def markAllocated (alloc : BitmapPageAlloc numBitmaps bitmapSizeBytes) (range : PhysRange) :
    Option (Except PageAllocError Unit × BitmapPageAlloc numBitmaps bitmapSizeBytes) :=
  alloc.markRange range true true

def markFree (alloc : BitmapPageAlloc numBitmaps bitmapSizeBytes) (range : PhysRange) :
    Option (Except PageAllocError Unit × BitmapPageAlloc numBitmaps bitmapSizeBytes) :=
  alloc.markRange range false true

/-- The first part of `free_unused_ranges`: free the gap before each used range, and return where
the last gap starts. -/
def freeGaps : List PhysRange → PhysAddr → BitmapPageAlloc numBitmaps bitmapSizeBytes →
    Option (Except PageAllocError PhysAddr × BitmapPageAlloc numBitmaps bitmapSizeBytes)
  | [], nextStart, alloc => some (.ok nextStart, alloc)
  | range :: ranges, nextStart, alloc =>
    let marked := if nextStart < range.start then alloc.markFree ⟨nextStart, range.start⟩
      else some (.ok (), alloc)
    match marked with
    | none => none
    | some (.error err, alloc) => some (.error err, alloc)
    | some (.ok (), alloc) =>
      freeGaps ranges (if nextStart < range.stop then range.stop else nextStart) alloc

/-- The rest of `free_unused_ranges`: set the end of memory and mark everything past it as
allocated. -/
def closeAt (alloc : BitmapPageAlloc numBitmaps bitmapSizeBytes) (stop : PhysAddr) :
    Option (Except PageAllocError Unit × BitmapPageAlloc numBitmaps bitmapSizeBytes) :=
  let alloc := { alloc with stop := stop }
  alloc.maxBytes.bind fun maxBytes =>
    match alloc.markRange ⟨stop, ofNat 64 maxBytes⟩ true false with
    | none => none
    | some (.error err, alloc) => some (.error err, alloc)
    | some (.ok (), alloc) => some (.ok (), { alloc with nextPaToScan := 0 })

def freeUnusedRanges (alloc : BitmapPageAlloc numBitmaps bitmapSizeBytes) (availableMem : PhysRange)
    (usedRanges : List PhysRange) :
    Option (Except PageAllocError Unit × BitmapPageAlloc numBitmaps bitmapSizeBytes) :=
  match freeGaps usedRanges availableMem.start alloc with
  | none => none
  | some (.error err, alloc) => some (.error err, alloc)
  | some (.ok nextStart, alloc) =>
    let marked := if nextStart < availableMem.stop then alloc.markFree
      ⟨nextStart, availableMem.stop⟩
      else some (.ok (), alloc)
    match marked with
    | none => none
    | some (.error err, alloc) => some (.error err, alloc)
    | some (.ok (), alloc) => alloc.closeAt availableMem.stop

def byte (alloc : BitmapPageAlloc numBitmaps bitmapSizeBytes) (indices : ByteIndices) :
    Option (BitVec 8) :=
  if inside : indices.bitmap < numBitmaps ∧ indices.byte < bitmapSizeBytes then
    some (alloc.bitmaps ⟨indices.bitmap, inside.1⟩ ⟨indices.byte, inside.2⟩)
  else none

def indicesFrom (alloc : BitmapPageAlloc numBitmaps bitmapSizeBytes)
    (startBitmapIdx startByteIdx : Nat) :
    Option IndicesFrom :=
  (alloc.indicesAsPhysaddr startBitmapIdx startByteIdx 0).map fun currpa =>
    ⟨startBitmapIdx, startByteIdx, startBitmapIdx, startByteIdx, false, currpa⟩

/-- The part of a call that goes back to the start after the last byte. -/
def rewound (alloc : BitmapPageAlloc numBitmaps bitmapSizeBytes) (scan : IndicesFrom) :
    IndicesFrom :=
  if numBitmaps ≤ scan.bitmapIdx ∨ alloc.stop ≤ scan.currpa then
    { scan with bitmapIdx := 0, byteIdx := 0, currpa := 0 }
  else scan

/-- The part of a call that returns a byte and prepares for the next. -/
def advanced (alloc : BitmapPageAlloc numBitmaps bitmapSizeBytes) (scan : IndicesFrom) :
    Option (ByteIndices × IndicesFrom) :=
  let indices : ByteIndices := ⟨scan.bitmapIdx, scan.byteIdx⟩
  let byteIdx := scan.byteIdx + 1
  if bitmapSizeBytes ≤ byteIdx then
    (checkedAdd scan.currpa.toNat alloc.allocPageSize).map fun currpa =>
      (indices, { scan with bitmapIdx := scan.bitmapIdx + 1, byteIdx := 0, passedFirst := true,
                            currpa := ofNat 64 currpa })
  else some (indices, { scan with byteIdx := byteIdx, passedFirst := true })

/-- One call of the closure of `indices_from`. -/
def nextIndices (alloc : BitmapPageAlloc numBitmaps bitmapSizeBytes) (scan : IndicesFrom) :
    Option (Option (ByteIndices × IndicesFrom)) :=
  let scan := alloc.rewound scan
  if scan.passedFirst ∧ scan.bitmapIdx = scan.startBitmapIdx ∧ scan.byteIdx = scan.startByteIdx then
    some none
  else (alloc.advanced scan).map some

/-- The end of `allocate`: take the first free page of a byte. -/
def takeFrom (alloc : BitmapPageAlloc numBitmaps bitmapSizeBytes) (indices : ByteIndices) :
    Option (PhysAddr × BitmapPageAlloc numBitmaps bitmapSizeBytes) :=
  if inside : indices.bitmap < numBitmaps ∧ indices.byte < bitmapSizeBytes then
    let bitmap := alloc.bitmaps ⟨indices.bitmap, inside.1⟩
    let byte := bitmap ⟨indices.byte, inside.2⟩
    let numLeadingOnes := trailingOnes byte
    if numLeadingOnes < 8 then
      (alloc.indicesAsPhysaddr indices.bitmap indices.byte numLeadingOnes).map fun pa =>
        let marked := Function.update bitmap ⟨indices.byte, inside.2⟩
          (byte ||| 1#8 <<< numLeadingOnes)
        (pa, { alloc.withBitmap ⟨indices.bitmap, inside.1⟩ marked with nextPaToScan := pa })
    else none
  else none

def allocate (fuel : Nat) (alloc : BitmapPageAlloc numBitmaps bitmapSizeBytes) :
    Option (Except PageAllocError PhysAddr × BitmapPageAlloc numBitmaps bitmapSizeBytes) :=
  (alloc.physaddrAsIndices alloc.nextPaToScan).bind fun (firstBitmapIdx, firstByteIdx, _) =>
    (alloc.indicesFrom firstBitmapIdx firstByteIdx).bind fun scan =>
      let unfilled := fun indices => (alloc.byte indices).map fun byte => decide (byte ≠ 0xff)
      match findNext alloc.nextIndices unfilled fuel scan with
      | none => none
      | some none => some (.error .outOfSpace, alloc)
      | some (some indices) => (alloc.takeFrom indices).map fun (pa, alloc) => (.ok pa, alloc)

def deallocate (alloc : BitmapPageAlloc numBitmaps bitmapSizeBytes) (pa : PhysAddr) :
    Option (Except PageAllocError Unit × BitmapPageAlloc numBitmaps bitmapSizeBytes) :=
  if alloc.stop < pa then some (.error .outOfBounds, alloc)
  else
    (alloc.physaddrAsIndices pa).bind fun (bitmapIdx, byteIdx, bitIdx) =>
      if inside : bitmapIdx < numBitmaps then
        let bitmap := alloc.bitmaps ⟨bitmapIdx, inside⟩
        (bitmap.isSet (8 * byteIdx + bitIdx)).bind fun allocated =>
          if allocated then
            (bitmap.set bitIdx false).map fun bitmap =>
              (.ok (), { alloc.withBitmap ⟨bitmapIdx, inside⟩ bitmap with nextPaToScan := pa })
          else some (.error .notAllocated, alloc)
      else none

def usageBytes (fuel : Nat) (alloc : BitmapPageAlloc numBitmaps bitmapSizeBytes) :
    Option (Nat × Nat) :=
  (alloc.indicesFrom 0 0).bind fun scan =>
    let count := fun freeBytes indices => (alloc.byte indices).bind fun byte =>
      (checkedMul (countZeros byte) alloc.allocPageSize).bind fun bytes =>
      checkedAdd freeBytes bytes
    (foldNext alloc.nextIndices count fuel 0 scan).bind fun freeBytes =>
      let total := alloc.stop.toNat
      if freeBytes ≤ total then some (total - freeBytes, total) else none

end BitmapPageAlloc

end R9x.Port
