import R9x.Lib.Checked

/-!
# The ELF reader

`port/src/elf.rs`: an image is a list of bytes, and the fields of its headers are little-endian
numbers.
-/

namespace R9x.Port.Elf

open Lib

/-- A byte. -/
abbrev Byte := BitVec 8

/-- `Segment`. -/
structure Segment where
  vaddr : Nat
  offset : Nat
  filesz : Nat
  memsz : Nat
  exec : Bool
  deriving DecidableEq

/-- `SymTable`. -/
structure SymTable where
  offset : Nat
  nsyms : Nat
  strtabOffset : Nat
  deriving DecidableEq

/-- `Elf`: a parsed image; the list is `segments()`. -/
structure Image where
  entry : Nat
  segments : List Segment
  symtab : Option SymTable
  deriving DecidableEq

/-- `ElfError`. -/
inductive ElfError where
  | notElf
  | not64
  | wrongEndian
  | notExec
  | noLoadSegment
  | truncated
  | badSegment
  | tooManySegments
  deriving DecidableEq

/-- Why the reader returns no image. -/
inductive Stop where
  | refused (err : ElfError)
  | overflow
  deriving DecidableEq

def maxSegments : Nat := 16

def ehdrSize : Nat := 64

def phdrSize : Nat := 56

def shdrSize : Nat := 64

def symentSize : Nat := 24

/-- The number some bytes encode, the least significant byte first. -/
def fromLeBytes : List Byte → Nat
  | [] => 0
  | byte :: rest => byte.toNat + 256 * fromLeBytes rest

/-- The common body of the field readers: so many bytes at an offset. -/
def readLe (elf : List Byte) (off count : Nat) : Except Stop Nat :=
  if off + count ≤ elf.length then .ok (fromLeBytes ((elf.drop off).take count))
  else .error (.refused .truncated)

def readU16 (elf : List Byte) (off : Nat) : Except Stop Nat := readLe elf off 2

def readU32 (elf : List Byte) (off : Nat) : Except Stop Nat := readLe elf off 4

def readU64 (elf : List Byte) (off : Nat) : Except Stop Nat := readLe elf off 8

def okOr {α : Type} (err : ElfError) : Option α → Except Stop α
  | some value => .ok value
  | none => .error (.refused err)

/-- One round of the program-header loop: the segments found so far, and the next header. -/
def pushSegment (elf : List Byte) (phoff : Nat) (segments : List Segment) (i : Nat) :
    Except Stop (List Segment) :=
  do
  let base := phoff + i * phdrSize
  let pType ← readU32 elf base
  if pType ≠ 1 then
    return segments
  let pFlags ← readU32 elf (base + 4)
  let offset ← readU64 elf (base + 8)
  let vaddr ← readU64 elf (base + 16)
  let filesz ← readU64 elf (base + 32)
  let memsz ← readU64 elf (base + 40)
  if filesz > memsz then
    throw (.refused .badSegment)
  let segEnd ← okOr .badSegment (checkedAdd offset filesz)
  if segEnd > elf.length then
    throw (.refused .badSegment)
  if segments.length = maxSegments then
    throw (.refused .tooManySegments)
  return segments ++ [⟨vaddr, offset, filesz, memsz, pFlags % 2 = 1⟩]

/-- The section-header loop over the indices that are left: it ends at the first symbol table with
entries of the right size and a string table. -/
def findSymtab (elf : List Byte) (shoff shnum : Nat) : List Nat → Except Stop (Option SymTable)
  | [] => return none
  | i :: rest => do
    let base := shoff + i * shdrSize
    let shType ← readU32 elf (base + 4)
    if shType ≠ 2 then
      findSymtab elf shoff shnum rest
    else
      let shOffset ← readU64 elf (base + 24)
      let shSize ← readU64 elf (base + 32)
      let shLink ← readU32 elf (base + 40)
      let shEntsize ← readU64 elf (base + 56)
      if shEntsize ≠ symentSize ∨ shLink ≥ shnum then
        findSymtab elf shoff shnum rest
      else
        let nsyms := shSize / symentSize
        let strtabOffset ← readU64 elf (shoff + shLink * shdrSize + 24)
        match checkedAdd shOffset shSize with
        | none => throw .overflow
        | some last =>
          if last ≤ elf.length ∧ strtabOffset ≤ elf.length then
            return some ⟨shOffset, nsyms, strtabOffset⟩
          else
            return none

/-- The section headers: absent ones are no error. -/
def parseSymtab (elf : List Byte) : Except Stop (Option SymTable) :=
  do
  let shoff ← readU64 elf 40
  let shentsize ← readU16 elf 58
  let shnum ← readU16 elf 60
  if shnum > 0 ∧ shoff > 0 ∧ shentsize = shdrSize then
    let tableEnd ← okOr .truncated (checkedAdd shoff (shnum * shdrSize))
    if tableEnd ≤ elf.length then
      findSymtab elf shoff shnum (List.range shnum)
    else
      return none
  else
    return none

def parse (elf : List Byte) : Except Stop Image :=
  do
  if elf.length < 16 then
    throw (.refused .truncated)
  if elf.take 4 ≠ [0x7f, 0x45, 0x4c, 0x46] then
    throw (.refused .notElf)
  if elf.getD 4 0 ≠ 2 then
    throw (.refused .not64)
  if elf.getD 5 0 ≠ 1 then
    throw (.refused .wrongEndian)
  if elf.length < ehdrSize then
    throw (.refused .truncated)
  let eType ← readU16 elf 16
  if eType ≠ 2 then
    throw (.refused .notExec)
  let entry ← readU64 elf 24
  let phoff ← readU64 elf 32
  let phentsize ← readU16 elf 54
  let phnum ← readU16 elf 56
  if phnum > 0 then
    if phentsize ≠ phdrSize then
      throw (.refused .truncated)
    let tableEnd ← okOr .truncated (checkedAdd phoff (phnum * phdrSize))
    if tableEnd > elf.length then
      throw (.refused .truncated)
  let segments ← (List.range phnum).foldlM (pushSegment elf phoff) []
  if segments = [] then
    throw (.refused .noLoadSegment)
  let symtab ← parseSymtab elf
  return ⟨entry, segments, symtab⟩

end R9x.Port.Elf
