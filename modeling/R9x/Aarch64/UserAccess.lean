import R9x.Aarch64.Aspace
import R9x.Lib.Checked

/-!
# Access to user memory

`user_range_ok` of `aarch64/src/vm.rs` checks a user range by walking the tables of the live root in
software, and `read_user` and `write_user` of `aarch64/src/ipc.rs` copy from it and to it.
-/

namespace R9x.Aarch64

open Lib Aarch64.Vm
open BitVec (ofNat)

/-- A byte. -/
abbrev Byte := BitVec 8

/-! ## Bytes of a page -/

def byteAt (row : Index → Entry) (offset : Nat) : Byte :=
  (row (ofNat 9 (offset / 8))).extractLsb' (8 * (offset % 8)) 8

/-- Write a byte of a page. -/
def setByte (row : Index → Entry) (offset : Nat) (byte : Byte) : Index → Entry :=
  Function.update row (ofNat 9 (offset / 8))
    (Bits.setField (row (ofNat 9 (offset / 8))) (8 * (offset % 8)) byte)

/-- Write consecutive bytes of a page. -/
def setBytes (row : Index → Entry) : Nat → List Byte → Index → Entry
  | _, [] => row
  | offset, byte :: rest => setBytes (setByte row offset byte) (offset + 1) rest

/-! ## Access at EL0 -/

/-- The hardware walk of an address under a user root; an address of more than 48 bits faults. -/
def userWalk (mem : Mem) (root : PageNo) (va : VirtAddr) : Option (PageSize × Entry) :=
  if va.toNat < 2 ^ 48 then walk mem root va else none

lemma userWalk_some {mem : Mem} {root : PageNo} {va : VirtAddr} {found : PageSize × Entry}
    (walked : userWalk mem root va = some found) :
    va.toNat < 2 ^ 48 ∧ walk mem root va = some found := by
  rw [userWalk] at walked
  split at walked
  · rename_i canonical
    exact ⟨canonical, walked⟩
  · cases walked

/-- A store of a word at EL0 under a root; without write permission it faults. -/
def storeWord (root : PageNo) (va : VirtAddr) (word : Entry) (phys : Phys) : Option Phys :=
  match userWalk phys.mem root va with
  | some (size, entry) =>
    if entry.accessPermission = .allRw then
      some (phys.set (frame size entry va) ((va >>> 3).setWidth 9) word)
    else none
  | none => none

/-! ## Checking a range -/

/-- `user_leaf_entry` from a table on: the levels left above level 3. -/
def userLeafFrom (ttbr : Ttbr) (mem : Mem) (va : VirtAddr) :
    List Level → PageNo → Option (Option Entry)
  | [], table =>
    let entry := mem table (vaIndex va .level3)
    some (if entry.valid then some entry else none)
  | level :: levels, table =>
    let entry := mem table (vaIndex va level)
    if !entry.valid then some none
    else if !entry.isTable level then some (some entry)
    else (level.next.bind fun nextLevel => resolveEntryMut ttbr .user va nextLevel mem).bind
      (userLeafFrom ttbr mem va levels)

def userLeafEntry (ttbr : Ttbr) (mem : Mem) (va : VirtAddr) : Option (Option Entry) :=
  userLeafFrom ttbr mem va [.level0, .level1, .level2] ttbr.user

def entryUserOk (entry : Entry) (forWrite : Bool) : Bool :=
  match entry.accessPermission with
  | .allRw => true
  | .allRo => !forWrite
  | .privRw => false
  | .privRo => false

/-- The loop of `user_range_ok` over so many pages from an address on. -/
def pagesOk (ttbr : Ttbr) (mem : Mem) (forWrite : Bool) : Nat → VirtAddr → Option Bool
  | 0, _ => some true
  | count + 1, page =>
    match userLeafEntry ttbr mem page with
    | none => none
    | some (some entry) =>
      if entryUserOk entry forWrite then
        pagesOk ttbr mem forWrite count (page + ofNat 64 pageSize4K)
      else some false
    | some none => some false

def userRangeOk (ttbr : Ttbr) (mem : Mem) (va len : Nat) (forWrite : Bool) : Option Bool :=
  match checkedAdd va len with
  | none => some false
  | some last =>
    if last > kzero then some false
    else if len = 0 then some true
    else
      let page := va / pageSize4K * pageSize4K
      pagesOk ttbr mem forWrite ((last - page + pageSize4K - 1) / pageSize4K) (ofNat 64 page)

/-! ## Copying -/

/-- A byte of user memory, as the kernel reads it. -/
def loadByte (ttbr : Ttbr) (mem : Mem) (va : Nat) : Option Byte :=
  (userWalk mem ttbr.user (ofNat 64 va)).map fun found =>
    byteAt (mem (frame found.1 found.2 (ofNat 64 va))) (va % pageSize4K)

/-- `read_user` into a buffer as long as the range: the bytes, or nothing if the range is refused.
-/
def readUser (ttbr : Ttbr) (mem : Mem) (src len : Nat) : Option (Option (List Byte)) :=
  if len = 0 then some (some [])
  else match userRangeOk ttbr mem src len false with
    | none => none
    | some false => some none
    | some true => ((List.range len).mapM fun k => loadByte ttbr mem (src + k)).map some

/-- Write a byte of user memory, as the kernel writes it; without write permission it faults. -/
def storeByte (ttbr : Ttbr) (va : Nat) (byte : Byte) (phys : Phys) : Option Phys :=
  match userWalk phys.mem ttbr.user (ofNat 64 va) with
  | some (size, entry) =>
    if entry.accessPermission.kernelWritable then
      let page := frame size entry (ofNat 64 va)
      some { phys with
        mem := Function.update phys.mem page (setByte (phys.mem page) (va % pageSize4K) byte) }
    else none
  | none => none

/-- Write consecutive bytes of user memory. -/
def storeBytes (ttbr : Ttbr) : Nat → List Byte → Phys → Option Phys
  | _, [], phys => some phys
  | va, byte :: rest, phys => (storeByte ttbr va byte phys).bind (storeBytes ttbr (va + 1) rest)

/-- `write_user` of a buffer that is written whole: the number of bytes, or nothing if the range is
refused. -/
def writeUser (ttbr : Ttbr) (dst : Nat) (bytes : List Byte) (phys : Phys) :
    Option (Option Nat × Phys) :=
  if bytes.length = 0 then some (some 0, phys)
  else match userRangeOk ttbr phys.mem dst bytes.length true with
    | none => none
    | some false => some (none, phys)
    | some true => (storeBytes ttbr dst bytes phys).map fun phys => (some bytes.length, phys)

end R9x.Aarch64
