import R9x.Lib.Slots

/-!
# The bind table

`cmd/nameserver/src/bind_table.rs`: a row of entries, each with a name in a field of fixed length.
-/

namespace R9x.Cmd

open Lib

/-- A name: any bytes. -/
abbrev Name := List UInt8

/-- `Pair`: the inbound and the outbound channel of a server. -/
structure Pair where
  inH : UInt32
  outH : UInt32
  deriving DecidableEq

def rOk : UInt16 := 0

def rEnoent : UInt16 := 1

def rEfull : UInt16 := 2

def nameMax : Nat := 32

def nent : Nat := 8

/-- `Entry`. Only `bind` writes the length of a name, and no more than the field has. -/
structure Entry where
  name : Name
  namelen : UInt8
  pair : Pair
  used : Bool
  field : name.length = nameMax
  within : namelen.toNat ≤ nameMax
  deriving DecidableEq

namespace Entry

def empty : Entry where
  name :=
  List.replicate nameMax 0
  namelen := 0
  pair := ⟨0, 0⟩
  used := false
  field := List.length_replicate
  within := by decide

/-- The comparison of `bind`, for a name of at most `NAME_MAX` bytes, and `Entry::matches`: a name
as long as the entry's is inside the field. -/
def hasName (entry : Entry) (name : Name) : Bool :=
  entry.used && entry.namelen.toNat = name.length && entry.name.take name.length = name

/-- The loop body of `bind` for an entry of the name. -/
def setPair (pair : Pair) (entry : Entry) : Entry := { entry with pair }

/-- The loop body of `bind` for a free entry: the bytes of the field behind the name stay. -/
def take (name : Name) (short : name.length ≤ nameMax) (pair : Pair) (entry : Entry) : Entry where
  name :=
  name ++ entry.name.drop name.length
  namelen := UInt8.ofNat name.length
  pair := pair
  used := true
  field := by
    have field := entry.field
    rw [List.length_append, List.length_drop]
    omega
  within := by
    rw [UInt8.toNat_ofNat', nameMax] at *
    omega

/-- The loop body of `unbind`. -/
def clear (entry : Entry) : Entry := { entry with used := false }

end Entry

/-- `BindTable`. -/
structure BindTable where
  entries : List Entry
  size : entries.length = nent

namespace BindTable

def new : BindTable := ⟨List.replicate nent .empty, List.length_replicate⟩

/-- A loop that changes the first entry that passes a test. -/
def change (table : BindTable) (test : Entry → Bool) (body : Entry → Entry) : Option BindTable :=
  match found : updateFirst test body table.entries with
  | some entries => some ⟨entries, (updateFirst_length found).trans table.size⟩
  | none => none

def bind (table : BindTable) (name : Name) (pair : Pair) : UInt16 × BindTable :=
  let cut := name.take nameMax
  match table.change (fun entry => entry.hasName cut) (Entry.setPair pair) with
  | some table => (rOk, table)
  | none =>
    match table.change (fun entry => !entry.used)
      (Entry.take cut (List.length_take_le _ _) pair) with
    | some table => (rOk, table)
    | none => (rEfull, table)

def resolve (table : BindTable) (name : Name) : Option Pair :=
  (table.entries.find? fun entry => entry.hasName name).map Entry.pair

def unbind (table : BindTable) (name : Name) : UInt16 × BindTable :=
  match table.change (fun entry => entry.hasName name) Entry.clear with
  | some table => (rOk, table)
  | none => (rEnoent, table)

end BindTable

end R9x.Cmd
