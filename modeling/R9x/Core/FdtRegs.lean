import R9x.Core.Fdt

/-!
# Registers and ranges of the device tree

The rest of `core/src/fdt.rs`: the iterators over the cells of a property, the register blocks of a
node, the ranges of a bus, and the register blocks translated through the ranges of all buses above
them.
-/

namespace R9x.Core.Fdt

open Lib

/-- `RegBlock`. -/
structure RegBlock where
  addr : Nat
  len : Option Nat
  deriving DecidableEq

/-- `TranslatedReg`. -/
inductive TranslatedReg where
  | translated (regblock : RegBlock)
  | unreachable
  deriving DecidableEq

/-- `RangeMapping`. -/
structure RangeMapping where
  childBusAddr : Nat
  parentBusAddr : Nat
  len : Nat
  deriving DecidableEq

/-- `Range`. -/
inductive Range where
  | identity
  | translated (map : RangeMapping)
  deriving DecidableEq

def Range.translate (range : Range) (reg : RegBlock) : Option (Option RegBlock) :=
  match range with
  | .identity => some (some reg)
  | .translated map =>
    if map.childBusAddr ≤ reg.addr then do
      let stop ← checkedAdd map.childBusAddr map.len
      if reg.addr < stop then
        let addr ← checkedAdd (reg.addr - map.childBusAddr) map.parentBusAddr
        return some ⟨addr, reg.len⟩
      else return none
    else some none

/-! ## Cells -/

def DeviceTree.propertyValueAsU32 (dt : DeviceTree) (prop : Property) : Option (Option Nat) :=
  do
  let valueEnd ← checkedAdd prop.valueStart prop.valueLen
  let structs ← dt.structs
  return (getRange structs prop.valueStart valueEnd).bind bytesToU32

/-- The iterator of `property_value_as_u32_iter`. -/
structure U32Iter where
  valueI : Nat
  valueEnd : Nat

def DeviceTree.propertyValueAsU32Iter (_dt : DeviceTree) (prop : Property) : Option U32Iter :=
  do
  let valueEnd ← checkedAdd prop.valueStart prop.valueLen
  return ⟨prop.valueStart, valueEnd⟩

def U32Iter.next (dt : DeviceTree) (iter : U32Iter) : Option (Option (Nat × U32Iter)) :=
  do
  let remaining ← checkedSub iter.valueEnd iter.valueI
  if remaining < 4 then return none
  let stop ← checkedAdd iter.valueI 4
  let structs ← dt.structs
  return ((getRange structs iter.valueI stop).bind bytesToU32).map fun cell =>
    (cell, { iter with valueI := stop })

/-- One of the two values of `node_address_size_cells`. -/
def DeviceTree.nodeCells (dt : DeviceTree) (node : Option Node) (propName : String)
    (default : Nat) :
    Option Nat :=
  match node with
  | none => some default
  | some node => do
    match ← dt.property node propName with
    | none => return default
    | some prop =>
      let cells ← dt.propertyValueAsU32 prop
      return cells.getD default

def DeviceTree.nodeAddressSizeCells (dt : DeviceTree) (node : Option Node) : Option (Nat × Nat) :=
    do
  let addressCells ← dt.nodeCells node "#address-cells" 2
  let sizeCells ← dt.nodeCells node "#size-cells" 1
  return (addressCells, sizeCells)

def DeviceTree.consumeCells (dt : DeviceTree) (valueI numCells : Nat) : Option (Option Nat) :=
  do
  let stop ← (checkedMul numCells 4).bind (checkedAdd valueI)
  let structs ← dt.structs
  return (getRange structs valueI stop).bind (if numCells = 1 then bytesToU32 else bytesToU64)

/-- The start and the end of the value of a property, both 0 if there is none. -/
def DeviceTree.valueBounds (dt : DeviceTree) (node : Node) (propName : String) :
    Option (Nat × Nat) :=
  do
  let prop ← dt.property node propName
  let (valueStart, valueLen) := prop.elim (0, 0) fun prop => (prop.valueStart, prop.valueLen)
  let valueEnd ← checkedAdd valueStart valueLen
  return (valueStart, valueEnd)

/-! ## Register blocks -/

/-- The iterator of `property_reg_iter`. -/
structure RegIter where
  addressCells : Nat
  sizeCells : Nat
  valueI : Nat
  valueEnd : Nat

def DeviceTree.propertyRegIter (dt : DeviceTree) (node : Node) : Option RegIter :=
  do
  let parent ← dt.parent node
  let (addressCells, sizeCells) ← dt.nodeAddressSizeCells parent
  let (valueI, valueEnd) ← dt.valueBounds node "reg"
  return ⟨addressCells, sizeCells, valueI, valueEnd⟩

/-- The next register block. -/
def RegIter.next (dt : DeviceTree) (iter : RegIter) : Option (Option (RegBlock × RegIter)) :=
  if iter.addressCells = 0 ∨ iter.addressCells > 2 ∨ iter.sizeCells > 2 then some none
  else do
    let addressSize ← checkedMul iter.addressCells 4
    let lenSize ← checkedMul iter.sizeCells 4
    let remaining ← checkedSub iter.valueEnd iter.valueI
    let needed ← checkedAdd addressSize lenSize
    if needed > remaining then return none
    match ← dt.consumeCells iter.valueI iter.addressCells with
    | none => return none
    | some addr =>
      let lenI ← checkedAdd iter.valueI addressSize
      let len ← if iter.sizeCells > 0 then dt.consumeCells lenI iter.sizeCells else some none
      let valueI ← checkedAdd lenI lenSize
      return some (⟨addr, len⟩, { iter with valueI := valueI })

/-! ## Ranges -/

/-- The iterator of `property_range_iter`. -/
structure RangeIter where
  parentAddressCells : Nat
  addressCells : Nat
  sizeCells : Nat
  isIdentity : Bool
  identityReturned : Bool
  valueI : Nat
  valueEnd : Nat

def DeviceTree.propertyRangeIter (dt : DeviceTree) (node : Node) : Option RangeIter :=
  do
  let parent ← dt.parent node
  let (parentAddressCells, _) ← dt.nodeAddressSizeCells parent
  let (addressCells, sizeCells) ← dt.nodeAddressSizeCells (some node)
  let (valueI, valueEnd) ← dt.valueBounds node "ranges"
  return ⟨parentAddressCells, addressCells, sizeCells, decide (valueI = valueEnd), false,
    valueI, valueEnd⟩

def RangeIter.next (dt : DeviceTree) (iter : RangeIter) : Option (Option (Range × RangeIter)) :=
  if iter.isIdentity then
    if iter.identityReturned then some none
    else some (some (.identity, { iter with identityReturned := true }))
  else if iter.addressCells = 0 ∨ iter.sizeCells = 0 ∨ iter.addressCells > 2 ∨
    iter.sizeCells > 2 then some none
  else if iter.parentAddressCells = 0 ∨ iter.parentAddressCells > 2 then some none
  else do
    let addressSize ← checkedMul iter.addressCells 4
    let parentAddressSize ← checkedMul iter.parentAddressCells 4
    let lenSize ← checkedMul iter.sizeCells 4
    let remaining ← checkedSub iter.valueEnd iter.valueI
    let needed ← (checkedAdd addressSize parentAddressSize).bind fun both => checkedAdd both lenSize
    if needed > remaining then return none
    match ← dt.consumeCells iter.valueI iter.addressCells with
    | none => return none
    | some childBusAddr =>
      let parentI ← checkedAdd iter.valueI addressSize
      match ← dt.consumeCells parentI iter.parentAddressCells with
      | none => return none
      | some parentBusAddr =>
        let lenI ← checkedAdd parentI parentAddressSize
        match ← dt.consumeCells lenI iter.sizeCells with
        | none => return none
        | some len =>
          let valueI ← checkedAdd lenI lenSize
          return some (.translated ⟨childBusAddr, parentBusAddr, len⟩,
            { iter with valueI := valueI })

/-! ## Translated register blocks -/

/-- The iterator of `property_translated_reg_iter`. -/
structure TranslatedIter where
  node : Node
  regIter : RegIter
  currReg : Option RegBlock

/-- The `next` of an iterator that is kept in a variable, which a call at the end leaves as it is.
-/
def RegIter.take (dt : DeviceTree) (iter : RegIter) : Option (Option RegBlock × RegIter) :=
  do
  match ← iter.next dt with
  | none => return (none, iter)
  | some (reg, rest) => return (some reg, rest)

def DeviceTree.propertyTranslatedRegIter (dt : DeviceTree) (node : Node) : Option TranslatedIter :=
    do
  let iter ← dt.propertyRegIter node
  let (currReg, regIter) ← iter.take dt
  return ⟨node, regIter, currReg⟩

/-- The walk from a node to the root that translates a block by the ranges of each bus. -/
def DeviceTree.translateUp (dt : DeviceTree) : Nat → RegBlock → Option Node →
    Option (Option TranslatedReg)
  | 0, _, _ => none
  | _ + 1, _, none => some none
  | fuel + 1, reg, some parent =>
    if parent.isRoot then some (some (.translated reg))
    else do
      let iter ← dt.propertyRangeIter parent
      match ← firstNext (RangeIter.next dt) (fun range => range.translate reg) dt.rounds iter with
      | none => return some .unreachable
      | some reg => dt.translateUp fuel reg (← dt.parent parent)

/-- The next translated register block. -/
def TranslatedIter.next (dt : DeviceTree) (iter : TranslatedIter) :
    Option (Option (TranslatedReg × TranslatedIter)) :=
  match iter.currReg with
  | none => some none
  | some reg => do
    let (currReg, regIter) ← iter.regIter.take dt
    match ← dt.translateUp dt.rounds reg (← dt.parent iter.node) with
    | none => return none
    | some translated => return some (translated, ⟨iter.node, regIter, currReg⟩)

end R9x.Core.Fdt
