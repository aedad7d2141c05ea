import R9x.Lib.Checked
import R9x.Lib.Iter

/-!
# The flattened device tree reader

`core/src/fdt.rs`: the header, the token parser, and the functions that find nodes and properties by
scanning the tokens of the structure block.
-/

namespace R9x.Core.Fdt

open Lib

/-- `ParseError`. -/
inductive ParseError where
  | invalidHeader
  | invalidMagic
  | bufferTooSmall
  | invalidToken
  deriving DecidableEq

/-! ## Bytes -/

/-- `bytes.get(start..)`. -/
def getFrom (bytes : List UInt8) (start : Nat) : Option (List UInt8) :=
  if start ≤ bytes.length then some (bytes.drop start) else none

/-- `bytes.get(start..stop)`. -/
def getRange (bytes : List UInt8) (start stop : Nat) : Option (List UInt8) :=
  if start ≤ stop ∧ stop ≤ bytes.length then some ((bytes.drop start).take (stop - start)) else none

def fromBeBytes (bytes : List UInt8) : Nat :=
    bytes.foldl (fun value byte => 256 * value + byte.toNat) 0

/-- `bytes_to_u32`, and also `bytes_to_u32_as_u64`. -/
def bytesToU32 (bytes : List UInt8) : Option Nat := (getRange bytes 0 4).map fromBeBytes

def bytesToU32Offset (bytes : List UInt8) (offset : Nat) : Option Nat :=
  (getRange bytes offset (offset + 4)).map fromBeBytes

def bytesToU64 (bytes : List UInt8) : Option Nat := (getRange bytes 0 8).map fromBeBytes

def align4 (n : Nat) : Option Nat := checkedAdd n ((2 ^ 64 - n) % 2 ^ 64 &&& 3)

/-- `inline_str`: the text up to the next NUL, if there is one and the text is UTF-8. -/
def inlineStr (bytes : List UInt8) (start : Nat) : Option String :=
  do
  let bytes ← getFrom bytes start
  let size ← bytes.idxOf? 0
  String.fromUTF8? ⟨(bytes.take size).toArray⟩

/-! ## The header -/

/-- `FdtHeader`, in host order. -/
structure FdtHeader where
  magic : Nat
  totalsize : Nat
  offDtStruct : Nat
  offDtStrings : Nat
  offMemRsvmap : Nat
  version : Nat
  lastCompVersion : Nat
  bootCpuidPhys : Nat
  sizeDtStrings : Nat
  sizeDtStruct : Nat
  deriving DecidableEq

def FdtHeader.newHeader (data : List UInt8) : Option FdtHeader :=
  do
  let magic ← bytesToU32Offset data 0
  let totalsize ← bytesToU32Offset data 4
  let offDtStruct ← bytesToU32Offset data 8
  let offDtStrings ← bytesToU32Offset data 12
  let offMemRsvmap ← bytesToU32Offset data 16
  let version ← bytesToU32Offset data 20
  let lastCompVersion ← bytesToU32Offset data 24
  let bootCpuidPhys ← bytesToU32Offset data 28
  let sizeDtStrings ← bytesToU32Offset data 32
  let sizeDtStruct ← bytesToU32Offset data 36
  return ⟨magic, totalsize, offDtStruct, offDtStrings, offMemRsvmap, version, lastCompVersion,
    bootCpuidPhys,
    sizeDtStrings, sizeDtStruct⟩

def FdtHeader.new (data : List UInt8) (ignoreSize : Bool) : Except ParseError FdtHeader :=
  match newHeader data with
  | none => .error .invalidHeader
  | some header =>
    if header.magic = 0xd00dfeed then
      if data.length % 2 ^ 32 = header.totalsize ∨ ignoreSize = true then .ok header
      else .error .bufferTooSmall
    else .error .invalidMagic

/-- `DeviceTree`. -/
structure DeviceTree where
  data : List UInt8
  header : FdtHeader
  deriving DecidableEq

def DeviceTree.new (data : List UInt8) : Except ParseError DeviceTree :=
  (FdtHeader.new data false).map fun header => ⟨data, header⟩

/-- `structs`: the structure block. -/
def DeviceTree.structs (dt : DeviceTree) : Option (List UInt8) :=
  (checkedAdd dt.header.offDtStruct dt.header.sizeDtStruct).bind
  (getRange dt.data dt.header.offDtStruct)

/-- `strings`: the strings block. -/
def DeviceTree.strings (dt : DeviceTree) : Option (List UInt8) :=
  (checkedAdd dt.header.offDtStrings dt.header.sizeDtStrings).bind
  (getRange dt.data dt.header.offDtStrings)

/-- More rounds than a loop over the structure block can take. -/
def DeviceTree.rounds (dt : DeviceTree) : Nat := dt.header.sizeDtStruct + 1

/-! ## Tokens -/

/-- `FdtBeginNodeContext`. -/
structure FdtBeginNodeContext where
  start : Nat
  totalLen : Nat
  nameStart : Nat
  deriving DecidableEq

/-- `FdtPropContext`. -/
structure FdtPropContext where
  start : Nat
  totalLen : Nat
  nameStart : Nat
  valueStart : Nat
  valueLen : Nat
  deriving DecidableEq

/-- `FdtTokenContext`. -/
structure FdtTokenContext where
  start : Nat
  totalLen : Nat
  deriving DecidableEq

/-- `FdtToken`. -/
inductive FdtToken where
  | beginNode (ctx : FdtBeginNodeContext)
  | endNode (ctx : FdtTokenContext)
  | prop (ctx : FdtPropContext)
  | nop (ctx : FdtTokenContext)
  | fdtEnd (ctx : FdtTokenContext)
  deriving DecidableEq

def FdtToken.start : FdtToken → Nat
  | .beginNode ctx => ctx.start
  | .prop ctx => ctx.start
  | .endNode ctx | .nop ctx | .fdtEnd ctx => ctx.start

/-- The number of bytes of a token. -/
def FdtToken.totalLen : FdtToken → Nat
  | .beginNode ctx => ctx.totalLen
  | .prop ctx => ctx.totalLen
  | .endNode ctx | .nop ctx | .fdtEnd ctx => ctx.totalLen

def parseToken (structs : List UInt8) (i : Nat) : Option (Option FdtToken) :=
  match (getFrom structs i).bind bytesToU32 with
  | some 1 => do
    let nameStart ← checkedAdd i 4
    let strSize ← match (getFrom structs nameStart).bind fun bytes => bytes.idxOf? 0 with
      | some size => (checkedAdd size 1).bind align4
      | none => some 0
    let totalLen ← checkedAdd 4 strSize
    return some (.beginNode ⟨i, totalLen, nameStart⟩)
  | some 2 => some (some (.endNode ⟨i, 4⟩))
  | some 3 => do
    let lenStart ← checkedAdd i 4
    let nameoffStart ← checkedAdd i 8
    let valueStart ← checkedAdd i 12
    let len := ((getFrom structs lenStart).bind bytesToU32).getD 0
    let nameoff := ((getFrom structs nameoffStart).bind bytesToU32).getD 0
    let totalLen ← (align4 len).bind (checkedAdd 12)
    return some (.prop ⟨i, totalLen, nameoff, valueStart, len⟩)
  | some 4 => some (some (.nop ⟨i, 4⟩))
  | some 9 => some (some (.fdtEnd ⟨i, 4⟩))
  | _ => some none

/-! ## Nodes -/

/-- `Node`. -/
structure Node where
  start : Nat
  nameStart : Nat
  nextTokenStart : Nat
  totalLen : Nat
  depth : Nat
  deriving DecidableEq

def Node.encloses (node child : Node) : Option Bool :=
  do
  let stop ← checkedAdd node.start node.totalLen
  let childStop ← checkedAdd child.start child.totalLen
  return decide (node.start ≤ child.start) && decide (childStop ≤ stop)

def Node.isRoot (node : Node) : Bool := node.depth == 0

/-- The node between a begin token and an end token. -/
def Node.between (begun : FdtBeginNodeContext) (nextTokenStart : Nat) (ended : FdtTokenContext)
    (depth : Nat) :
    Option Node :=
  do
  let stop ← checkedAdd ended.start ended.totalLen
  let totalLen ← checkedSub stop begun.start
  return ⟨begun.start, begun.nameStart, nextTokenStart, totalLen, depth⟩

/-- The local variables of `node_from_index` and of one call of the iterator of `nodes`. -/
structure Scan where
  i : Nat
  depth : Nat
  begun : Option FdtBeginNodeContext
  nextTokenStart : Nat
  nodeDepth : Nat

/-- The loop of `node_from_index`. -/
def scanNode (structs : List UInt8) : Nat → Scan → Option (Option Node)
  | 0, _ => none
  | fuel + 1, scan =>
    if scan.i < structs.length then
      match parseToken structs scan.i with
      | none => none
      | some none => some none
      | some (some (.beginNode ctx)) => do
        let after ← checkedAdd scan.i ctx.totalLen
        let depth ← checkedAdd scan.depth 1
        if scan.depth = scan.nodeDepth then
          scanNode structs fuel ⟨after, depth, some ctx, after, scan.nodeDepth⟩
        else scanNode structs fuel { scan with i := after, depth := depth }
      | some (some (.endNode ctx)) => do
        let depth ← checkedSub scan.depth 1
        if depth = scan.nodeDepth then
          match scan.begun with
          | none => return none
          | some begun =>
            let node ← Node.between begun scan.nextTokenStart ctx scan.nodeDepth
            return some node
        else
          let after ← checkedAdd scan.i ctx.totalLen
          scanNode structs fuel { scan with i := after, depth := depth }
      | some (some (.prop ctx)) => do
        let after ← checkedAdd scan.i ctx.totalLen
        scanNode structs fuel { scan with i := after }
      | some (some (.nop ctx)) | some (some (.fdtEnd ctx)) => do
        let after ← checkedAdd scan.i ctx.totalLen
        scanNode structs fuel { scan with i := after }
    else some none

def DeviceTree.nodeFromIndex (dt : DeviceTree) (start nodeDepth : Nat) : Option (Option Node) :=
  do
  let structs ← dt.structs
  scanNode structs dt.rounds ⟨start, nodeDepth, none, 0, nodeDepth⟩

def DeviceTree.root (dt : DeviceTree) : Option (Option Node) := dt.nodeFromIndex 0 0

/-- The iterator of `children`. -/
structure ChildrenIter where
  parent : Node
  childDepth : Nat
  i : Nat

def DeviceTree.children (_dt : DeviceTree) (parent : Node) : Option ChildrenIter :=
  do
  let childDepth ← checkedAdd parent.depth 1
  return ⟨parent, childDepth, parent.nextTokenStart⟩

def ChildrenIter.next (dt : DeviceTree) (iter : ChildrenIter) :
    Option (Option (Node × ChildrenIter)) :=
  do
  match ← dt.nodeFromIndex iter.i iter.childDepth with
  | none => return none
  | some child =>
    if ← iter.parent.encloses child then
      let i ← checkedAdd child.start child.totalLen
      return some (child, { iter with i := i })
    else return none

def DeviceTree.findParent (dt : DeviceTree) : Nat → Node → Node → Option (Option Node)
  | 0, _, _ => none
  | fuel + 1, node, child => do
    let encloses ← node.encloses child
    if encloses = false ∨ node.depth ≥ child.depth then return none
    let below ← checkedAdd node.depth 1
    if below < child.depth then
      let iter ← dt.children node
      match ← firstNext (ChildrenIter.next dt) (fun inner => dt.findParent fuel inner child)
        dt.rounds iter with
      | some found => return some found
      | none => return some node
    return some node

def DeviceTree.parent (dt : DeviceTree) (child : Node) : Option (Option Node) :=
  do
  match ← dt.root with
  | none => return none
  | some root => dt.findParent dt.rounds root child

def DeviceTree.nodeName (dt : DeviceTree) (node : Node) : Option (Option String) :=
  do
  let structs ← dt.structs
  return inlineStr structs node.nameStart

/-- The iterator of `nodes`. -/
structure NodesIter where
  structs : List UInt8
  i : Nat
  depth : Nat

def DeviceTree.nodes (dt : DeviceTree) : Option NodesIter :=
  do
  let structs ← dt.structs
  return ⟨structs, 0, 0⟩

/-- The loop of one call of the iterator of `nodes`. -/
def scanNext (structs : List UInt8) : Nat → Scan → Option (Option (Node × NodesIter))
  | 0, _ => none
  | fuel + 1, scan =>
    if scan.i < structs.length then
      match parseToken structs scan.i with
      | none => none
      | some none => some none
      | some (some (.beginNode ctx)) => do
        let after ← checkedAdd scan.i ctx.totalLen
        let depth ← checkedAdd scan.depth 1
        if scan.begun.isNone then scanNext structs fuel ⟨after, depth, some ctx, after, scan.depth⟩
        else scanNext structs fuel { scan with i := after, depth := depth }
      | some (some (.endNode ctx)) => do
        let depth ← checkedSub scan.depth 1
        match scan.begun with
        | some begun =>
          if depth = scan.nodeDepth then
            let node ← Node.between begun scan.nextTokenStart ctx scan.nodeDepth
            return some (node, ⟨structs, scan.nextTokenStart, scan.depth⟩)
          else
            let after ← checkedAdd scan.i ctx.totalLen
            scanNext structs fuel { scan with i := after, depth := depth }
        | none =>
          let after ← checkedAdd scan.i ctx.totalLen
          scanNext structs fuel { scan with i := after, depth := depth }
      | some (some (.prop ctx)) => do
        let after ← checkedAdd scan.i ctx.totalLen
        scanNext structs fuel { scan with i := after }
      | some (some (.nop ctx)) | some (some (.fdtEnd ctx)) => do
        let after ← checkedAdd scan.i ctx.totalLen
        scanNext structs fuel { scan with i := after }
    else some none

def NodesIter.next (dt : DeviceTree) (iter : NodesIter) : Option (Option (Node × NodesIter)) :=
  scanNext iter.structs dt.rounds ⟨iter.i, iter.depth, none, 0, 0⟩

/-! ## Properties -/

/-- `Property`. -/
structure Property where
  start : Nat
  nameStart : Nat
  valueStart : Nat
  valueLen : Nat
  totalLen : Nat
  deriving DecidableEq

def Property.ofToken (ctx : FdtPropContext) : Property :=
  ⟨ctx.start, ctx.nameStart, ctx.valueStart, ctx.valueLen, ctx.totalLen⟩

/-- The iterator of `properties`. -/
structure PropertiesIter where
  structs : List UInt8
  endI : Nat
  i : Nat

def DeviceTree.properties (dt : DeviceTree) (node : Node) : Option PropertiesIter :=
  do
  let structs ← dt.structs
  let endI ← checkedAdd node.start node.totalLen
  return ⟨structs, endI, node.nextTokenStart⟩

/-- The loop of one call of the iterator of `properties`. -/
def PropertiesIter.scan (structs : List UInt8) (endI : Nat) :
    Nat → Nat → Option (Option (Property × PropertiesIter))
  | 0, _ => none
  | fuel + 1, i =>
    if i < endI then
      match parseToken structs i with
      | none => none
      | some (some (.prop ctx)) => do
        let after ← checkedAdd i ctx.totalLen
        return some (Property.ofToken ctx, ⟨structs, endI, after⟩)
      | some (some (.nop ctx)) => do
        let after ← checkedAdd i ctx.totalLen
        PropertiesIter.scan structs endI fuel after
      | _ => some none
    else some none

def PropertiesIter.next (dt : DeviceTree) (iter : PropertiesIter) :
    Option (Option (Property × PropertiesIter)) :=
  PropertiesIter.scan iter.structs iter.endI dt.rounds iter.i

def DeviceTree.propertyName (dt : DeviceTree) (prop : Property) : Option (Option String) :=
  do
  let strings ← dt.strings
  return inlineStr strings prop.nameStart

def DeviceTree.property (dt : DeviceTree) (node : Node) (propName : String) :
    Option (Option Property) :=
  do
  let iter ← dt.properties node
  findNext (PropertiesIter.next dt)
    (fun prop => (dt.propertyName prop).map fun name => decide (name = some propName))
    dt.rounds iter

def DeviceTree.propertyValueBytes (dt : DeviceTree) (prop : Property) :
    Option (Option (List UInt8)) :=
  do
  let valueEnd ← checkedAdd prop.valueStart prop.valueLen
  let structs ← dt.structs
  return getRange structs prop.valueStart valueEnd

/-! ## Searching -/

def splitTerminator (path : String) : List String :=
  let parts := path.toList.splitOn '/'
  (if parts.getLast? = some [] then parts.dropLast else parts).map String.ofList

/-- `find_subpath`: the rest of the path, and the node. -/
def DeviceTree.findSubpath (dt : DeviceTree) :
    Nat → List String → Node → Option String → Option (List String × Option Node)
  | 0, _, _, _ => none
  | fuel + 1, pathIter, node, currPathElement => do
    let nodeName ← dt.nodeName node
    if currPathElement = nodeName then
      match pathIter with
      | [] => return ([], some node)
      | nextPathElement :: rest =>
        let iter ← dt.children node
        searchNext (ChildrenIter.next dt)
          (fun pathIter child => dt.findSubpath fuel pathIter child (some nextPathElement))
          dt.rounds rest iter
    else return (pathIter, none)

def DeviceTree.findByPath (dt : DeviceTree) (path : String) : Option (Option Node) :=
  do
  let elements := splitTerminator path
  match ← dt.root with
  | none => return none
  | some root =>
    let (_, found) ← dt.findSubpath dt.rounds elements.tail root elements.head?
    return found

def DeviceTree.propertyValueContains (dt : DeviceTree) (prop : Property) (bytesToFind : String) :
    Option Bool :=
  do
  match ← dt.propertyValueBytes prop with
  | none => return false
  | some value => return (value.splitOn 0).any fun part => part = bytesToFind.toUTF8.data.toList

/-- The filter of `find_compatible` and `find_device_type`. -/
def DeviceTree.propertyContains (dt : DeviceTree) (propName bytesToFind : String) (node : Node) :
    Option Bool :=
  do
  match ← dt.property node propName with
  | none => return false
  | some prop => dt.propertyValueContains prop bytesToFind

/-- The `next` of the iterator of `find_compatible`. -/
def DeviceTree.findCompatibleNext (dt : DeviceTree) (comp : String) :
    NodesIter → Option (Option (Node × NodesIter)) :=
  filterNext (NodesIter.next dt) (dt.propertyContains "compatible" comp) dt.rounds

/-- The `next` of the iterator of `find_device_type`. -/
def DeviceTree.findDeviceTypeNext (dt : DeviceTree) (deviceType : String) :
    NodesIter → Option (Option (Node × NodesIter)) :=
  filterNext (NodesIter.next dt) (dt.propertyContains "device_type" deviceType) dt.rounds

end R9x.Core.Fdt
