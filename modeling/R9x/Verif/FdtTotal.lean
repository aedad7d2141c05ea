import R9x.Verif.FdtFlatten
import R9x.Verif.FdtWalk

/-!
# Which blobs the reader reads without a panic

`DeviceTree::new` checks the header only.
-/

namespace R9x.Verif.FdtTotal

open Lib Core.Fdt FdtTokens FdtForest FdtNodes FdtBlocks
  FdtCells FdtWalk FdtFlatten
open Option (map_eq_some_iff bind_eq_bind bind_some map_some some_ne_none some.inj)
open DeviceTree (new)

/-! ## What a caller can ask -/

/-- A node that a caller can get from the reader. -/
inductive Obtained (dt : DeviceTree) : Node → Prop where
  | root {node : Node} (found : dt.root = some (some node)) : Obtained dt node
  | listed {node : Node} {iter : NodesIter} (created : dt.nodes = some iter)
      (given : Gives (NodesIter.next dt) node iter) : Obtained dt node
  | child {node parent : Node} {iter : ChildrenIter} (obtained : Obtained dt parent)
      (created : dt.children parent = some iter) (given : Gives (ChildrenIter.next dt) node iter) :
      Obtained dt node
  | parent {node child : Node} (obtained : Obtained dt child) (found : dt.parent child =
      some (some node)) :
      Obtained dt node
  | path {node : Node} (path : String) (found : dt.findByPath path = some (some node)) :
      Obtained dt node
  | compatible {node : Node} {iter : NodesIter} (comp : String) (created : dt.nodes = some iter)
      (given : Gives (dt.findCompatibleNext comp) node iter) : Obtained dt node
  | deviceType {node : Node} {iter : NodesIter} (deviceType : String)
      (created : dt.nodes = some iter)
      (given : Gives (dt.findDeviceTypeNext deviceType) node iter) : Obtained dt node

/-- A property that a caller can get from the reader. -/
inductive ObtainedProperty (dt : DeviceTree) : Property → Prop where
  | listed {node : Node} {prop : Property} {iter : PropertiesIter} (obtained : Obtained dt node)
      (created : dt.properties node = some iter)
      (given : Gives (PropertiesIter.next dt) prop iter) :
      ObtainedProperty dt prop
  | found {node : Node} {prop : Property} {propName : String} (obtained : Obtained dt node)
      (found : dt.property node propName = some (some prop)) : ObtainedProperty dt prop

/-- An iterator is created without a panic, and its calls give finitely many items and then the end.
-/
def Ends {σ α : Type} (created : Option σ) (next : σ → Option (Option (α × σ))) : Prop :=
  ∃ iter items, created = some iter ∧ Yields next iter items

/-- No function of the reader panics on the device tree, and every iterator over it ends. -/
structure PanicFree (dt : DeviceTree) : Prop where
  root : dt.root ≠ none
  nodes : Ends dt.nodes (NodesIter.next dt)
  compatible : ∀ comp, Ends dt.nodes (dt.findCompatibleNext comp)
  deviceType : ∀ deviceType, Ends dt.nodes (dt.findDeviceTypeNext deviceType)
  path : ∀ path, dt.findByPath path ≠ none
  children : ∀ node, Obtained dt node → Ends (dt.children node) (ChildrenIter.next dt)
  parent : ∀ node, Obtained dt node → dt.parent node ≠ none
  properties : ∀ node, Obtained dt node → Ends (dt.properties node) (PropertiesIter.next dt)
  property : ∀ node propName, Obtained dt node → dt.property node propName ≠ none
  cells : ∀ prop, ObtainedProperty dt prop → Ends (dt.propertyValueAsU32Iter prop) (U32Iter.next dt)
  regs : ∀ node, Obtained dt node → Ends (dt.propertyRegIter node) (RegIter.next dt)
  ranges : ∀ node, Obtained dt node → Ends (dt.propertyRangeIter node) (RangeIter.next dt)
  translated : ∀ node, Obtained dt node → Ends (dt.propertyTranslatedRegIter node)
    (TranslatedIter.next dt)

/-- The blocks lie in the data, every node that ends has begun, and no translation overflows. -/
structure Guarded (dt : DeviceTree) : Prop where
  inside : dt.header.offDtStruct + dt.header.sizeDtStruct ≤ dt.data.length
  balanced : ∀ structs, dt.structs = some structs → Above 0 (tokens structs)
  named : ∀ structs forest torn, Block dt structs forest torn → ∀ branch depth seen,
    Known forest branch depth seen → branch.body.props ≠ [] →
      dt.header.offDtStrings + dt.header.sizeDtStrings ≤ dt.data.length
  carried : ∀ structs forest torn, Block dt structs forest torn → ∀ branch depth seen,
    Known forest branch depth seen → ∀ reg ∈ regs dt structs seen.head? branch,
      Carried dt structs reg seen

/-! ## The header -/

section

variable {dt : DeviceTree} {data structs : List UInt8}

lemma bytesToU32Offset_lt {offset word : Nat} (read : bytesToU32Offset data offset = some word) :
    word < 2 ^ 32 := by
  obtain ⟨slice, sliced, rfl⟩ := map_eq_some_iff.mp read
  have length := (getRange_some sliced).2.2
  have bound := fromBeBytes_lt slice
  rw [length, Nat.add_sub_cancel_left] at bound
  exact bound

lemma newHeader_words {header : FdtHeader} (read : FdtHeader.newHeader data = some header) :
    header.offDtStruct < 2 ^ 32 ∧ header.sizeDtStruct < 2 ^ 32 ∧ header.offDtStrings < 2 ^ 32 ∧
      header.sizeDtStrings < 2 ^ 32 := by
  simp only [FdtHeader.newHeader, bind_eq_bind, Option.bind_eq_some_iff] at read
  obtain ⟨magic, -, totalsize, -, offDtStruct, first, offDtStrings, second, offMemRsvmap,
    -, version, -,
    lastCompVersion, -, bootCpuidPhys, -, sizeDtStrings, third, sizeDtStruct, fourth, made⟩ := read
  cases made
  exact ⟨bytesToU32Offset_lt first, bytesToU32Offset_lt fourth, bytesToU32Offset_lt second,
    bytesToU32Offset_lt third⟩

lemma new_words (accepted : new data = .ok dt) :
    dt.header.offDtStruct < 2 ^ 32 ∧ dt.header.sizeDtStruct < 2 ^ 32 ∧ dt.header.offDtStrings <
      2 ^ 32 ∧
      dt.header.sizeDtStrings < 2 ^ 32 := by
  rw [new, FdtHeader.new] at accepted
  cases read : FdtHeader.newHeader data with
  | none =>
    rw [read] at accepted
    cases accepted
  | some =>
    have words := newHeader_words read
    rw [read] at accepted
    dsimp only at accepted
    split at accepted
    · split at accepted
      · cases accepted
        exact words
      · cases accepted
    · cases accepted

lemma block_isSome_iff {start size : Nat} (first : start < 2 ^ 32) (second : size < 2 ^ 32) :
    ((checkedAdd start size).bind (getRange data start)).isSome ↔ start + size ≤ data.length := by
  rw [checkedAdd_of_lt (by omega), bind_some, getRange]
  by_cases inside : start + size ≤ data.length
  · rw [if_pos ⟨Nat.le_add_right _ _, inside⟩]
    exact ⟨fun _ => inside, fun _ => rfl⟩
  rw [if_neg fun both => inside both.2]
  exact ⟨(by simp), fun contrary => absurd contrary inside⟩

lemma opened_of_new (accepted : new data = .ok dt) (block : dt.structs = some structs) :
    Opened dt structs := by
  refine ⟨block, ?_⟩
  rw [structs_length block]
  exact (new_words accepted).2.1

end

/-! ## Blobs that are read -/

section

variable {dt : DeviceTree} {structs : List UInt8} {forest : Forest} {torn : List FdtToken}
  {branch : Branch}
  {seen : List Branch} {node : Node} {depth fuel : Nat}

section

variable (block : Block dt structs forest torn)
include block

lemma findSubpath_total (known : Known forest branch depth seen)
    (enough : structs.length < fuel + depth) (path : List String) (element : Option String) :
    ∃ rest found, dt.findSubpath fuel path (branch.node depth) element = some (rest, found) ∧
      ∀ node, found = some node → node ∈ forest.preorder 0 := by
  induction fuel generalizing branch depth seen path element with
  | zero =>
    obtain ⟨tail, site⟩ := known.site block
    have deep := site.deep
    have inside := site.reads.1
    omega
  | succ fuel ih =>
    obtain ⟨tail, site⟩ := known.site block
    have name : dt.nodeName (branch.node depth) =
      some (inlineStr structs (branch.node depth).nameStart) := by
      rw [DeviceTree.nodeName, block.opened.block]
      rfl
    simp only [DeviceTree.findSubpath, name, bind_eq_bind, bind_some]
    split
    · cases path with
      | nil =>
        refine ⟨[], some (branch.node depth), rfl, ?_⟩
        intro _ same
        exact known_iff.mpr ⟨branch, depth, seen, known, (some.inj same).symm⟩
      | cons next =>
        obtain ⟨iter, listed, yields⟩ := children_yields block.opened site
        have fewer := block.opened.enough site.body
        have count := tops_length_le branch.body
        rw [List.length_append] at fewer
        have rounds : (branch.body.tops.map (Branch.node (depth + 1))).length < dt.rounds := by
          rw [List.length_map]
          omega
        simp only [listed, bind_some]
        rw [yields.search _ _ rounds]
        apply searchList_total
        intro path value member
        obtain ⟨child, among, rfl⟩ := List.mem_map.mp member
        obtain ⟨seen', inner⟩ := known.inner among
        exact ih inner (by omega) path (some next)
    · exact ⟨path, none, rfl, (fun _ impossible => by cases impossible)⟩

lemma findByPath_total (path : String) :
    ∃ found, dt.findByPath path = some found ∧ ∀ node, found = some node →
      node ∈ forest.preorder 0 := by
  rw [DeviceTree.findByPath, block.first_node]
  cases tops : forest.tops with
  | nil => exact ⟨none, rfl, (fun _ impossible => by cases impossible)⟩
  | cons =>
    have length := structs_length block.opened.block
    have enough : structs.length < dt.rounds + 0 := by
      rw [DeviceTree.rounds]
      omega
    obtain ⟨_, found, searched, kept⟩ := findSubpath_total block (.below tops .top) enough
      (splitTerminator path).tail (splitTerminator path).head?
    refine ⟨found, ?_, kept⟩
    rw [List.length_nil] at searched
    simp only [List.head?_cons, map_some, bind_eq_bind, bind_some, searched]
    rfl

lemma propertyContains_total (named : AllNamed dt forest) (propName bytesToFind : String)
    (member : node ∈ forest.preorder 0) :
    ∃ passed, dt.propertyContains propName bytesToFind node = some passed := by
  obtain ⟨branch, depth, seen, known, rfl⟩ := known_iff.mp member
  obtain ⟨tail, site⟩ := known.site block
  rw [DeviceTree.propertyContains, property_lookup block.opened site (named _ _ _ known)]
  simp only [bind_eq_bind, bind_some]
  cases found : lookup dt branch propName with
  | none => exact ⟨false, rfl⟩
  | some ctx =>
    have near := lookup_near block.opened.small site found
    simp only [map_some, DeviceTree.propertyValueContains, DeviceTree.propertyValueBytes,
      Property.ofToken,
      bind_eq_bind]
    rw [checkedAdd_of_lt (by omega), block.opened.block]
    simp only [bind_some]
    cases getRange structs ctx.valueStart (ctx.valueStart + ctx.valueLen) with
    | none => exact ⟨false, rfl⟩
    | some => exact ⟨_, rfl⟩

lemma preorder_length_lt : (forest.preorder 0).length < dt.rounds := by
  have fewer := block.opened.enough block.reads
  have count : ∀ (forest : Forest) (depth : Nat), (forest.preorder depth).length ≤
    forest.tokens.length := by
    intro forest
    induction forest with
    | nil => exact fun _ => Nat.le_refl 0
    | leaf _ _ ih => exact fun depth => Nat.le_succ_of_le (ih depth)
    | node begun body ended rest ihBody ihRest =>
      intro depth
      have inner := ihBody (depth + 1)
      have later := ihRest depth
      simp only [Forest.preorder, Forest.tokens, List.length_cons, List.length_append]
      omega
  have bound := count forest 0
  rw [List.length_append] at fewer
  omega

lemma filter_yields (named : AllNamed dt forest) (propName bytesToFind : String) :
    ∃ iter items, dt.nodes = some iter ∧
      Yields (filterNext (NodesIter.next dt) (dt.propertyContains propName bytesToFind) dt.rounds)
        iter items ∧
      ∀ node ∈ items, node ∈ forest.preorder 0 := by
  obtain ⟨iter, created, yields⟩ := block.nodes
  have tested : ∀ node ∈ forest.preorder 0, dt.propertyContains propName bytesToFind node =
      some ((dt.propertyContains propName bytesToFind node).getD false) := by
    intro _ member
    obtain ⟨_, result⟩ := propertyContains_total block named propName bytesToFind member
    rw [result]
    rfl
  refine ⟨iter, _, created, yields.filter tested (preorder_length_lt block), ?_⟩
  exact fun node member => (List.mem_filter.mp member).1

end

lemma mem_of_gives {σ α : Type} {next : σ → Option (Option (α × σ))} {iter other : σ}
    {items : List α}
    {value : α} {created : Option σ} (made : created = some iter) (yields : Yields next iter items)
    (again : created = some other) (given : Gives next value other) : value ∈ items := by
  cases made.symm.trans again
  exact yields.gives_iff.mp given

variable (block : Block dt structs forest torn) (named : AllNamed dt forest)
include block named

lemma mem_of_obtained (obtained : Obtained dt node) : node ∈ forest.preorder 0 := by
  induction obtained with
  | root found =>
    rw [block.first_node] at found
    obtain ⟨root, first, rfl⟩ := map_eq_some_iff.mp (some.inj found)
    obtain ⟨_, tops⟩ := List.head?_eq_some_iff.mp first
    exact known_iff.mpr ⟨root, 0, [], .below tops .top, rfl⟩
  | listed created given =>
    obtain ⟨_, made, yields⟩ := block.nodes
    exact mem_of_gives made yields created given
  | child _ created given ih =>
    obtain ⟨_, depth, _, known, rfl⟩ := known_iff.mp ih
    obtain ⟨_, site⟩ := known.site block
    obtain ⟨_, made, yields⟩ := children_yields block.opened site
    obtain ⟨child, among, rfl⟩ := List.mem_map.mp (mem_of_gives made yields created given)
    obtain ⟨seen', inner⟩ := known.inner among
    exact known_iff.mpr ⟨child, depth + 1, seen', inner, rfl⟩
  | parent _ found ih =>
    obtain ⟨_, depth, _, known, rfl⟩ := known_iff.mp ih
    rw [known.parent block] at found
    obtain ⟨bus, first, rfl⟩ := map_eq_some_iff.mp (some.inj found)
    obtain ⟨above, rfl⟩ := List.head?_eq_some_iff.mp first
    exact known_iff.mpr ⟨bus, depth - 1, above, known.nearest, rfl⟩
  | path path found =>
    obtain ⟨_, searched, kept⟩ := findByPath_total block path
    exact kept _ (some.inj (searched.symm.trans found))
  | compatible comp created given =>
    obtain ⟨_, _, made, yields, kept⟩ := filter_yields block named "compatible" comp
    exact kept _ (mem_of_gives made yields created given)
  | deviceType deviceType created given =>
    obtain ⟨_, _, made, yields, kept⟩ := filter_yields block named "device_type" deviceType
    exact kept _ (mem_of_gives made yields created given)

lemma near_of_obtained {prop : Property} (obtained : ObtainedProperty dt prop) :
    prop.valueStart + prop.valueLen < 2 ^ 34 := by
  cases obtained with
  | listed holder created given =>
    obtain ⟨branch, depth, seen, known, rfl⟩ := known_iff.mp (mem_of_obtained block named holder)
    obtain ⟨tail, site⟩ := known.site block
    obtain ⟨iter, made, yields⟩ := properties_yields block.opened site
    obtain ⟨ctx, among, rfl⟩ := List.mem_map.mp (mem_of_gives made yields created given)
    obtain ⟨j, -, parsed⟩ := props_parsed site.body among
    have near := prop_near block.opened.small parsed
    change ctx.valueStart + ctx.valueLen < 2 ^ 34
    omega
  | found holder found =>
    obtain ⟨_, _, _, known, rfl⟩ := known_iff.mp (mem_of_obtained block named holder)
    obtain ⟨_, site⟩ := known.site block
    rw [property_lookup block.opened site (named _ _ _ known)] at found
    obtain ⟨_, same, rfl⟩ := map_eq_some_iff.mp (some.inj found)
    exact lookup_near block.opened.small site same

lemma panicFree_of_block (carried : ∀ branch depth seen, Known forest branch depth seen →
      ∀ reg ∈ regs dt structs seen.head? branch, Carried dt structs reg seen) : PanicFree dt where
  root := by
    rw [block.first_node]
    exact some_ne_none _
  nodes := by
    obtain ⟨iter, created, yields⟩ := block.nodes
    exact ⟨iter, _, created, yields⟩
  compatible comp := by
    obtain ⟨iter, items, created, yields, -⟩ := filter_yields block named "compatible" comp
    exact ⟨iter, items, created, yields⟩
  deviceType deviceType := by
    obtain ⟨iter, items, created, yields, -⟩ := filter_yields block named "device_type" deviceType
    exact ⟨iter, items, created, yields⟩
  path path := by
    obtain ⟨_, searched, -⟩ := findByPath_total block path
    rw [searched]
    exact some_ne_none _
  children node obtained := by
    obtain ⟨_, _, _, known, rfl⟩ := known_iff.mp (mem_of_obtained block named obtained)
    obtain ⟨_, site⟩ := known.site block
    obtain ⟨iter, created, yields⟩ := children_yields block.opened site
    exact ⟨iter, _, created, yields⟩
  parent node obtained := by
    obtain ⟨_, _, _, known, rfl⟩ := known_iff.mp (mem_of_obtained block named obtained)
    rw [known.parent block]
    exact some_ne_none _
  properties node obtained := by
    obtain ⟨_, _, _, known, rfl⟩ := known_iff.mp (mem_of_obtained block named obtained)
    obtain ⟨_, site⟩ := known.site block
    obtain ⟨iter, created, yields⟩ := properties_yields block.opened site
    exact ⟨iter, _, created, yields⟩
  property node propName obtained := by
    obtain ⟨_, _, _, known, rfl⟩ := known_iff.mp (mem_of_obtained block named obtained)
    obtain ⟨_, site⟩ := known.site block
    rw [property_lookup block.opened site (named _ _ _ known)]
    exact some_ne_none _
  cells prop obtained := by
    have near := near_of_obtained block named obtained
    obtain ⟨items, yields⟩ := u32_yields block.opened
      (show prop.valueStart ≤ prop.valueStart + prop.valueLen by omega) near
    refine ⟨_, items, ?_, yields⟩
    rw [DeviceTree.propertyValueAsU32Iter, checkedAdd_of_lt (by omega)]
    rfl
  regs node obtained := by
    obtain ⟨_, _, _, known, rfl⟩ := known_iff.mp (mem_of_obtained block named obtained)
    obtain ⟨iter, created, yields⟩ := known.regs block named
    exact ⟨iter, _, created, yields⟩
  ranges node obtained := by
    obtain ⟨_, _, _, known, rfl⟩ := known_iff.mp (mem_of_obtained block named obtained)
    obtain ⟨iter, created, yields⟩ := known.ranges block named
    exact ⟨iter, _, created, yields⟩
  translated node obtained := by
    obtain ⟨branch, depth, seen, known, rfl⟩ := known_iff.mp (mem_of_obtained block named obtained)
    exact (known.translated block named).mpr (carried branch depth seen known)

end

/-! ## Blobs that are not -/

section

variable {dt : DeviceTree} {structs : List UInt8} {forest : Forest} {torn : List FdtToken}
  {branch : Branch}
  {seen : List Branch} {depth : Nat}

lemma obtained_of_known (block : Block dt structs forest torn)
    (known : Known forest branch depth seen) :
    Obtained dt (branch.node depth) := by
  obtain ⟨_, created, yields⟩ := block.nodes
  exact .listed created (yields.gives_iff.mpr (known_iff.mpr ⟨branch, depth, seen, known, rfl⟩))

lemma PanicFree.named (free : PanicFree dt) (block : Block dt structs forest torn) :
    AllNamed dt forest := by
  intro _ _ _ known present
  obtain ⟨_, site⟩ := known.site block
  cases strings : dt.strings with
  | some => rfl
  | none =>
    have panics := property_panic block.opened site present strings "reg"
    exact absurd panics (free.property _ _ (obtained_of_known block known))

lemma PanicFree.balanced (free : PanicFree dt) (opened : Opened dt structs) :
    Above 0 (tokens structs) := by
  have reads := reads_tokens opened.small
  obtain ⟨forest, _, split, ended⟩ := exists_forest (tokens structs)
  rw [split] at reads ⊢
  rcases ended with unended | ⟨_, _, rfl⟩
  · exact (above_forest forest).mpr unended.above
  obtain ⟨_, _, created, yields⟩ := free.nodes
  rw [DeviceTree.nodes, opened.block] at created
  cases created
  exact absurd yields (nodes_panic opened reads)

lemma exists_block (opened : Opened dt structs) (balanced : Above 0 (tokens structs)) :
    ∃ forest torn, Block dt structs forest torn := by
  have reads := reads_tokens opened.small
  obtain ⟨forest, rest, split, ended⟩ := exists_forest (tokens structs)
  rw [split] at reads balanced
  rcases ended with unended | ⟨_, _, rfl⟩
  · exact ⟨forest, rest, opened, reads, unended⟩
  · exact ((above_forest forest).mp balanced).elim

end

/-- For every blob that `DeviceTree::new` accepts, the functions of the reader do not panic on it,
and their iterators end, if and only if the structure block lies in the data, no node ends that has
not begun, the strings block lies in the data if a node has a property, and no range that is tried
on a register block overflows 64 bits. -/
theorem reader_panic_free_iff (data : List UInt8) (dt : DeviceTree)
    (accepted : DeviceTree.new data = .ok dt) :
    PanicFree dt ↔ Guarded dt := by
  obtain ⟨offStruct, sizeStruct, offStrings, sizeStrings⟩ := new_words accepted
  have structsInside : dt.structs.isSome ↔ _ := block_isSome_iff offStruct sizeStruct
  have stringsInside : dt.strings.isSome ↔ _ := block_isSome_iff offStrings sizeStrings
  constructor
  · intro free
    refine ⟨?_, ?_, ?_, ?_⟩
    · apply structsInside.mp
      cases block : dt.structs with
      | some => rfl
      | none =>
        have panics : dt.root = none := by
          rw [DeviceTree.root, DeviceTree.nodeFromIndex, block]; rfl
        exact absurd panics free.root
    · exact fun structs block => free.balanced (opened_of_new accepted block)
    · exact fun structs forest torn block branch depth seen known present =>
        stringsInside.mp (free.named block branch depth seen known present)
    · intro _ _ _ block _ _ _ known
      have ends := free.translated _ (obtained_of_known block known)
      exact (known.translated block (free.named block)).mp ends
  · intro guarded
    obtain ⟨structs, block⟩ := Option.isSome_iff_exists.mp (structsInside.mpr guarded.inside)
    obtain ⟨forest, torn, whole⟩ :=
      exists_block (opened_of_new accepted block) (guarded.balanced structs block)
    apply panicFree_of_block whole
    · exact fun branch depth seen known present =>
        stringsInside.mpr (guarded.named structs forest torn whole branch depth seen known present)
    · exact guarded.carried structs forest torn whole

def bareBlob (structs : List UInt8) : List UInt8 :=
  (headerWords ⟨0xd00dfeed, 40 + structs.length, 40, 40 + structs.length, 0, 17, 16, 0, 0,
    structs.length⟩).flatMap word ++ structs

def bareTree (structs : List UInt8) : DeviceTree :=
  ⟨bareBlob structs, ⟨0xd00dfeed, 40 + structs.length, 40, 40 + structs.length, 0, 17, 16, 0, 0,
    structs.length⟩⟩

def loneRoot : List UInt8 := word 1 ++ word 0 ++ word 2

lemma loneRoot_bare : ∀ j < loneRoot.length, (parseToken loneRoot j).all fun
    | some (.prop _) => false
    | _ => true := by decide +kernel

/-- The blob of a root without a name is read without a panic. -/
theorem reader_panic_free_iff_loneRoot :
    DeviceTree.new (bareBlob loneRoot) = .ok (bareTree loneRoot) ∧
      PanicFree (bareTree loneRoot) := by
  have accepted : DeviceTree.new (bareBlob loneRoot) = .ok (bareTree loneRoot) := by decide +kernel
  have structs : (bareTree loneRoot).structs = some loneRoot := by decide +kernel
  have bare : ∀ forest torn, Block (bareTree loneRoot) loneRoot forest torn → ∀ branch depth seen,
      Known forest branch depth seen → branch.body.props = [] := by
    intro _ _ block _ _ _ known
    obtain ⟨_, site⟩ := known.site block
    apply List.eq_nil_iff_forall_not_mem.mpr
    intro _ member
    obtain ⟨j, inside, parsed⟩ := props_parsed site.body member
    have none_there := loneRoot_bare j inside
    rw [parsed] at none_there
    exact Bool.false_ne_true none_there
  refine ⟨accepted, (reader_panic_free_iff _ _ accepted).mpr ⟨?_, ?_, ?_, ?_⟩⟩
  · decide +kernel
  · intro _ block
    cases structs.symm.trans block
    decide +kernel
  · intro _ forest torn block branch depth seen known present
    obtain rfl := Option.some.inj (structs.symm.trans block.opened.block)
    exact absurd (bare forest torn block branch depth seen known) present
  · intro _ forest torn block branch depth seen known reg member
    obtain rfl := Option.some.inj (structs.symm.trans block.opened.block)
    have missing : lookup (bareTree loneRoot) branch "reg" = none := by
      rw [lookup, bare forest torn block branch depth seen known]
      rfl
    rw [regs, bounds, missing] at member
    cases member

/-- A structure block that is only the end of a node is accepted, and the iterator of `nodes` panics
on it. -/
theorem nodes_panics_on_end :
    DeviceTree.new (bareBlob (word 2)) = .ok (bareTree (word 2)) ∧
      ¬ PanicFree (bareTree (word 2)) := by
  constructor
  · decide +kernel
  · intro free
    obtain ⟨_, _, created, yields⟩ := free.nodes
    have made : (bareTree (word 2)).nodes = some ⟨word 2, 0, 0⟩ := by
      have block : (bareTree (word 2)).structs = some (word 2) := by decide +kernel
      rfl
    cases made.symm.trans created
    have panics : (NodesIter.next (bareTree (word 2)) ⟨word 2, 0, 0⟩).isNone := by decide +kernel
    rw [Option.isNone_iff_eq_none] at panics
    cases yields with
    | done ended => cases panics.symm.trans ended
    | item given => cases panics.symm.trans given

end R9x.Verif.FdtTotal
