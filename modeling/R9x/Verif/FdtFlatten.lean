import R9x.Verif.FdtRecover

/-!
# Flattened device trees

The flattened format: big-endian words, names that end with a NUL, values padded to a multiple of
four bytes.
-/

namespace R9x.Verif.FdtFlatten

open Lib Core.Fdt FdtTokens FdtBlocks
  FdtTrees FdtRecover
open List (replicate length_append nil_append cons_append append_assoc append_nil)
open DeviceTree (new)

/-! ## The format -/

/-- A word in big-endian order. -/
def word (value : Nat) : List UInt8 :=
  [UInt8.ofNat (value / 2 ^ 24), UInt8.ofNat (value / 2 ^ 16), UInt8.ofNat (value / 2 ^ 8),
    UInt8.ofNat value]

/-- The bytes of a text. -/
def utf8 (text : String) : List UInt8 := text.toUTF8.data.toList

/-- Bytes, and zeros up to a multiple of four. -/
def padded (bytes : List UInt8) : List UInt8 := bytes ++ replicate ((4 - bytes.length % 4) % 4) 0

/-- The bytes of a token, in which a property has the offset of its name. -/
def tokenBytes : Token Nat → List UInt8
  | .beginNode name => word 1 ++ padded (utf8 name ++ [0])
  | .endNode => word 2
  | .prop nameoff value => word 3 ++ (word value.length ++ (word nameoff ++ padded value))
  | .nop => word 4
  | .fdtEnd => word 9

/-- Some bytes stand at an offset. -/
def At (bytes : List UInt8) (offset : Nat) (part : List UInt8) : Prop :=
  ∃ before after, bytes = before ++ (part ++ after) ∧ before.length = offset

/-- A token of a blob stands for a token of the tree. -/
def Encodes (strings : List UInt8) : Token Nat → Token String → Prop
  | .beginNode name, .beginNode name' => name = name' ∧ 0 ∉ utf8 name
  | .endNode, .endNode => True
  | .prop nameoff value, .prop name value' => value = value' ∧ 0 ∉ utf8 name ∧
      At strings nameoff (utf8 name ++ [0])
  | .fdtEnd, .fdtEnd => True
  | _, _ => False

/-- The token is not one to ignore. -/
def matters : Token Nat → Bool
  | .nop => false
  | _ => true

def headerWords (header : FdtHeader) : List Nat :=
  [header.magic, header.totalsize, header.offDtStruct, header.offDtStrings, header.offMemRsvmap,
    header.version,
    header.lastCompVersion, header.bootCpuidPhys, header.sizeDtStrings, header.sizeDtStruct]

/-- A blob is a device tree in flattened form, with its header, its tokens and its strings block. -/
structure Flattens (tree : FdtTrees.Tree Unit) (header : FdtHeader) (tokens : List (Token Nat))
    (strings data : List UInt8) :
    Prop where
  words : ∀ value ∈ headerWords header, value < 2 ^ 32
  start : At data 0 ((headerWords header).flatMap word)
  magic : header.magic = 0xd00dfeed
  total : header.totalsize = data.length
  structs : At data header.offDtStruct (tokens.flatMap tokenBytes)
  structsSize : header.sizeDtStruct = (tokens.flatMap tokenBytes).length
  stringsAt : At data header.offDtStrings strings
  stringsSize : header.sizeDtStrings = strings.length
  spelled : List.Forall₂ (Encodes strings) (tokens.filter matters) (tree.spell ++ [.fdtEnd])
  rootName : tree.name = ""

/-! ## Bytes -/

section

variable {before rest : List UInt8} {name : String} {value : Nat}

lemma getFrom_append (before rest : List UInt8) : getFrom (before ++ rest) before.length =
    some rest := by
  rw [getFrom, if_pos (by rw [length_append]; omega), List.drop_left]

variable {bytes : List UInt8} {i : Nat}

lemma getFrom_at (split : bytes = before ++ rest) (offset : before.length = i) :
    getFrom bytes i = some rest := by
  rw [split, ← offset]
  exact getFrom_append before rest

lemma getRange_at {part : List UInt8} {j : Nat} (split : bytes = before ++ (part ++ rest))
    (offset : before.length = i) (stop : i + part.length = j) : getRange bytes i j = some part := by
  subst split offset stop
  have inside : before.length ≤ before.length + part.length ∧
      before.length + part.length ≤ (before ++ (part ++ rest)).length := by
    simp only [length_append]
    omega
  rw [getRange, if_pos inside, List.drop_left, Nat.add_sub_cancel_left, List.take_left]

lemma fromBeBytes_word (small : value < 2 ^ 32) : fromBeBytes (word value) = value := by
  simp only [fromBeBytes, word, List.foldl_cons, List.foldl_nil, UInt8.toNat_ofNat']
  omega

lemma bytesToU32_word (small : value < 2 ^ 32) (rest : List UInt8) :
    bytesToU32 (word value ++ rest) = some value := by
  have sliced : getRange (word value ++ rest) 0 4 = some (word value) :=
    getRange_at (nil_append _).symm rfl rfl
  rw [bytesToU32, sliced, Option.map_some, fromBeBytes_word small]

lemma idxOf?_name (plain : 0 ∉ bytes) (rest : List UInt8) :
    (bytes ++ 0 :: rest).idxOf? 0 = some bytes.length := by
  induction bytes with
  | nil => rfl
  | cons byte bytes ih =>
    have here : (byte == 0) = false := by
      rw [beq_eq_false_iff_ne]
      rintro rfl
      exact plain List.mem_cons_self
    have there : 0 ∉ bytes := fun member => plain (List.mem_cons_of_mem _ member)
    rw [cons_append, List.idxOf?_cons, here, ih there]
    rfl

lemma fromUTF8_utf8 (text : String) : String.fromUTF8? ⟨(utf8 text).toArray⟩ = some text := by
  have same : (⟨(utf8 text).toArray⟩ : ByteArray) = text.toUTF8 := by
    rw [utf8, Array.toArray_toList]
  exact dif_pos text.isValidUTF8

lemma inlineStr_at (plain : 0 ∉ utf8 name)
    (split : bytes = before ++ (utf8 name ++ 0 :: rest)) (offset : before.length = i) :
    inlineStr bytes i = some name := by
  rw [inlineStr, getFrom_at split offset]
  simp only [Option.bind_eq_bind, Option.bind_some, idxOf?_name plain rest, List.take_left]
  exact fromUTF8_utf8 name

lemma length_padded (bytes : List UInt8) :
    (padded bytes).length = 4 * ((bytes.length + 3) / 4) := by
  rw [padded, length_append, List.length_replicate]
  omega

end

/-! ## Tokens of a blob -/

def locate (i : Nat) : Token Nat → FdtToken
  | .beginNode name => .beginNode ⟨i, 4 + (padded (utf8 name ++ [0])).length, i + 4⟩
  | .endNode => .endNode ⟨i, 4⟩
  | .prop nameoff value => .prop ⟨i, 12 + (padded value).length, nameoff, i + 12, value.length⟩
  | .nop => .nop ⟨i, 4⟩
  | .fdtEnd => .fdtEnd ⟨i, 4⟩

def locateAll : Nat → List (Token Nat) → List FdtToken
  | _, [] => []
  | i, token :: tokens => locate i token :: locateAll (i + (tokenBytes token).length) tokens

section

variable {structs strings before rest : List UInt8} {i : Nat} {token : Token Nat}
  {item : Token String}
  {tokens : List (Token Nat)}

lemma totalLen_locate (i : Nat) (token : Token Nat) :
    (locate i token).totalLen = (tokenBytes token).length := by
  cases token with
  | prop =>
    simp only [locate, FdtToken.totalLen, tokenBytes, length_append, word, List.length_cons,
      List.length_nil]
    omega
  | beginNode =>
    simp only [locate, FdtToken.totalLen, tokenBytes, length_append, word, List.length_cons,
      List.length_nil]
  | endNode | nop | fdtEnd => rfl

lemma tag_at {tag : Nat} {more : List UInt8} (small : tag < 2 ^ 32)
    (split : structs = before ++ (word tag ++ more))
    (offset : before.length = i) : (getFrom structs i).bind bytesToU32 = some tag := by
  rw [getFrom_at split offset]
  exact bytesToU32_word small more

lemma name_at {name : String} (split : structs = before ++ (tokenBytes (.beginNode name) ++ rest)) :
    structs = (before ++ word 1) ++ (utf8 name ++ 0 ::
      (replicate ((4 - (utf8 name ++ [0]).length % 4) % 4) 0 ++ rest)) := by
  rw [split, tokenBytes, padded]
  simp only [append_assoc, cons_append, nil_append]

/-- The token of a blob is parsed. -/
lemma parse_locate (small : structs.length < 2 ^ 32)
    (split : structs = before ++ (tokenBytes token ++ rest))
    (offset : before.length = i) (encodes : token = .nop ∨ Encodes strings token item)
    (near : strings.length < 2 ^ 32) : parseToken structs i = some (some (locate i token)) := by
  cases token with
  | beginNode name =>
    have plain : 0 ∉ utf8 name := by
      rcases encodes with same | encodes
      · cases same
      cases item with
      | beginNode => exact encodes.2
      | endNode | prop | nop | fdtEnd => exact encodes.elim
    have size : nameSize structs i = (padded (utf8 name ++ [0])).length := by
      rw [nameSize, getFrom_at (name_at split) (by rw [length_append, offset]; rfl),
        Option.bind_some,
        idxOf?_name plain, length_padded, length_append]
      rfl
    have tag : (getFrom structs i).bind bytesToU32 = some 1 :=
      tag_at (by decide) (split.trans (congrArg (before ++ ·) (append_assoc _ _ _))) offset
    rw [parseToken_begin small tag, size]
    rfl
  | prop nameoff value =>
    have placed : nameoff ≤ strings.length := by
      rcases encodes with same | encodes
      · cases same
      cases item with
      | prop =>
        obtain ⟨-, -, start, after, whole, rfl⟩ := encodes
        rw [whole, length_append]
        omega
      | endNode | beginNode | nop | fdtEnd => exact encodes.elim
    have first : structs =
      before ++ (word 3 ++ (word value.length ++ (word nameoff ++ (padded value ++ rest)))) := by
      rw [split, tokenBytes]
      simp only [append_assoc]
    have second : structs = (before ++ word 3) ++
      (word value.length ++ (word nameoff ++ (padded value ++ rest))) := by
      rw [first]
      simp only [append_assoc]
    have third : structs = (before ++ (word 3 ++ word value.length)) ++
      (word nameoff ++ (padded value ++ rest)) := by
      rw [first]
      simp only [append_assoc]
    have size : value.length < 2 ^ 32 := by
      have length := congrArg List.length first
      simp only [length_append, length_padded] at length
      omega
    have len : (getFrom structs (i + 4)).bind bytesToU32 = some value.length :=
      tag_at size second (by rw [length_append, offset]; rfl)
    have name : (getFrom structs (i + 8)).bind bytesToU32 = some nameoff :=
      tag_at (by omega) third (by rw [length_append, offset]; rfl)
    rw [parseToken_prop small (tag_at (by decide) first offset), len, name, locate, length_padded]
    rfl
  | endNode =>
    rw [parseToken, tag_at (show 2 < 2 ^ 32 by decide) split offset]
    rfl
  | nop =>
    rw [parseToken, tag_at (show 4 < 2 ^ 32 by decide) split offset]
    rfl
  | fdtEnd =>
    rw [parseToken, tag_at (show 9 < 2 ^ 32 by decide) split offset]
    rfl

lemma shows_locate (split : structs = before ++ (tokenBytes token ++ rest))
    (offset : before.length = i)
    (encodes : Encodes strings token item) : Shows structs strings (locate i token) item := by
  cases token with
  | beginNode name =>
    cases item with
    | beginNode =>
      obtain ⟨rfl, plain⟩ := encodes
      exact inlineStr_at plain (name_at split) (by rw [length_append, offset]; rfl)
    | endNode | prop | nop | fdtEnd => exact encodes.elim
  | prop nameoff value =>
    cases item with
    | prop name =>
      obtain ⟨rfl, plain, start, after, whole, start_length⟩ := encodes
      have text : strings = start ++ (utf8 name ++ 0 :: after) := by
        rw [whole]
        simp only [append_assoc, cons_append, nil_append]
      have bytes : structs = (before ++ (word 3 ++ (word value.length ++ word nameoff))) ++
        (value ++
          (replicate ((4 - value.length % 4) % 4) 0 ++ rest)) := by
        rw [split, tokenBytes, padded]
        simp only [append_assoc]
      constructor
      · exact inlineStr_at plain text start_length
      · apply getRange_at bytes _ rfl
        rw [length_append, offset]
        rfl
    | beginNode | endNode | nop | fdtEnd => exact encodes.elim
  | endNode =>
    cases item with
    | endNode => exact trivial
    | beginNode | prop | nop | fdtEnd => exact encodes.elim
  | nop => cases item <;> exact encodes.elim
  | fdtEnd =>
    cases item with
    | fdtEnd => exact trivial
    | beginNode | prop | nop | endNode => exact encodes.elim

lemma reads_locateAll (small : structs.length < 2 ^ 32) (near : strings.length < 2 ^ 32)
    {items : List (Token String)} (split : structs = before ++ tokens.flatMap tokenBytes)
    (offset : before.length = i)
    (spelled : List.Forall₂ (Encodes strings) (tokens.filter matters) items) :
    Reads structs i (locateAll i tokens) ∧
      List.Forall₂ (Shows structs strings) ((locateAll i tokens).filter counts) items := by
  induction tokens generalizing before i items with
  | nil =>
    have length := congrArg List.length split
    rw [List.flatMap_nil, append_nil] at length
    refine ⟨.inl (by omega), ?_⟩
    cases spelled
    exact .nil
  | cons token tokens ih =>
    have here : structs = before ++ (tokenBytes token ++ tokens.flatMap tokenBytes) := split
    have there : structs = (before ++ tokenBytes token) ++ tokens.flatMap tokenBytes := by
      rw [here, append_assoc]
    have after : (before ++ tokenBytes token).length = i + (tokenBytes token).length := by
      rw [length_append, offset]
    have inside : i < structs.length := by
      have length := congrArg List.length here
      have least : 4 ≤ (tokenBytes token).length := by
        cases token <;> simp only [tokenBytes, word, length_append, List.length_cons,
          List.length_nil] <;> omega
      simp only [length_append] at length
      omega
    have step : (locate i token).totalLen = (tokenBytes token).length := totalLen_locate i token
    cases matter : matters token with
    | false =>
      have ignored : token = .nop := by
        cases token with
        | nop => rfl
        | beginNode | endNode | prop | fdtEnd => cases matter
      have nothing : token = .nop ∨ Encodes strings token .nop := .inl ignored
      have parsed := parse_locate small here offset nothing near
      rw [List.filter_cons_of_neg (by rw [matter]; exact Bool.false_ne_true)] at spelled
      obtain ⟨reads, shows⟩ := ih there after spelled
      refine ⟨⟨inside, parsed, step ▸ reads⟩, ?_⟩
      subst ignored
      exact shows
    | true =>
      rw [List.filter_cons_of_pos matter] at spelled
      cases spelled with
      | cons encodes more =>
        obtain ⟨reads, shows⟩ := ih there after more
        have parsed := parse_locate small here offset (.inr encodes) near
        have shown := shows_locate here offset encodes
        refine ⟨⟨inside, parsed, step ▸ reads⟩, ?_⟩
        rw [locateAll, List.filter_cons_of_pos]
        · exact .cons shown shows
        · cases token with
          | nop => cases matter
          | beginNode | endNode | prop | fdtEnd => rfl

end

/-! ## The header -/

section

variable {header : FdtHeader} {data : List UInt8}

lemma bytesToU32Offset_words {words : List Nat} (small : ∀ value ∈ words, value < 2 ^ 32)
    (after : List UInt8)
    {before : List UInt8} {i k value : Nat} (split : data = before ++ (words.flatMap word ++ after))
    (offset : before.length = i) (found : words[k]? = some value) :
    bytesToU32Offset data (i + 4 * k) = some value := by
  induction words generalizing before i k with
  | nil => cases found
  | cons first words ih =>
    have here : data = before ++ (word first ++ (words.flatMap word ++ after)) := by
      rw [split, List.flatMap_cons, append_assoc]
    cases k with
    | zero =>
      obtain rfl := Option.some.inj found
      have sliced : getRange data i (i + 4) = some (word first) := getRange_at here offset rfl
      change (getRange data i (i + 4)).map fromBeBytes = some first
      rw [sliced, Option.map_some, fromBeBytes_word (small first List.mem_cons_self)]
    | succ k =>
      have there : data = (before ++ word first) ++ (words.flatMap word ++ after) := by
        rw [here, append_assoc]
      have later := ih (fun value member => small value (List.mem_cons_of_mem _ member)) there
        (show (before ++ word first).length = i + 4 by rw [length_append, offset]; rfl) found
      rw [Nat.mul_add, Nat.mul_one, Nat.add_comm (4 * k) 4, ← Nat.add_assoc]
      exact later

lemma newHeader_at (small : ∀ value ∈ headerWords header, value < 2 ^ 32)
    (start : At data 0 ((headerWords header).flatMap word)) :
    FdtHeader.newHeader data = some header := by
  obtain ⟨_, after, split, offset⟩ := start
  have read : ∀ k value, (headerWords header)[k]? = some value → bytesToU32Offset data (4 * k) =
    some value := by
    intro _ _ found
    have words := bytesToU32Offset_words small after split offset found
    rwa [Nat.zero_add] at words
  rw [FdtHeader.newHeader, show bytesToU32Offset data 0 = some header.magic from read 0 _ rfl,
    show bytesToU32Offset data 4 = some header.totalsize from read 1 _ rfl,
    show bytesToU32Offset data 8 = some header.offDtStruct from read 2 _ rfl,
    show bytesToU32Offset data 12 = some header.offDtStrings from read 3 _ rfl,
    show bytesToU32Offset data 16 = some header.offMemRsvmap from read 4 _ rfl,
    show bytesToU32Offset data 20 = some header.version from read 5 _ rfl,
    show bytesToU32Offset data 24 = some header.lastCompVersion from read 6 _ rfl,
    show bytesToU32Offset data 28 = some header.bootCpuidPhys from read 7 _ rfl,
    show bytesToU32Offset data 32 = some header.sizeDtStrings from read 8 _ rfl,
    show bytesToU32Offset data 36 = some header.sizeDtStruct from read 9 _ rfl]
  rfl

lemma block_at {part : List UInt8} {offset size : Nat} (placed : At data offset part)
    (sized : size = part.length)
    (near : offset < 2 ^ 32) (near' : size < 2 ^ 32) :
    (checkedAdd offset size).bind (getRange data offset) = some part := by
  obtain ⟨before, after, split, length⟩ := placed
  rw [checkedAdd_of_lt (by omega), Option.bind_some]
  exact getRange_at split length (by rw [sized])

end

/-! ## Round trip -/

lemma names_eraseAll (trees : List (FdtTrees.Tree Node)) :
    (Tree.eraseAll trees).map Tree.name = trees.map Tree.name := by
  induction trees with
  | nil => rfl
  | cons tree _ ih =>
    rw [Tree.eraseAll, List.map_cons, List.map_cons, ih]
    cases tree
    rfl

mutual

lemma distinct_of_erase : (tree : FdtTrees.Tree Node) → tree.erase.Distinct → tree.Distinct
  | .node _ _ _ children, distinct =>
      ⟨names_eraseAll children ▸ distinct.1, distinctAll_of_erase children distinct.2⟩

lemma distinctAll_of_erase : (trees : List (FdtTrees.Tree Node)) → Tree.DistinctAll
    (Tree.eraseAll trees) →
    Tree.DistinctAll trees
  | [], _ => trivial
  | tree :: trees, distinct =>
      ⟨distinct_of_erase tree distinct.1, distinctAll_of_erase trees distinct.2⟩

end

lemma torn_after {structs strings : List UInt8} {rest : List FdtToken}
    (nothing : List.Forall₂ (Shows structs strings) (rest.filter counts) []) : Torn rest := by
  induction rest with
  | nil => exact .nil
  | cons token _ ih =>
    cases token with
    | nop ctx => exact .leaf (.nop ctx) (ih nothing)
    | beginNode | endNode | prop | fdtEnd => cases nothing

lemma flat_block {tree : FdtTrees.Tree Unit} {header : FdtHeader} {tokens : List (Token Nat)}
    {strings data : List UInt8} (flat : Flattens tree header tokens strings data) :
    ∃ dt structs forest torn marked props, new data = .ok dt ∧ marked.erase = tree ∧
      Block dt structs forest torn ∧ dt.strings = some strings ∧ Fits structs strings 0 forest props
        [marked] := by
  have words := flat.words
  simp only [headerWords, List.forall_mem_cons] at words
  obtain ⟨-, total, offStruct, offStrings, -, -, -, -, sizeStrings, sizeStruct, -⟩ := words
  have parsed := newHeader_at flat.words flat.start
  have accepted : new data = .ok ⟨data, header⟩ := by
    rw [new, FdtHeader.new, parsed]
    dsimp only
    rw [if_pos flat.magic,
      if_pos (.inl (by rw [flat.total] at total ⊢; exact Nat.mod_eq_of_lt total))]
    rfl
  have block : (⟨data, header⟩ : DeviceTree).structs = some (tokens.flatMap tokenBytes) :=
    block_at flat.structs flat.structsSize offStruct sizeStruct
  have stringsBlock : (⟨data, header⟩ : DeviceTree).strings = some strings :=
    block_at flat.stringsAt flat.stringsSize offStrings sizeStrings
  have small : (tokens.flatMap tokenBytes).length < 2 ^ 32 := flat.structsSize ▸ sizeStruct
  have near : strings.length < 2 ^ 32 := flat.stringsSize ▸ sizeStrings
  obtain ⟨reads, shows⟩ : Reads (tokens.flatMap tokenBytes) 0 (locateAll 0 tokens) ∧
      List.Forall₂ (Shows (tokens.flatMap tokenBytes) strings) ((locateAll 0 tokens).filter counts)
        (tree.spell ++ [.fdtEnd]) := reads_locateAll small near (nil_append _).symm rfl flat.spelled
  have single : Tree.spellAll [tree] ++ [Token.fdtEnd] = tree.spell ++ [.fdtEnd] := by
    rw [Tree.spellAll, Tree.spellAll, append_nil]
  rw [← single] at shows
  obtain ⟨forest, marked, token, _, split, erased, fits, shown, more⟩ :=
    fits_all 0 [tree] _ _ _ shows
  cases token with
  | fdtEnd ctx =>
    cases marked with
    | nil => cases erased
    | cons marked others =>
      obtain ⟨same, none_left⟩ := List.cons.inj erased
      cases others with
      | cons => cases none_left
      | nil =>
        rw [split] at reads
        exact ⟨⟨data, header⟩, _, forest, _, marked, _, accepted, same,
          ⟨⟨block, small⟩, reads, .leaf (.fdtEnd ctx) (torn_after more)⟩, stringsBlock, fits⟩
  | beginNode | endNode | prop | nop => exact shown.elim

/-- A blob that a device tree with distinct names of siblings is flattened into is accepted, and the
reader returns the tree. -/
theorem reader_recovers_tree (tree : FdtTrees.Tree Unit) (header : FdtHeader)
    (tokens : List (Token Nat))
    (strings data : List UInt8) (flat : Flattens tree header tokens strings data)
    (distinct : tree.Distinct) :
    ∃ dt marked, DeviceTree.new data = .ok dt ∧ marked.erase = tree ∧ Recovers dt marked := by
  obtain ⟨dt, _, _, _, marked, _, accepted, same, block, stringsBlock, fits⟩ := flat_block flat
  refine ⟨dt, marked, accepted, same, recovers block stringsBlock fits ?_ ?_⟩
  · rw [← flat.rootName, ← same]
    cases marked
    rfl
  · exact distinct_of_erase marked (same ▸ distinct)

/-- One range of a bus: its first 4096 addresses are those from 0x3f000000 on above. -/
def smallRange : List UInt8 := [0, 0, 0, 0, 0, 0, 0, 0, 0, 0, 0, 0, 0x3f, 0, 0, 0, 0, 0, 0x10, 0]

/-- One register block, of four bytes at 16. -/
def smallReg : List UInt8 := [0, 0, 0, 0, 0, 0, 0, 16, 0, 0, 0, 4]

/-- A device on a bus. -/
def smallTree : FdtTrees.Tree Unit :=
  .node () "" [("model", [1, 2, 3])]
    [.node () "bus" [("ranges", smallRange)] [.node () "dev" [("reg", smallReg)] []]]

def smallTokens : List (Token Nat) :=
  [.nop, .beginNode "", .prop 0 [1, 2, 3], .nop, .beginNode "bus", .prop 6 smallRange,
    .beginNode "dev", .prop 13 smallReg, .endNode, .endNode, .endNode, .nop, .fdtEnd]

def smallStrings : List UInt8 :=
    utf8 "model" ++ [0] ++ (utf8 "ranges" ++ [0] ++ (utf8 "reg" ++ [0]))

def smallHeader : FdtHeader := ⟨0xd00dfeed, 181, 40, 164, 0, 17, 16, 0, 17, 124⟩

def smallBlob : List UInt8 :=
  (headerWords smallHeader).flatMap word ++ (smallTokens.flatMap tokenBytes ++ smallStrings)

lemma small_flattens : Flattens smallTree smallHeader smallTokens smallStrings smallBlob := by
  constructor
  case words => decide
  case start => exact ⟨[], _, rfl, rfl⟩
  case magic => rfl
  case total => decide +kernel
  case structs => exact ⟨(headerWords smallHeader).flatMap word, _, rfl, rfl⟩
  case structsSize => decide +kernel
  case stringsAt =>
    refine ⟨(headerWords smallHeader).flatMap word ++ smallTokens.flatMap tokenBytes, [], ?_, ?_⟩
    · rfl
    · decide +kernel
  case stringsSize => decide +kernel
  case spelled =>
    have model : At smallStrings 0 (utf8 "model" ++ [0]) := ⟨[], _, rfl, rfl⟩
    have ranges : At smallStrings 6 (utf8 "ranges" ++ [0]) := ⟨utf8 "model" ++ [0], _, rfl, rfl⟩
    have reg : At smallStrings 13 (utf8 "reg" ++ [0]) :=
      ⟨utf8 "model" ++ [0] ++ (utf8 "ranges" ++ [0]), [], rfl, rfl⟩
    exact .cons ⟨rfl, by decide +kernel⟩ (.cons ⟨rfl, by decide +kernel, model⟩
      (.cons ⟨rfl, by decide +kernel⟩ (.cons ⟨rfl, by decide +kernel, ranges⟩
        (.cons ⟨rfl, by decide +kernel⟩ (.cons ⟨rfl, by decide +kernel, reg⟩
          (.cons trivial (.cons trivial (.cons trivial (.cons trivial .nil)))))))))
  case rootName => rfl

/-- The reader returns the tree of the blob. -/
theorem reader_recovers_tree_small :
    ∃ dt marked, DeviceTree.new smallBlob = .ok dt ∧ marked.erase = smallTree ∧
      Recovers dt marked :=
  reader_recovers_tree smallTree smallHeader smallTokens _ smallBlob small_flattens
    ⟨by decide +kernel, ⟨⟨by decide +kernel, ⟨⟨List.nodup_nil, trivial⟩, trivial⟩⟩, trivial⟩⟩

end R9x.Verif.FdtFlatten
