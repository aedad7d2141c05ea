import R9x.Core.Fdt
import Mathlib.Tactic.Common

/-!
# The tokens of a structure block

The loops of the device tree reader go over the positions of the structure block.
-/

namespace R9x.Verif.FdtTokens

open Lib Core.Fdt
open Option (bind_eq_bind bind_some some.inj)
open FdtToken (totalLen)

/-! ## Numbers in bytes -/

lemma fromBeBytes_lt (bytes : List UInt8) : fromBeBytes bytes < 256 ^ bytes.length := by
  have general : ∀ value, bytes.foldl (fun value byte => 256 * value + byte.toNat) value <
      (value + 1) * 256 ^ bytes.length := by
    induction bytes with
    | nil => simp
    | cons byte bytes ih =>
      intro value
      have below := byte.toNat_lt
      calc (byte :: bytes).foldl (fun value byte => 256 * value + byte.toNat) value
          < (256 * value + byte.toNat + 1) * 256 ^ bytes.length := ih _
        _ ≤ (256 * (value + 1)) * 256 ^ bytes.length := Nat.mul_le_mul_right _ (by omega)
        _ = (value + 1) * 256 ^ (byte :: bytes).length := by
            rw [List.length_cons, Nat.pow_succ, Nat.mul_comm 256, Nat.mul_assoc, Nat.mul_comm 256]
  have bound := general 0
  rwa [Nat.zero_add, Nat.one_mul] at bound

lemma bytesToU32_some {bytes : List UInt8} {word : Nat} (read : bytesToU32 bytes = some word) :
    4 ≤ bytes.length ∧ word < 2 ^ 32 := by
  obtain ⟨four, sliced, rfl⟩ := Option.map_eq_some_iff.mp read
  rw [getRange] at sliced
  split at sliced
  · rename_i inside
    cases sliced
    refine ⟨inside.2, ?_⟩
    have bound := fromBeBytes_lt ((bytes.drop 0).take (4 - 0))
    rw [List.length_take] at bound
    calc fromBeBytes ((bytes.drop 0).take (4 - 0)) < 256 ^ min (4 - 0) (bytes.drop 0).length :=
      bound
      _ ≤ 256 ^ 4 := Nat.pow_le_pow_right (by decide) (Nat.min_le_left _ _)
  · cases sliced

lemma wordAt_some {bytes : List UInt8} {i word : Nat}
    (read : (getFrom bytes i).bind bytesToU32 = some word) :
    i + 4 ≤ bytes.length ∧ word < 2 ^ 32 := by
  obtain ⟨rest, dropped, read⟩ := Option.bind_eq_some_iff.mp read
  obtain ⟨inside, bound⟩ := bytesToU32_some read
  rw [getFrom] at dropped
  split at dropped
  · cases dropped
    rw [List.length_drop] at inside
    exact ⟨by omega, bound⟩
  · cases dropped

lemma wordAt_getD_lt (bytes : List UInt8) (i : Nat) : ((getFrom bytes i).bind bytesToU32).getD 0 <
    2 ^ 32 := by
  cases read : (getFrom bytes i).bind bytesToU32 with
  | none => decide
  | some => exact (wordAt_some read).2

lemma align4_eq {n : Nat} (small : n < 2 ^ 34) : align4 n = some (4 * ((n + 3) / 4)) := by
  have low : (2 ^ 64 - n) % 2 ^ 64 &&& 3 = (2 ^ 64 - n) % 2 ^ 64 % 4 :=
    Nat.and_two_pow_sub_one_eq_mod _ 2
  have rounded : n + (2 ^ 64 - n) % 2 ^ 64 % 4 = 4 * ((n + 3) / 4) := by omega
  rw [align4, low, checkedAdd_of_lt (by omega), rounded]

/-! ## Tokens -/

/-- A token that was parsed starts at its position and has at least the four bytes of its tag. -/
structure Parsed (structs : List UInt8) (i : Nat) (token : FdtToken) : Prop where
  inside : i + 4 ≤ structs.length
  start : token.start = i
  least : 4 ≤ token.totalLen
  most : token.totalLen < 2 ^ 33

section

variable {structs : List UInt8} {i : Nat}

def nameSize (structs : List UInt8) (i : Nat) : Nat :=
  match (getFrom structs (i + 4)).bind fun bytes => bytes.idxOf? 0 with
  | some size => 4 * ((size + 4) / 4)
  | none => 0

lemma nameEnd_lt {size : Nat} (found : ((getFrom structs i).bind fun bytes => bytes.idxOf? 0) =
    some size) :
    size < structs.length := by
  obtain ⟨bytes, dropped, found⟩ := Option.bind_eq_some_iff.mp found
  have here := (List.idxOf?_eq_some_iff.mp found).1
  rw [getFrom] at dropped
  split at dropped
  · cases dropped
    rw [List.length_drop] at here
    omega
  · cases dropped

lemma parseToken_begin (small : structs.length < 2 ^ 32)
    (tag : (getFrom structs i).bind bytesToU32 = some 1) :
    parseToken structs i = some (some (.beginNode ⟨i, 4 + nameSize structs i, i + 4⟩)) := by
  have inside := (wordAt_some tag).1
  unfold parseToken
  rw [tag]
  rw [checkedAdd_of_lt (by omega)]
  simp only [bind_eq_bind, bind_some, nameSize]
  cases found : (getFrom structs (i + 4)).bind fun bytes => bytes.idxOf? 0 with
  | none => rfl
  | some size =>
    have bound := nameEnd_lt found
    simp only [checkedAdd_of_lt (show size + 1 < 2 ^ 64 by omega), bind_some,
      align4_eq (show size + 1 < 2 ^ 34 by omega)]
    rw [checkedAdd_of_lt (by omega)]
    rfl

lemma parseToken_prop (small : structs.length < 2 ^ 32)
    (tag : (getFrom structs i).bind bytesToU32 = some 3) :
    parseToken structs i = some (some (.prop ⟨i,
      12 + 4 * ((((getFrom structs (i + 4)).bind bytesToU32).getD 0 + 3) / 4),
      ((getFrom structs (i + 8)).bind bytesToU32).getD 0, i + 12,
      ((getFrom structs (i + 4)).bind bytesToU32).getD 0⟩)) := by
  have inside := (wordAt_some tag).1
  have bound := wordAt_getD_lt structs (i + 4)
  unfold parseToken
  rw [tag]
  rw [checkedAdd_of_lt (by omega), checkedAdd_of_lt (by omega), checkedAdd_of_lt (by omega)]
  simp only [bind_eq_bind, bind_some]
  rw [align4_eq (by omega), bind_some, checkedAdd_of_lt (by omega)]
  rfl

lemma parseToken_tag {word : Nat} (tag : (getFrom structs i).bind bytesToU32 = some word)
    (begins : word ≠ 1) (property : word ≠ 3) :
    parseToken structs i = some none ∨ parseToken structs i = some (some (.endNode ⟨i, 4⟩)) ∨
      parseToken structs i = some (some (.nop ⟨i, 4⟩)) ∨
      parseToken structs i = some (some (.fdtEnd ⟨i, 4⟩)) := by
  unfold parseToken
  rw [tag]
  split
  · rename_i same
    exact absurd (some.inj same) begins
  · exact .inr (.inl rfl)
  · rename_i same
    exact absurd (some.inj same) property
  · exact .inr (.inr (.inl rfl))
  · exact .inr (.inr (.inr rfl))
  · exact .inl rfl

lemma parseToken_spec (small : structs.length < 2 ^ 32) (i : Nat) :
    ∃ token, parseToken structs i = some token ∧ ∀ found, token = some found →
      Parsed structs i found := by
  cases tag : (getFrom structs i).bind bytesToU32 with
  | none =>
    refine ⟨none, ?_, nofun⟩
    rw [parseToken, tag]
  | some word =>
    have inside := (wordAt_some tag).1
    by_cases begins : word = 1
    · subst begins
      refine ⟨_, parseToken_begin small tag, ?_⟩
      rintro _ ⟨⟩
      have size : nameSize structs i < 2 ^ 33 - 4 := by
        rw [nameSize]
        split
        · rename_i size found
          have bound := nameEnd_lt found
          omega
        · decide
      exact ⟨inside, rfl, Nat.le_add_right _ _, by change 4 + nameSize structs i < 2 ^ 33; omega⟩
    by_cases property : word = 3
    · subst property
      refine ⟨_, parseToken_prop small tag, ?_⟩
      rintro _ ⟨⟩
      have bound := wordAt_getD_lt structs (i + 4)
      refine ⟨inside, rfl, ?_, ?_⟩
      · change 4 ≤ 12 + 4 * ((((getFrom structs (i + 4)).bind bytesToU32).getD 0 + 3) / 4)
        omega
      · change 12 + 4 * ((((getFrom structs (i + 4)).bind bytesToU32).getD 0 + 3) / 4) < 2 ^ 33
        omega
    rcases parseToken_tag tag begins property with parsed | parsed | parsed | parsed
    · exact ⟨none, parsed, nofun⟩
    all_goals
      refine ⟨_, parsed, ?_⟩
      rintro _ ⟨⟩
      exact ⟨inside, rfl, Nat.le_refl 4, show 4 < 2 ^ 33 by decide⟩

lemma parsed_of_parseToken (small : structs.length < 2 ^ 32) {token : FdtToken}
    (parsed : parseToken structs i = some (some token)) : Parsed structs i token := by
  obtain ⟨_, returned, spec⟩ := parseToken_spec small i
  exact spec token (some.inj (returned.symm.trans parsed))

end

/-! ## What remains at a position -/

/-- The tokens from a position to where a loop over the structure block stops. -/
def Reads (structs : List UInt8) : Nat → List FdtToken → Prop
  | i, [] => structs.length ≤ i ∨ parseToken structs i = some none
  | i, token :: tokens =>
    i < structs.length ∧ parseToken structs i = some (some token) ∧
      Reads structs (i + token.totalLen) tokens

/-- The tokens from a position, at most so many. -/
def readTokens (structs : List UInt8) : Nat → Nat → List FdtToken
  | 0, _ => []
  | fuel + 1, i =>
    if i < structs.length then
      match parseToken structs i with
      | some (some token) => token :: readTokens structs fuel (i + token.totalLen)
      | _ => []
    else []

/-- The tokens of a structure block. -/
def tokens (structs : List UInt8) : List FdtToken := readTokens structs structs.length 0

section

variable {structs : List UInt8} {i : Nat} {before after : List FdtToken} {token : FdtToken}
  (small : structs.length < 2 ^ 32)
include small

lemma Reads.start_eq (reads : Reads structs i (token :: after)) :
    token.start = i := (parsed_of_parseToken small reads.2.1).start

lemma Reads.at_start (reads : Reads structs i (before ++ token :: after)) :
    Reads structs token.start (token :: after) ∧ i + 4 * before.length ≤ token.start := by
  induction before generalizing i with
  | nil =>
    rw [reads.start_eq small]
    exact ⟨reads, Nat.le_refl i⟩
  | cons first before ih =>
    have least := (parsed_of_parseToken small reads.2.1).least
    obtain ⟨here, later⟩ := ih reads.2.2
    rw [List.length_cons]
    exact ⟨here, by omega⟩

lemma Reads.length_le (reads : Reads structs i after) : after.length ≤ structs.length - i := by
  induction after generalizing i with
  | nil => exact Nat.zero_le _
  | cons token after ih =>
    have parsed := parsed_of_parseToken small reads.2.1
    have fewer := ih reads.2.2
    have inside := parsed.inside
    have least := parsed.least
    rw [List.length_cons]
    omega

lemma reads_readTokens {fuel : Nat} (enough : structs.length ≤ i + fuel) :
    Reads structs i (readTokens structs fuel i) := by
  induction fuel generalizing i with
  | zero => exact .inl enough
  | succ fuel ih =>
    rw [readTokens]
    by_cases inside : i < structs.length
    · rw [if_pos inside]
      obtain ⟨token, parsed, spec⟩ := parseToken_spec small i
      rw [parsed]
      cases token with
      | none => exact .inr parsed
      | some token =>
        have least := (spec token rfl).least
        exact ⟨inside, parsed, ih (by omega)⟩
    rw [if_neg inside]
    exact .inl (Nat.le_of_not_lt inside)

lemma reads_tokens : Reads structs 0 (tokens structs) :=
  reads_readTokens small (Nat.le_of_eq (Nat.zero_add _).symm)

end

/-! ## Scans -/

/-- No node ends that has not begun, from a depth on. -/
def Above : Nat → List FdtToken → Prop
  | _, [] => True
  | depth, .beginNode _ :: tokens => Above (depth + 1) tokens
  | 0, .endNode _ :: _ => False
  | depth + 1, .endNode _ :: tokens => Above depth tokens
  | depth, .prop _ :: tokens | depth, .nop _ :: tokens | depth, .fdtEnd _ :: tokens =>
      Above depth tokens

instance decidableAbove : (depth : Nat) → (tokens : List FdtToken) → Decidable (Above depth tokens)
  | _, [] => .isTrue trivial
  | depth, .beginNode _ :: tokens => decidableAbove (depth + 1) tokens
  | 0, .endNode _ :: _ => .isFalse id
  | depth + 1, .endNode _ :: tokens => decidableAbove depth tokens
  | depth, .prop _ :: tokens => decidableAbove depth tokens
  | depth, .nop _ :: tokens => decidableAbove depth tokens
  | depth, .fdtEnd _ :: tokens => decidableAbove depth tokens

def nodeOf (depth : Nat) (begun : FdtBeginNodeContext) (ended : FdtTokenContext) : Node :=
  ⟨begun.start, begun.nameStart, begun.start + begun.totalLen,
    ended.start + ended.totalLen - begun.start, depth⟩

def findNode (nodeDepth : Nat) : List FdtToken → Nat → Option FdtBeginNodeContext →
    Option (Option Node)
  | [], _, _ => some none
  | .beginNode ctx :: tokens, depth, begun =>
    findNode nodeDepth tokens (depth + 1) (if depth = nodeDepth then some ctx else begun)
  | .endNode _ :: _, 0, _ => none
  | .endNode ctx :: tokens, depth + 1, begun =>
    if depth = nodeDepth then some (begun.map fun begun => nodeOf nodeDepth begun ctx)
    else findNode nodeDepth tokens depth begun
  | .prop _ :: tokens, depth, begun | .nop _ :: tokens, depth, begun | .fdtEnd _ :: tokens,
      depth, begun =>
    findNode nodeDepth tokens depth begun

section

variable {structs : List UInt8} {i depth nodeDepth nextTokenStart fuel : Nat}
  {remaining : List FdtToken}
  {begun : Option FdtBeginNodeContext}

lemma between_eq {ctx : FdtBeginNodeContext} {ended : FdtTokenContext}
    (ordered : ctx.start ≤ ended.start)
    (near : ended.start + ended.totalLen < 2 ^ 64) (depth : Nat) :
    Node.between ctx (ctx.start + ctx.totalLen) ended depth = some (nodeOf depth ctx ended) := by
  rw [Node.between, checkedAdd_of_lt near]
  simp only [bind_eq_bind, bind_some]
  rw [checkedSub_of_le (by omega)]
  rfl

/-- The loop of `node_from_index` is the scan over the tokens that remain. -/
lemma scanNode_eq (small : structs.length < 2 ^ 32) (reads : Reads structs i remaining)
    (deep : depth ≤ i)
    (placed : ∀ ctx, begun = some ctx → ctx.start ≤ i ∧ nextTokenStart = ctx.start + ctx.totalLen)
    (enough : remaining.length < fuel) :
    scanNode structs fuel ⟨i, depth, begun, nextTokenStart, nodeDepth⟩ =
      findNode nodeDepth remaining depth begun := by
  induction remaining generalizing i depth begun nextTokenStart fuel with
  | nil =>
    cases fuel with
    | zero => cases enough
    | succ =>
      rw [scanNode, findNode]
      rcases reads with past | stopped
      · exact if_neg (Nat.not_lt.mpr past)
      rw [stopped]
      exact ite_self _
  | cons token remaining ih =>
    cases fuel with
    | zero => cases enough
    | succ fuel =>
      have fewer : remaining.length < fuel := Nat.lt_of_succ_lt_succ enough
      obtain ⟨inside, parsed, rest⟩ := reads
      have spec := parsed_of_parseToken small parsed
      have least := spec.least
      have most := spec.most
      have start := spec.start
      have step := checkedAdd_of_lt (show i + token.totalLen < 2 ^ 64 by omega)
      have kept : ∀ ctx, begun = some ctx →
          ctx.start ≤ i + token.totalLen ∧ nextTokenStart = ctx.start + ctx.totalLen :=
        fun ctx same => ⟨by have := (placed ctx same).1; omega, (placed ctx same).2⟩
      rw [scanNode, if_pos inside, parsed]
      cases token with
      | beginNode ctx =>
        have deeper := checkedAdd_of_lt (show depth + 1 < 2 ^ 64 by omega)
        simp only [totalLen] at step
        simp only [bind_eq_bind, step, deeper, bind_some, findNode]
        by_cases same : depth = nodeDepth
        · rw [if_pos same, if_pos same]
          apply ih rest (Nat.add_le_add deep (Nat.le_trans (by decide) least)) _ fewer
          rintro _ ⟨⟩
          have here : ctx.start = i := start
          exact ⟨by omega, by rw [here]⟩
        rw [if_neg same, if_neg same]
        exact ih rest (Nat.add_le_add deep (Nat.le_trans (by decide) least)) kept fewer
      | endNode ctx =>
        simp only [totalLen] at step
        cases depth with
        | zero => rfl
        | succ depth =>
          have shallower := checkedSub_of_le (show 1 ≤ depth + 1 by omega)
          simp only [bind_eq_bind, shallower, bind_some, Nat.add_sub_cancel, findNode]
          by_cases same : depth = nodeDepth
          · rw [if_pos same, if_pos same]
            cases begun with
            | none => rfl
            | some ctx' =>
              obtain ⟨ordered, next⟩ := placed ctx' rfl
              have here : ctx.start = i := start
              have near : ctx.start + ctx.totalLen < 2 ^ 64 := by
                have bound : ctx.totalLen < 2 ^ 33 := most
                omega
              simp only [next, between_eq (Nat.le_trans ordered (Nat.le_of_eq here.symm)) near]
              rfl
          rw [if_neg same, if_neg same, step]
          exact ih rest (by omega) kept fewer
      | prop ctx | nop ctx | fdtEnd ctx =>
        simp only [totalLen] at step
        simp only [bind_eq_bind, step, bind_some, findNode]
        exact ih rest (by omega) kept fewer

/-- Once a node has begun, the loop of `nodes` looks for its end as `node_from_index` does. -/
lemma scanNext_begun (ctx : FdtBeginNodeContext) (below : nodeDepth < depth) :
    scanNext structs fuel ⟨i, depth, some ctx, nextTokenStart, nodeDepth⟩ =
      (scanNode structs fuel ⟨i, depth, some ctx, nextTokenStart, nodeDepth⟩).map
        (Option.map fun node => (node, ⟨structs, nextTokenStart, nodeDepth + 1⟩)) := by
  induction fuel generalizing i depth with
  | zero => rfl
  | succ fuel ih =>
    rw [scanNext, scanNode]
    by_cases inside : i < structs.length
    · rw [if_pos inside, if_pos inside]
      cases parseToken structs i with
      | none => rfl
      | some token =>
        cases token with
        | none => rfl
        | some token =>
          cases token with
          | beginNode ctx' =>
            simp only [bind_eq_bind]
            cases checkedAdd i ctx'.totalLen with
            | none => rfl
            | some =>
              cases deeper : checkedAdd depth 1 with
              | none => rfl
              | some =>
                have sum := (checkedAdd_some deeper).1
                simp only [bind_some]
                rw [if_neg (show ¬ depth = nodeDepth by omega)]
                exact ih (by omega)
          | endNode ctx' =>
            simp only [bind_eq_bind]
            cases shallower : checkedSub depth 1 with
            | none => rfl
            | some depth' =>
              have difference : depth' = depth - 1 := by
                rw [checkedSub_of_le (by omega)] at shallower
                exact (some.inj shallower).symm
              simp only [bind_some]
              by_cases same : depth' = nodeDepth
              · rw [if_pos same, if_pos same]
                have here : depth = nodeDepth + 1 := by omega
                cases Node.between ctx nextTokenStart ctx' nodeDepth with
                | none => rfl
                | some =>
                  rw [here]
                  rfl
              rw [if_neg same, if_neg same]
              cases checkedAdd i ctx'.totalLen with
              | none => rfl
              | some => exact ih (by omega)
          | prop ctx' | nop ctx' | fdtEnd ctx' =>
            simp only [bind_eq_bind]
            cases checkedAdd i ctx'.totalLen with
            | none => rfl
            | some => exact ih below
    · rw [if_neg inside, if_neg inside]
      rfl

def nextNode (structs : List UInt8) : List FdtToken → Nat → Option (Option (Node × NodesIter))
  | [], _ => some none
  | .beginNode ctx :: tokens, depth =>
    (findNode depth tokens (depth + 1) (some ctx)).map
      (Option.map fun node => (node, ⟨structs, ctx.start + ctx.totalLen, depth + 1⟩))
  | .endNode _ :: _, 0 => none
  | .endNode _ :: tokens, depth + 1 => nextNode structs tokens depth
  | .prop _ :: tokens, depth | .nop _ :: tokens, depth | .fdtEnd _ :: tokens, depth =>
    nextNode structs tokens depth

lemma scanNext_eq (small : structs.length < 2 ^ 32) (reads : Reads structs i remaining)
    (deep : depth ≤ i)
    (enough : remaining.length < fuel) :
    scanNext structs fuel ⟨i, depth, none, nextTokenStart, nodeDepth⟩ =
      nextNode structs remaining depth := by
  induction remaining generalizing i depth fuel with
  | nil =>
    cases fuel with
    | zero => cases enough
    | succ =>
      rw [scanNext, nextNode]
      rcases reads with past | stopped
      · exact if_neg (Nat.not_lt.mpr past)
      rw [stopped]
      exact ite_self _
  | cons token remaining ih =>
    cases fuel with
    | zero => cases enough
    | succ fuel =>
      have fewer : remaining.length < fuel := Nat.lt_of_succ_lt_succ enough
      obtain ⟨inside, parsed, rest⟩ := reads
      have spec := parsed_of_parseToken small parsed
      have least := spec.least
      have most := spec.most
      have step := checkedAdd_of_lt (show i + token.totalLen < 2 ^ 64 by omega)
      rw [scanNext, if_pos inside, parsed]
      cases token with
      | beginNode ctx =>
        have here : ctx.start = i := spec.start
        have deeper := checkedAdd_of_lt (show depth + 1 < 2 ^ 64 by omega)
        simp only [totalLen] at step
        simp only [bind_eq_bind, step, deeper, bind_some, nextNode, Option.isNone_none]
        have inner : depth + 1 ≤ i + (FdtToken.beginNode ctx).totalLen := by omega
        have placed : ∀ other, some ctx = some other → other.start ≤
          i + (FdtToken.beginNode ctx).totalLen ∧
            i + ctx.totalLen = other.start + other.totalLen := by
          rintro _ ⟨⟩
          exact ⟨by omega, by rw [here]⟩
        rw [if_pos trivial, scanNext_begun ctx (Nat.lt_succ_self depth), here]
        exact congrArg _ (scanNode_eq small rest inner placed fewer)
      | endNode =>
        simp only [totalLen] at step
        cases depth with
        | zero => rfl
        | succ depth =>
          have shallower := checkedSub_of_le (show 1 ≤ depth + 1 by omega)
          simp only [bind_eq_bind, shallower, bind_some, Nat.add_sub_cancel, step, nextNode]
          exact ih rest (by omega) fewer
      | prop ctx | nop ctx | fdtEnd ctx =>
        simp only [totalLen] at step
        simp only [bind_eq_bind, step, bind_some, nextNode]
        exact ih rest (by omega) fewer

end

/-! ## The reader -/

/-- The structure block of a device tree. -/
structure Opened (dt : DeviceTree) (structs : List UInt8) : Prop where
  block : dt.structs = some structs
  small : structs.length < 2 ^ 32

variable {dt : DeviceTree} {structs : List UInt8} {i depth : Nat} {remaining : List FdtToken}

lemma getRange_some {bytes slice : List UInt8} {start stop : Nat}
    (sliced : getRange bytes start stop = some slice) :
    start ≤ stop ∧ stop ≤ bytes.length ∧ slice.length = stop - start := by
  rw [getRange] at sliced
  split at sliced
  · rename_i inside
    cases sliced
    rw [List.length_take, List.length_drop]
    exact ⟨inside.1, inside.2, by omega⟩
  · cases sliced

lemma structs_length (block : dt.structs = some structs) :
    structs.length = dt.header.sizeDtStruct := by
  obtain ⟨stop, added, sliced⟩ := Option.bind_eq_some_iff.mp block
  have sum := (checkedAdd_some added).1
  have length := (getRange_some sliced).2.2
  omega

variable (opened : Opened dt structs) (reads : Reads structs i remaining)
include opened reads

lemma Opened.enough : remaining.length < dt.rounds := by
  have fewer := reads.length_le opened.small
  have length := structs_length opened.block
  rw [DeviceTree.rounds]
  omega

lemma Opened.nodeFromIndex (deep : depth ≤ i) :
    dt.nodeFromIndex i depth = findNode depth remaining depth none := by
  rw [DeviceTree.nodeFromIndex, opened.block]
  exact scanNode_eq opened.small reads deep nofun (opened.enough reads)

lemma Opened.nextNode (deep : depth ≤ i) :
    NodesIter.next dt ⟨structs, i, depth⟩ = nextNode structs remaining depth :=
  scanNext_eq opened.small reads deep (opened.enough reads)

end R9x.Verif.FdtTokens
