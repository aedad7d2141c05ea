import Mathlib.Algebra.Ring.Nat

/-!
# The task files

`xtask/src/tasks.rs`: the split of a task file into its front matter and its body. Offsets are
counted in characters.
-/

namespace R9x.Xtask.Tasks

/-- `str::split_inclusive` at newlines. -/
def splitInclusive : List Char → List (List Char)
  | [] => []
  | char :: text =>
    if char = '\n' then [char] :: splitInclusive text
    else
      match splitInclusive text with
      | [] => [[char]]
      | line :: lines => (char :: line) :: lines

/-- `char::is_whitespace`. -/
def isWhitespace (char : Char) : Bool :=
  let code := char.toNat
  9 ≤ code ∧ code ≤ 13 ∨ code ∈ [0x20, 0x85, 0xa0, 0x1680, 0x2028, 0x2029, 0x202f, 0x205f, 0x3000] ∨
    0x2000 ≤ code ∧ code ≤ 0x200a

/-- `str::trim_end_matches`. -/
def trimEndMatches (test : Char → Bool) (text : List Char) : List Char :=
    (text.reverse.dropWhile test).reverse

def trim (text : List Char) : List Char := trimEndMatches isWhitespace (text.dropWhile isWhitespace)

/-- The line without its newline. -/
def lineOf (raw : List Char) : List Char := trimEndMatches (· = '\n') raw

def isFence (raw : List Char) : Bool := trim (lineOf raw) = "---".toList

/-- The loop of `parse_front_matter`: the lines of the block, and where the closing fence ends. -/
def scan : List (List Char) → (i lineStart : Nat) → (block : List (List Char)) →
    Option (List (List Char) × Nat)
  | [], _, _, _ => none
  | raw :: lines, i, lineStart, block =>
    if isFence raw then
      if i = 0 then scan lines (i + 1) (lineStart + raw.length) block
      else some (block, lineStart + raw.length)
    else scan lines (i + 1) (lineStart + raw.length)
      (if 0 < i then block ++ [lineOf raw] else block)

/-- What `parse_front_matter` takes from the text. -/
structure FrontMatter where
  block : List (List Char)
  body : List Char
  headerLines : UInt32

def parseFrontMatter (text : List Char) : Option FrontMatter :=
  (scan (splitInclusive text) 0 0 []).map fun (block, closeEnd) =>
    ⟨block, text.drop closeEnd, UInt32.ofNat block.length⟩

end R9x.Xtask.Tasks
