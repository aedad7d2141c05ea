import R9x.Xtask.Tasks

/-!
# The fences of a task file

`parse_front_matter` does not ask whether the first line is a fence.
-/

namespace R9x.Verif.FrontMatter

open Xtask.Tasks

/-- The first line is a fence. -/
def opened (text : List Char) : Bool := (splitInclusive text).head?.any isFence

/-- The lines after the first one, up to the next fence. -/
def block (text : List Char) : List (List Char) := (splitInclusive text).tail.takeWhile (!isFence ·)

/-- That fence, if there is one, and the lines after it. -/
def closing (text : List Char) : List (List Char) :=
    (splitInclusive text).tail.dropWhile (!isFence ·)

/-- The text has front matter if its first line is a fence and a later one is; the block is what is
between, the body what comes after, and its lines come after those of the block and two fences. -/
structure SplitsAtFences (text : List Char) : Prop where
  found : (parseFrontMatter text).isSome ↔ opened text = true ∧ closing text ≠ []
  block : ∀ found ∈ parseFrontMatter text, found.block = (block text).map lineOf
  body : ∀ found ∈ parseFrontMatter text, found.body = (closing text).tail.flatten
  lines : ∀ found ∈ parseFrontMatter text,
    splitInclusive found.body = (splitInclusive text).drop (found.headerLines.toNat + 2)

variable {text first : List Char} {lines : List (List Char)}

lemma splitInclusive_flatten (text : List Char) : (splitInclusive text).flatten = text := by
  induction text with
  | nil => rfl
  | cons _ _ ih =>
    rw [splitInclusive]
    split
    · rw [List.flatten_cons, ih, List.singleton_append]
    split
    · rename_i none
      rw [none] at ih
      rw [← ih]
      rfl
    rename_i some
    rw [some] at ih
    rw [← ih]
    rfl

/-- The lines after the first are those of the text after it. -/
lemma splitInclusive_rest (same : splitInclusive text = first :: lines) :
    splitInclusive lines.flatten = lines := by
  induction text generalizing first lines with
  | nil => cases same
  | cons _ _ ih =>
    rw [splitInclusive] at same
    split at same
    · cases same
      rw [splitInclusive_flatten]
    split at same
    · cases same
      rfl
    rename_i some
    cases same
    exact ih some

lemma splitInclusive_suffix {front : List (List Char)}
    (same : splitInclusive text = front ++ lines) :
    splitInclusive lines.flatten = lines := by
  induction front generalizing text with
  | nil =>
    obtain rfl : splitInclusive text = lines := same
    rw [splitInclusive_flatten]
  | cons _ _ ih => exact ih (splitInclusive_rest same)

/-- After the first line, the scan ends at the first fence. -/
lemma scan_later (lines : List (List Char)) {i : Nat} (later : 0 < i) (start : Nat)
    (found : List (List Char)) :
    scan lines i start found = (lines.dropWhile (!isFence ·)).head?.map fun close =>
      (found ++ (lines.takeWhile (!isFence ·)).map lineOf,
        start + (lines.takeWhile (!isFence ·)).flatten.length + close.length) := by
  induction lines generalizing i start found with
  | nil => rfl
  | cons raw _ ih =>
    rw [scan]
    by_cases fence : isFence raw = true
    · simp [fence, Nat.ne_of_gt later]
    rw [if_neg fence, if_pos later, ih (Nat.succ_pos i)]
    simp [fence, Nat.add_assoc]

/-- The lines of a text that has a fence after its first line. -/
lemma lines_eq {close : List Char} {rest : List (List Char)}
    (fence : closing text = close :: rest) :
    ∃ first, splitInclusive text = first :: block text ++ close :: rest := by
  cases same : splitInclusive text with
  | nil => simp [closing, same] at fence
  | cons first =>
    refine ⟨first, ?_⟩
    rw [← fence, closing, block, same, List.tail_cons, List.cons_append,
      List.takeWhile_append_dropWhile]

lemma parse_eq (text : List Char) : parseFrontMatter text = (closing text).head?.map fun _ =>
    ⟨(block text).map lineOf, (closing text).tail.flatten, UInt32.ofNat (block text).length⟩ := by
  have scanned : scan (splitInclusive text) 0 0 [] = (closing text).head?.map fun close =>
      ((block text).map lineOf,
        ((splitInclusive text).headD [] ++ (block text).flatten ++ close).length) := by
    rw [closing, block]
    cases splitInclusive text with
    | nil => rfl
    | cons first lines =>
      have skip : scan (first :: lines) 0 0 [] = scan lines 1 first.length [] := by simp [scan]
      rw [skip, scan_later lines Nat.one_pos]
      simp [Nat.add_assoc]
  rw [parseFrontMatter, scanned]
  cases fence : closing text with
  | nil => rfl
  | cons close rest =>
    obtain ⟨first, same⟩ := lines_eq fence
    have whole : text = first ++ (block text).flatten ++ close ++ rest.flatten := by
      have joined := splitInclusive_flatten text
      rw [same] at joined
      simpa using joined.symm
    have body : text.drop (first ++ (block text).flatten ++ close).length = rest.flatten :=
      (congrArg (List.drop _) whole).trans List.drop_left
    simp only [List.head?_cons, Option.map_some, List.tail_cons, same, List.cons_append,
      List.headD_cons, body,
      List.length_map]

/-- For every text: `parse_front_matter` is right exactly if the first line is a fence wherever a
later one is, and the lines of the block can be counted in 32 bits. -/
theorem parse_right_iff (text : List Char) : SplitsAtFences text ↔
    (closing text ≠ [] → opened text = true ∧ (block text).length < 2 ^ 32) := by
  have parsed := parse_eq text
  cases fence : closing text with
  | nil =>
    rw [fence] at parsed
    refine iff_of_true ⟨?_, ?_, ?_, ?_⟩ (absurd rfl)
    all_goals simp [parsed, fence]
  | cons close rest =>
    obtain ⟨first, same⟩ := lines_eq fence
    have lines := splitInclusive_suffix (same.trans (List.append_cons ..))
    rw [fence] at parsed
    have count : (splitInclusive text).length = (block text).length + rest.length + 2 := by
      simp [same]
      omega
    constructor
    · intro right _
      refine ⟨(right.found.mp (by simp [parsed])).1, ?_⟩
      have after := congrArg List.length (right.lines _ parsed)
      simp only [List.tail_cons, lines, List.length_drop, count, UInt32.toNat_ofNat'] at after
      omega
    · intro meets
      obtain ⟨opens, small⟩ := meets (by simp)
      refine ⟨?_, ?_, ?_, ?_⟩
      all_goals simp [parsed, fence, opens, -UInt32.toNat_ofNat']
      rw [lines, same, UInt32.toNat_ofNat', Nat.mod_eq_of_lt small]
      simp

/-- A text without a fence in its first line. -/
theorem unfenced_parsed :
    (parseFrontMatter "a\n---\nb".toList).isSome ∧ opened "a\n---\nb".toList = false := by
  decide +kernel

end R9x.Verif.FrontMatter
