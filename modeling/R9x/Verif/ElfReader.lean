import R9x.Port.Elf
import Mathlib.Data.List.Basic

/-!
# What the ELF reader accepts

The fields of an image are numbers at fixed places.
-/

namespace R9x.Verif.ElfReader

open Lib Port.Elf
open List (range replicate)

def field (elf : List Byte) (off count : Nat) : Nat := fromLeBytes ((elf.drop off).take count)

/-- `e_phoff`. -/
abbrev phoff (elf : List Byte) : Nat := field elf 32 8

/-- `e_phnum`. -/
abbrev phnum (elf : List Byte) : Nat := field elf 56 2

/-- `e_shoff`. -/
abbrev shoff (elf : List Byte) : Nat := field elf 40 8

/-- `e_shnum`. -/
abbrev shnum (elf : List Byte) : Nat := field elf 60 2

/-- The segment of a program header, if it is to be loaded. -/
def segmentAt (elf : List Byte) (i : Nat) : Option Segment :=
  let base := phoff elf + i * phdrSize
  if field elf base 4 = 1 then
    some ⟨field elf (base + 16) 8, field elf (base + 8) 8, field elf (base + 32) 8,
      field elf (base + 40) 8, field elf (base + 4) 4 % 2 = 1⟩
  else none

/-- The segments of the first program headers. -/
def loads (elf : List Byte) (count : Nat) : List Segment := (range count).filterMap (segmentAt elf)

/-- A segment whose file part is in the image and not longer than the segment. -/
def SegmentFits (elf : List Byte) (seg : Segment) : Prop :=
  seg.filesz ≤ seg.memsz ∧ seg.offset + seg.filesz < 2 ^ 64 ∧ seg.offset + seg.filesz ≤ elf.length

/-- A complete 64-bit little-endian header of an executable, a table of program headers inside the
image, and 1 to 16 segments that fit. -/
structure WellFormed (elf : List Byte) : Prop where
  header : ehdrSize ≤ elf.length
  ident : elf.take 4 = [0x7f, 0x45, 0x4c, 0x46] ∧ elf.getD 4 0 = 2 ∧ elf.getD 5 0 = 1
  exec : field elf 16 2 = 2
  entries : field elf 54 2 = phdrSize
  table : phoff elf + phnum elf * phdrSize < 2 ^ 64 ∧ phoff elf + phnum elf * phdrSize ≤ elf.length
  some : loads elf (phnum elf) ≠ []
  few : (loads elf (phnum elf)).length ≤ maxSegments
  fits : ∀ seg ∈ loads elf (phnum elf), SegmentFits elf seg

variable {elf : List Byte}

lemma readLe_field {off count : Nat} (inside : off + count ≤ elf.length) :
    readLe elf off count = .ok (field elf off count) := if_pos inside

lemma readLe_header (header : 64 ≤ elf.length) (off count : Nat) (small : off + count ≤ 64) :
    readLe elf off count = .ok (field elf off count) := readLe_field (Nat.le_trans small header)

/-! ## Program headers -/

section

variable {segments : List Segment} {i : Nat} {seg : Segment}

lemma pushSegment_skips (inside : phoff elf + (i + 1) * phdrSize ≤ elf.length)
    (other : segmentAt elf i = none) : pushSegment elf (phoff elf) segments i = .ok segments := by
  rw [phdrSize] at inside
  have type : field elf (phoff elf + i * phdrSize) 4 ≠ 1 := by
    intro load
    simp [segmentAt, load] at other
  have read : readLe elf (phoff elf + i * phdrSize) 4 = .ok _ :=
    readLe_field (by rw [phdrSize]; omega)
  simp [pushSegment, readU32, read, type, bind, Except.bind, pure, Except.pure]

lemma pushSegment_loads (segments : List Segment)
    (inside : phoff elf + (i + 1) * phdrSize ≤ elf.length)
    (load : segmentAt elf i = some seg) :
    (SegmentFits elf seg ∧ segments.length ≠ maxSegments →
      pushSegment elf (phoff elf) segments i = .ok (segments ++ [seg])) ∧
    (¬ (SegmentFits elf seg ∧ segments.length ≠ maxSegments) →
      ∃ err, pushSegment elf (phoff elf) segments i = .error (.refused err)) := by
  rw [segmentAt] at load
  split at load
  · rename_i type
    cases load
    generalize place : phoff elf + i * phdrSize = base at type
    have reads : ∀ off count, off + count ≤ phdrSize →
        readLe elf (base + off) count = .ok (field elf (base + off) count) := by
      intro off count small
      apply readLe_field
      rw [Nat.succ_mul] at inside
      omega
    have first := reads 0 4 (by decide)
    rw [Nat.add_zero] at first
    simp only [pushSegment, place, readU32, readU64, first, reads 4 4 (by decide),
      reads 8 8 (by decide),
      reads 16 8 (by decide), reads 32 8 (by decide), reads 40 8 (by decide), type, bind,
        Except.bind,
      SegmentFits, ne_eq, not_true, if_false, throw, throwThe, MonadExceptOf.throw, pure,
        Except.pure]
    by_cases long : field elf (base + 40) 8 < field elf (base + 32) 8
    · rw [if_pos long]
      exact ⟨fun fits => absurd long (Nat.not_lt_of_le fits.1.1), fun _ => ⟨_, rfl⟩⟩
    rw [if_neg long, checkedAdd]
    by_cases small : field elf (base + 8) 8 + field elf (base + 32) 8 < 2 ^ 64
    · rw [if_pos small]
      simp only [okOr]
      by_cases past : elf.length < field elf (base + 8) 8 + field elf (base + 32) 8
      · rw [if_pos past]
        exact ⟨fun fits => absurd past (Nat.not_lt_of_le fits.1.2.2), fun _ => ⟨_, rfl⟩⟩
      rw [if_neg past]
      by_cases full : segments.length = maxSegments
      · rw [if_pos full]
        exact ⟨fun fits => absurd full fits.2, fun _ => ⟨_, rfl⟩⟩
      rw [if_neg full]
      exact ⟨fun _ => rfl, fun bad =>
        absurd ⟨⟨Nat.le_of_not_lt long, small, Nat.le_of_not_lt past⟩, full⟩ bad⟩
    rw [if_neg small]
    exact ⟨fun fits => absurd fits.1.2.1 small, fun _ => ⟨_, rfl⟩⟩
  · cases load

lemma loads_succ (elf : List Byte) (count : Nat) :
    loads elf (count + 1) = loads elf count ++ (segmentAt elf count).toList := by
  rw [loads, List.range_succ, List.filterMap_append, loads]
  congr 1

def LoadsFit (elf : List Byte) (count : Nat) : Prop :=
  (∀ seg ∈ loads elf count, SegmentFits elf seg) ∧ (loads elf count).length ≤ maxSegments

lemma foldlM_pushSegment {count : Nat} (inside : phoff elf + count * phdrSize ≤ elf.length) :
    (LoadsFit elf count → (range count).foldlM (pushSegment elf (phoff elf)) [] =
      .ok (loads elf count)) ∧
    (¬ LoadsFit elf count →
      ∃ err, (range count).foldlM (pushSegment elf (phoff elf)) [] = .error (.refused err)) := by
  induction count with
  | zero => exact ⟨fun _ => rfl, fun bad => absurd ⟨nofun, Nat.zero_le _⟩ bad⟩
  | succ count ih =>
    obtain ⟨returns, refuses⟩ := ih (by rw [Nat.succ_mul] at inside; omega)
    rw [List.range_succ, List.foldlM_append]
    simp only [List.foldlM_cons, List.foldlM_nil]
    cases found : segmentAt elf count with
    | none =>
      have same : loads elf (count + 1) = loads elf count := by
        rw [loads_succ, found, Option.toList_none, List.append_nil]
      rw [LoadsFit, same]
      refine ⟨fun fits => ?_, fun bad => ?_⟩
      · rw [returns fits]
        simp only [bind, Except.bind, pushSegment_skips inside found]
        rfl
      · obtain ⟨err, refused⟩ := refuses bad
        rw [refused]
        exact ⟨err, rfl⟩
    | some seg =>
      have more : loads elf (count + 1) = loads elf count ++ [seg] := by
        rw [loads_succ, found, Option.toList_some]
      have split : LoadsFit elf (count + 1) ↔ LoadsFit elf count ∧
          (SegmentFits elf seg ∧ (loads elf count).length ≠ maxSegments) := by
        rw [LoadsFit, LoadsFit, more, List.length_append, List.length_singleton,
          List.forall_mem_append,
          List.forall_mem_singleton]
        refine ⟨fun all => ⟨⟨all.1.1, by omega⟩, all.1.2, by omega⟩, fun all =>
          ⟨⟨all.1.1, all.2.1⟩, ?_⟩⟩
        omega
      rw [split, more]
      obtain ⟨pushes, stops⟩ := pushSegment_loads (loads elf count) inside found
      refine ⟨fun fits => ?_, fun bad => ?_⟩
      · rw [returns fits.1]
        simp only [bind, Except.bind, pushes fits.2]
        rfl
      · by_cases fits : LoadsFit elf count
        · obtain ⟨err, refused⟩ := stops fun seg => bad ⟨fits, seg⟩
          rw [returns fits]
          simp only [bind, Except.bind, refused]
          exact ⟨err, rfl⟩
        · obtain ⟨err, refused⟩ := refuses fits
          rw [refused]
          exact ⟨err, rfl⟩

end

/-! ## Section headers -/

/-- A header of a symbol table that the reader takes. -/
def isSymtab (elf : List Byte) (i : Nat) : Bool :=
  let base := shoff elf + i * shdrSize
  field elf (base + 4) 4 = 2 ∧ field elf (base + 56) 8 = symentSize ∧ field elf (base + 40) 4 <
    shnum elf

/-- Where the symbol table of a section header ends. -/
def symtabEnd (elf : List Byte) (i : Nat) : Nat :=
  field elf (shoff elf + i * shdrSize + 24) 8 + field elf (shoff elf + i * shdrSize + 32) 8

/-- The section headers are used. -/
def HasSections (elf : List Byte) : Prop :=
    0 < shnum elf ∧ 0 < shoff elf ∧ field elf 58 2 = shdrSize

/-- The sums of the section headers fit in 64 bits: the end of their table, and the end of the first
symbol table that the reader takes. -/
structure SectionsFit (elf : List Byte) : Prop where
  table : HasSections elf → shoff elf + shnum elf * shdrSize < 2 ^ 64
  symtab : HasSections elf → shoff elf + shnum elf * shdrSize ≤ elf.length →
    ∀ i, (range (shnum elf)).find? (isSymtab elf) = some i → symtabEnd elf i < 2 ^ 64

/-- A symbol table inside the image. -/
def SymtabInside (elf : List Byte) (tab : SymTable) : Prop :=
  tab.offset + symentSize * tab.nsyms ≤ elf.length ∧ tab.strtabOffset ≤ elf.length

def Reads (elf : List Byte) (fits : Prop) (result : Except Stop (Option SymTable)) : Prop :=
  ¬ fits ∧ result = .error .overflow ∨
    fits ∧ ∃ symtab, result = .ok symtab ∧ ∀ tab, symtab = some tab → SymtabInside elf tab

/-- The loop over the section headers. -/
lemma findSymtab_reads (inside : shoff elf + shnum elf * shdrSize ≤ elf.length) {indices : List Nat}
    (bound : ∀ i ∈ indices, i < shnum elf) :
    Reads elf (∀ i, indices.find? (isSymtab elf) = some i → symtabEnd elf i < 2 ^ 64)
      (findSymtab elf (shoff elf) (shnum elf) indices) := by
  have reads : ∀ i < shnum elf, ∀ off count, off + count ≤ shdrSize →
      readLe elf (shoff elf + i * shdrSize + off) count =
        .ok (field elf (shoff elf + i * shdrSize + off) count) := by
    intro i early off count small
    apply readLe_field
    have whole : (i + 1) * shdrSize ≤ shnum elf * shdrSize := Nat.mul_le_mul_right _ early
    rw [Nat.succ_mul] at whole
    omega
  induction indices with
  | nil => exact .inr ⟨nofun, none, rfl, nofun⟩
  | cons i _ ih =>
    obtain ⟨early, bound⟩ := List.forall_mem_cons.mp bound
    have later := ih bound
    have read := reads i early
    rw [List.find?_cons]
    simp only [findSymtab, readU32, readU64, read 4 4 (by decide), bind, Except.bind]
    by_cases type : field elf (shoff elf + i * shdrSize + 4) 4 = 2
    · rw [if_neg (not_not.mpr type)]
      simp only [read 24 8 (by decide), read 32 8 (by decide), read 40 4 (by decide),
        read 56 8 (by decide)]
      by_cases usable : field elf (shoff elf + i * shdrSize + 56) 8 = symentSize ∧
          field elf (shoff elf + i * shdrSize + 40) 4 < shnum elf
      · have skipped : ¬ (field elf (shoff elf + i * shdrSize + 56) 8 ≠ symentSize ∨
            field elf (shoff elf + i * shdrSize + 40) 4 ≥ shnum elf) := by
          rintro (other | other)
          · exact other usable.1
          · exact absurd usable.2 (Nat.not_lt_of_le other)
        have taken : isSymtab elf i = true := decide_eq_true ⟨type, usable⟩
        rw [if_neg skipped, taken]
        simp only [reads _ usable.2 24 8 (by decide), checkedAdd]
        by_cases small : symtabEnd elf i < 2 ^ 64
        · have fits : ∀ j, some i = some j → symtabEnd elf j < 2 ^ 64 := by
            intro _ same
            rwa [← Option.some.inj same]
          rw [symtabEnd] at small
          rw [if_pos small]
          refine .inr ⟨fits, ?_⟩
          dsimp only
          split
          · rename_i within
            refine ⟨_, rfl, fun tab same => ?_⟩
            cases same
            exact ⟨Nat.le_trans (Nat.add_le_add_left (Nat.mul_div_le _ _) _) within.1, within.2⟩
          · exact ⟨none, rfl, nofun⟩
        refine .inl ⟨fun fits => small (fits i rfl), ?_⟩
        rw [symtabEnd] at small
        rw [if_neg small]
        rfl
      have skipped : field elf (shoff elf + i * shdrSize + 56) 8 ≠ symentSize ∨
          field elf (shoff elf + i * shdrSize + 40) 4 ≥ shnum elf := by
        rw [Classical.not_and_iff_not_or_not] at usable
        exact usable.imp_right Nat.le_of_not_lt
      have passed : isSymtab elf i = false := decide_eq_false fun taken => usable taken.2
      rw [if_pos skipped, passed]
      exact later
    · have passed : isSymtab elf i = false := decide_eq_false fun taken => type taken.1
      rw [if_pos type, passed]
      exact later

lemma parseSymtab_case (header : ehdrSize ≤ elf.length) :
    (HasSections elf ∧ ¬ shoff elf + shnum elf * shdrSize < 2 ^ 64 ∧
      parseSymtab elf = .error (.refused .truncated)) ∨
    (HasSections elf → shoff elf + shnum elf * shdrSize < 2 ^ 64) ∧
      Reads elf (SectionsFit elf) (parseSymtab elf) := by
  have reads := readLe_header header
  simp only [parseSymtab, readU64, readU16, reads 40 8 (by decide), reads 58 2 (by decide),
    reads 60 2 (by decide), bind, Except.bind]
  by_cases used : shnum elf > 0 ∧ shoff elf > 0 ∧ field elf 58 2 = shdrSize
  · rw [if_pos used, checkedAdd]
    by_cases small : shoff elf + shnum elf * shdrSize < 2 ^ 64
    · rw [if_pos small]
      refine .inr ⟨fun _ => small, ?_⟩
      simp only [okOr]
      by_cases inside : shoff elf + shnum elf * shdrSize ≤ elf.length
      · rw [if_pos inside]
        rcases findSymtab_reads inside (fun i => List.mem_range.mp) with ⟨unfit, panics⟩
          | ⟨fits, reads⟩
        · exact .inl ⟨fun fits => unfit (fits.symtab used inside), panics⟩
        · exact .inr ⟨⟨fun _ => small, fun _ _ => fits⟩, reads⟩
      rw [if_neg inside]
      exact .inr ⟨⟨fun _ => small, fun _ within => absurd within inside⟩, none, rfl,
        fun _ none => by cases none⟩
    rw [if_neg small]
    exact .inl ⟨used, small, rfl⟩
  rw [if_neg used]
  exact .inr ⟨fun uses => absurd uses used,
    .inr ⟨⟨fun uses => absurd uses used, fun uses => absurd uses used⟩, none, rfl,
      fun _ none => by cases none⟩⟩

/-! ## Whole images -/

lemma parse_wellFormed (well : WellFormed elf) :
    parse elf = (parseSymtab elf).map fun symtab =>
      ⟨field elf 24 8, loads elf (phnum elf), symtab⟩ := by
  have header := well.header
  rw [ehdrSize] at header
  have reads := readLe_header header
  have positive : phnum elf > 0 := by
    refine Nat.pos_of_ne_zero fun zero => well.some ?_
    rw [zero]
    rfl
  have folds := (foldlM_pushSegment well.table.2).1 ⟨well.fits, well.few⟩
  have long : ¬ elf.length < 16 := by omega
  have complete : ¬ elf.length < ehdrSize := Nat.not_lt_of_le well.header
  have past : ¬ phoff elf + phnum elf * phdrSize > elf.length := Nat.not_lt_of_le well.table.2
  simp only [parse, readU16, readU64, reads 16 2 (by decide), reads 24 8 (by decide),
    reads 32 8 (by decide), reads 54 2 (by decide), reads 56 2 (by decide), long, well.ident.1,
    well.ident.2.1, well.ident.2.2, complete, well.exec, positive, well.entries,
    checkedAdd_of_lt well.table.1, okOr, past, folds, well.some, ne_eq, not_true, if_false,
    if_true, bind, Except.bind]
  cases parseSymtab elf with
  | error stop | ok symtab => rfl

/-- An image that is not well formed is refused. -/
lemma parse_refused (bad : ¬ WellFormed elf) : ∃ err, parse elf = .error (.refused err) := by
  by_contra other
  have refuses : ∀ err, parse elf ≠ .error (.refused err) := fun err refused => other ⟨err, refused⟩
  have long : ¬ elf.length < 16 := by
    intro short
    exact refuses .truncated (by simp only [parse, short, if_true]; rfl)
  have magic : elf.take 4 = [0x7f, 0x45, 0x4c, 0x46] := by
    by_contra wrong
    exact refuses .notElf
      (by simp only [parse, long, wrong, if_false, ne_eq, not_false_iff, if_true]; rfl)
  have wide : elf.getD 4 0 = 2 := by
    by_contra wrong
    exact refuses .not64 (by
      simp only [parse, long, magic, wrong, if_false, ne_eq, not_true, not_false_iff, if_true]
      rfl)
  have little : elf.getD 5 0 = 1 := by
    by_contra wrong
    exact refuses .wrongEndian (by
      simp only [parse, long, magic, wide, wrong, if_false, ne_eq, not_true, not_false_iff, if_true]
      rfl)
  have complete : ¬ elf.length < ehdrSize := by
    intro short
    exact refuses .truncated (by
      simp only [parse, long, magic, wide, little, short, if_false, ne_eq, not_true, if_true]
      rfl)
  have header := Nat.le_of_not_lt complete
  have reads := readLe_header header
  simp only [parse, readU16, readU64, reads 16 2 (by decide), reads 24 8 (by decide),
    reads 32 8 (by decide), reads 54 2 (by decide), reads 56 2 (by decide), long, magic,
    wide, little, complete, ne_eq, not_true, if_false, bind, Except.bind] at refuses
  have exec : field elf 16 2 = 2 := by
    by_contra wrong
    exact refuses .notExec (by rw [if_pos wrong]; rfl)
  simp only [exec, not_true, if_false] at refuses
  have positive : phnum elf > 0 := by
    by_contra none
    have zero : phnum elf = 0 := by omega
    exact refuses .noLoadSegment (by simp only [zero, gt_iff_lt, Nat.lt_irrefl, if_false]; rfl)
  simp only [positive, if_true] at refuses
  have entries : field elf 54 2 = phdrSize := by
    by_contra wrong
    exact refuses .truncated (by rw [if_pos wrong]; rfl)
  simp only [entries, not_true, if_false] at refuses
  have small : phoff elf + phnum elf * phdrSize < 2 ^ 64 := by
    by_contra large
    exact refuses .truncated (by rw [checkedAdd, if_neg large]; rfl)
  simp only [checkedAdd_of_lt small, okOr] at refuses
  have inside : phoff elf + phnum elf * phdrSize ≤ elf.length := by
    by_contra past
    exact refuses .truncated (by rw [if_pos (Nat.lt_of_not_le past)]; rfl)
  simp only [gt_iff_lt, Nat.not_lt_of_le inside, if_false] at refuses
  have fits : LoadsFit elf (phnum elf) := by
    by_contra unfit
    obtain ⟨err, fails⟩ := (foldlM_pushSegment inside).2 unfit
    exact refuses err (by rw [fails])
  simp only [(foldlM_pushSegment inside).1 fits] at refuses
  have some : loads elf (phnum elf) ≠ [] := by
    intro none
    exact refuses .noLoadSegment (by rw [if_pos none]; rfl)
  exact bad ⟨header, ⟨magic, wide, little⟩, exec, entries, ⟨small, inside⟩, some, fits.2, fits.1⟩

lemma parse_ok {image : Image} (parsed : parse elf = .ok image) : WellFormed elf ∧ SectionsFit elf ∧
    (image.entry = field elf 24 8 ∧ image.segments = loads elf (phnum elf)) ∧
    ∀ tab, image.symtab = some tab → SymtabInside elf tab := by
  by_cases well : WellFormed elf
  · rw [parse_wellFormed well] at parsed
    rcases parseSymtab_case well.header with ⟨-, -, refused⟩
      | ⟨-, ⟨-, panics⟩ | ⟨fits, _, reads, within⟩⟩
    · rw [refused] at parsed
      cases parsed
    · rw [panics] at parsed
      cases parsed
    rw [reads] at parsed
    cases parsed
    exact ⟨well, fits, ⟨rfl, rfl⟩, within⟩
  obtain ⟨_, refused⟩ := parse_refused well
  rw [refused] at parsed
  cases parsed

/-- An image that is accepted is well formed, and is read as it says; and an image that is well
formed is accepted, unless the end of the section headers overflows. -/
theorem parse_exact (elf : List Byte) :
    (∀ image, parse elf = .ok image → WellFormed elf ∧ image.entry = field elf 24 8 ∧
      image.segments = loads elf (phnum elf)) ∧
    (parse elf ≠ .error .overflow → WellFormed elf → shoff elf + shnum elf * shdrSize < 2 ^ 64 →
      ∃ image, parse elf = .ok image) := by
  refine ⟨fun image parsed => ?_, fun returns well small => ?_⟩
  · obtain ⟨well, -, loaded, -⟩ := parse_ok parsed
    exact ⟨well, loaded⟩
  · rw [parse_wellFormed well] at returns ⊢
    rcases parseSymtab_case well.header with ⟨-, large, -⟩ | ⟨-, ⟨-, panics⟩ | ⟨-, _, reads, -⟩⟩
    · exact absurd small large
    · rw [panics] at returns
      exact absurd rfl returns
    rw [reads]
    exact ⟨_, rfl⟩

/-! ## Optional sections -/

/-- Reading an image panics nowhere, accepts it exactly if it is well formed, reads its entry point
and its segments, and gives a symbol table inside it. -/
structure ReadsSafely (elf : List Byte) : Prop where
  returns : parse elf ≠ .error .overflow
  accepted : (∃ image, parse elf = .ok image) ↔ WellFormed elf
  loaded : ∀ image, parse elf = .ok image → image.entry = field elf 24 8 ∧
    image.segments = loads elf (phnum elf)
  symtab : ∀ image tab, parse elf = .ok image → image.symtab = some tab → SymtabInside elf tab

/-- Two images with the same length, the same program headers, and the same ELF header but for the
fields about sections. -/
structure SameLoad (elf other : List Byte) : Prop where
  length : other.length = elf.length
  bytes : ∀ i, i < 40 ∨ 48 ≤ i ∧ i < 58 ∨ phoff elf ≤ i ∧ i < phoff elf + phnum elf * phdrSize →
    other[i]? = elf[i]?

variable {other : List Byte}

section

variable (same : SameLoad elf other)
include same

lemma SameLoad.field {off count : Nat} (inside : ∀ i, off ≤ i → i < off + count →
      i < 40 ∨ 48 ≤ i ∧ i < 58 ∨ phoff elf ≤ i ∧ i < phoff elf + phnum elf * phdrSize) :
    ElfReader.field other off count = ElfReader.field elf off count := by
  rw [ElfReader.field, ElfReader.field]
  congr 1
  apply List.ext_getElem?
  intro i
  rw [List.getElem?_take, List.getElem?_take, List.getElem?_drop, List.getElem?_drop]
  split
  · exact same.bytes _ (inside _ (Nat.le_add_right _ _) (by omega))
  · rfl

lemma SameLoad.loads : ElfReader.loads other (phnum other) = ElfReader.loads elf (phnum elf) := by
  have place : phoff other = phoff elf := same.field fun i _ _ => by omega
  have count : phnum other = phnum elf := same.field fun i _ _ => by omega
  rw [count, ElfReader.loads, ElfReader.loads]
  refine List.filterMap_congr fun i member => ?_
  have early := List.mem_range.mp member
  have whole : (i + 1) * phdrSize ≤ phnum elf * phdrSize := Nat.mul_le_mul_right _ early
  have reads : ∀ off count, off + count ≤ phdrSize →
      ElfReader.field other (phoff elf + i * phdrSize + off) count =
        ElfReader.field elf (phoff elf + i * phdrSize + off) count := by
    intro off count small
    rw [phdrSize] at small ⊢
    exact same.field fun j _ _ => .inr (.inr ⟨by omega, by rw [phdrSize]; omega⟩)
  have first := reads 0 4 (by decide)
  rw [Nat.add_zero] at first
  simp only [segmentAt, place, first, reads 4 4 (by decide), reads 8 8 (by decide),
    reads 16 8 (by decide),
    reads 32 8 (by decide), reads 40 8 (by decide)]

lemma SameLoad.symm : SameLoad other elf := by
  have place : phoff other = phoff elf := same.field fun i _ _ => by omega
  have count : phnum other = phnum elf := same.field fun i _ _ => by omega
  refine ⟨same.length.symm, fun i inside => ?_⟩
  rw [place, count] at inside
  exact (same.bytes i inside).symm

lemma SameLoad.wellFormed (well : WellFormed elf) : WellFormed other := by
  have place : phoff other = phoff elf := same.field fun i _ _ => by omega
  have count : phnum other = phnum elf := same.field fun i _ _ => by omega
  have byte : ∀ i < 40, other.getD i 0 = elf.getD i 0 := by
    intro i early
    rw [List.getD_eq_getElem?_getD, same.bytes i (.inl early), List.getD_eq_getElem?_getD]
  have magic : other.take 4 = elf.take 4 := by
    apply List.ext_getElem?
    intro i
    rw [List.getElem?_take, List.getElem?_take]
    split
    · exact same.bytes i (.inl (by omega))
    · rfl
  refine ⟨?_, ⟨?_, ?_, ?_⟩, ?_, ?_, ?_, ?_, ?_, fun seg member => ?_⟩
  · rw [same.length]
    exact well.header
  · rw [magic]
    exact well.ident.1
  · rw [byte 4 (by decide)]
    exact well.ident.2.1
  · rw [byte 5 (by decide)]
    exact well.ident.2.2
  · rw [same.field fun i _ _ => by omega]
    exact well.exec
  · rw [same.field fun i _ _ => by omega]
    exact well.entries
  · rw [place, count, same.length]
    exact well.table
  · rw [same.loads]
    exact well.some
  · rw [same.loads]
    exact well.few
  · rw [same.loads] at member
    rw [SegmentFits, same.length]
    exact well.fits seg member

end

/-- The reader is safe and the section headers are optional exactly for the images that are not well
formed and those whose section headers have sums that fit. Whether an image is well formed, its
entry point and its segments do not depend on the sections. -/
theorem sections_optional_iff (elf : List Byte) :
    (ReadsSafely elf ↔ (WellFormed elf → SectionsFit elf)) ∧
    ∀ other, SameLoad elf other → (WellFormed other ↔ WellFormed elf) ∧
      field other 24 8 = field elf 24 8 ∧ loads other (phnum other) = loads elf (phnum elf) := by
  refine ⟨?_, fun other same => ⟨⟨same.symm.wellFormed, same.wellFormed⟩,
    same.field fun i _ _ => by omega, same.loads⟩⟩
  refine ⟨fun safe well => ?_, fun fits => ?_⟩
  · obtain ⟨_, parsed⟩ := safe.accepted.mpr well
    exact (parse_ok parsed).2.1
  have reads : WellFormed elf → ∃ image, parse elf = .ok image := by
    intro well
    rw [parse_wellFormed well]
    rcases parseSymtab_case well.header with ⟨used, large, -⟩ | ⟨-, ⟨unfit, -⟩ | ⟨-, _, reads, -⟩⟩
    · exact absurd ((fits well).table used) large
    · exact absurd (fits well) unfit
    rw [reads]
    exact ⟨_, rfl⟩
  refine ⟨fun panics => ?_, ⟨fun ⟨_, parsed⟩ => (parse_ok parsed).1, reads⟩,
    fun _ parsed => (parse_ok parsed).2.2.1, fun _ tab parsed => (parse_ok parsed).2.2.2 tab⟩
  by_cases well : WellFormed elf
  · obtain ⟨_, parsed⟩ := reads well
    cases panics.symm.trans parsed
  obtain ⟨_, refused⟩ := parse_refused well
  cases panics.symm.trans refused

def small (shoff header : List Byte) : List Byte :=
  [0x7f, 0x45, 0x4c, 0x46, 2, 1] ++ replicate 10 0 ++ [2] ++ replicate 15 0 ++ [64] ++
    replicate 7 0 ++ shoff ++ replicate 6 0 ++ [56, 0, 1, 0, 64, 0, 1, 0, 0, 0, 1] ++
    replicate 55 0 ++ header

/-- An image without sections is read, but not if the place of its section headers is out of reach;
and with a symbol table that ends out of reach the reader panics. -/
theorem small_parse : parse (small (replicate 8 0) []) = .ok ⟨0, [⟨0, 0, 0, 0, false⟩], none⟩ ∧
    parse (small (replicate 8 0xff) []) = .error (.refused .truncated) ∧
    parse (small (120 :: replicate 7 0)
      (replicate 4 0 ++ [2] ++ replicate 19 0 ++ replicate 8 0xff ++ [24] ++
        replicate 23 0 ++ [24] ++ replicate 7 0)) = .error .overflow := by
  decide +kernel

end R9x.Verif.ElfReader
