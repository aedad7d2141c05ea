import R9x.Port.Allocator

/-!
# The lists of the QuickFit allocator

Every byte of the arena belongs to the tail, to one free block, to one block that is in use, or to
nobody.
-/

namespace R9x.Verif.QuickLists

open Lib Port.Allocator
open Function (update update_self update_of_ne)

/-- Whom a byte belongs to. -/
inductive Owner where
  | tail
  | lost
  | free (block : Nat)
  | live (block : Nat)

variable {align : Nat}

lemma alignOffset_spec (ptr : Nat) (power : align.isPowerOfTwo) :
    ∃ gap, alignOffset ptr align = some gap ∧ gap < align ∧ align ∣ ptr + gap := by
  have positive : 0 < align := Nat.pos_of_isPowerOfTwo power
  have small : ptr % align < align := Nat.mod_lt ptr positive
  have whole : ptr + (align - ptr % align) = align * (ptr / align + 1) := by
    have divided := Nat.mod_add_div ptr align
    rw [Nat.mul_add, Nat.mul_one]
    omega
  refine ⟨(align - ptr % align) % align, if_pos power, Nat.mod_lt _ positive, ?_⟩
  apply Nat.dvd_of_mod_eq_zero
  rw [Nat.add_mod_mod, whole, Nat.mul_mod_right]

lemma alignOffset_eq_zero {ptr : Nat} (power : align.isPowerOfTwo) :
    alignOffset ptr align = some 0 ↔ align ∣ ptr := by
  have positive : 0 < align := Nat.pos_of_isPowerOfTwo power
  have small : ptr % align < align := Nat.mod_lt ptr positive
  rw [alignOffset, if_pos power, Option.some_inj, Nat.dvd_iff_mod_eq_zero]
  by_cases whole : ptr % align = 0
  · rw [whole, Nat.sub_zero, Nat.mod_self]
  rw [Nat.mod_eq_of_lt (by omega)]
  omega

def claim (own : Nat → Owner) (block size : Nat) (owner : Owner) : Nat → Owner :=
  fun place =>
  if block ≤ place ∧ place < block + size then owner else own place

def Owns (own : Nat → Owner) (block size : Nat) (owner : Owner) : Prop :=
  ∀ place, block ≤ place → place < block + size → own place = owner

section

variable {own : Nat → Owner} {block size : Nat} {owner : Owner}

lemma owns_claim : Owns (claim own block size owner) block size owner := by
  intro _ low high
  rw [claim, if_pos ⟨low, high⟩]

variable {place : Nat}

lemma claim_outside (outside : place < block ∨ block + size ≤ place) :
    claim own block size owner place = own place := by
  rw [claim, if_neg (by omega)]

variable {before after : Owner}

lemma claim_other (held : Owns own block size before) (belongs : own place = after)
    (differ : after ≠ before) : claim own block size owner place = after := by
  rw [claim]
  split
  · rename_i inside
    exact absurd (belongs.symm.trans (held place inside.1 inside.2)) differ
  · exact belongs

lemma Owns.claim_other {other size' : Nat} (held : Owns own block size before)
    (belongs : Owns own other size' after) (differ : after ≠ before) :
    Owns (claim own block size owner) other size' after :=
  fun place low high => QuickLists.claim_other held (belongs place low high) differ

end

/-! ## Headers in memory -/

section

variable {mem other : ByteMem} {addr : Nat} {header : Header} {place : Nat}

lemma writeHeader_outside (outside : place < addr ∨ addr + 32 ≤ place) :
    writeHeader mem addr header place = mem place := by
  rw [writeHeader, writeLe_outside (by omega), writeLe_outside (by omega),
    writeLe_outside (by omega),
    writeLe_outside (by omega)]

lemma next_writeHeader (small : header.next < 2 ^ 64) :
    (readHeader (writeHeader mem addr header) addr).next = header.next := by
  have read : readLe (writeHeader mem addr header) addr 8 = readLe (writeLe mem addr 8 header.next)
    addr 8 := by
    apply readLe_congr
    intro place low high
    rw [writeHeader, writeLe_outside (by omega), writeLe_outside (by omega),
      writeLe_outside (by omega)]
  rw [readHeader, read, readLe_writeLe]
  exact Nat.mod_eq_of_lt small

lemma addr_writeHeader (small : header.addr < 2 ^ 64) :
    (readHeader (writeHeader mem addr header) addr).addr = header.addr := by
  have read : readLe (writeHeader mem addr header) (addr + 8) 8 =
      readLe (writeLe (writeLe mem addr 8 header.next) (addr + 8) 8 header.addr) (addr + 8) 8 := by
    apply readLe_congr
    intro place low high
    rw [writeHeader, writeLe_outside (by omega), writeLe_outside (by omega)]
  rw [readHeader, read, readLe_writeLe]
  exact Nat.mod_eq_of_lt small

variable {next head : Nat} {nodes : List Nat}

lemma writeNext_outside (outside : place < addr ∨ addr + 8 ≤ place) :
    writeNext mem addr next place = mem place := writeLe_outside outside

lemma addr_writeNext : (readHeader (writeNext mem addr next) addr).addr =
    (readHeader mem addr).addr := by
  apply readLe_congr
  intro place low high
  exact writeNext_outside (by omega)

def Chain (mem : ByteMem) : Nat → List Nat → Prop
  | head, [] => head = 0
  | head, node :: nodes => head = node ∧ node ≠ 0 ∧ (readHeader mem node).addr = node ∧
      Chain mem (readHeader mem node).next nodes

lemma Chain.congr (chain : Chain mem head nodes)
    (same : ∀ node ∈ nodes, ∀ place, node ≤ place → place < node + 16 → other place = mem place) :
    Chain other head nodes := by
  induction nodes generalizing head with
  | nil => exact chain
  | cons node nodes ih =>
    obtain ⟨rfl, nonzero, addr, rest⟩ := chain
    have here := same head List.mem_cons_self
    have next : (readHeader other head).next = (readHeader mem head).next :=
      readLe_congr fun place low high => here place low (by omega)
    have addr' : (readHeader other head).addr = (readHeader mem head).addr :=
      readLe_congr fun place low high => here place (by omega) (by omega)
    refine ⟨rfl, nonzero, addr'.trans addr, ?_⟩
    rw [next]
    exact ih rest fun node member => same node (List.mem_cons_of_mem _ member)

lemma Chain.head_lt (chain : Chain mem head nodes) (small : ∀ node ∈ nodes, node < 2 ^ 64) :
    head < 2 ^ 64 := by
  cases nodes with
  | nil =>
    obtain rfl : head = 0 := chain
    decide
  | cons node => exact chain.1 ▸ small node List.mem_cons_self

end

/-! ## The representation -/

def quickSize (k : Nat) : Nat := 2 ^ (k + allocUnitShift)

lemma le_quickSize (k : Nat) : 64 ≤ quickSize k := by
  rw [quickSize, allocUnitShift, Nat.pow_add]
  exact Nat.le_mul_of_pos_left 64 (Nat.two_pow_pos k)

lemma dvd_quickSize (k : Nat) : 64 ∣ quickSize k := by
  rw [quickSize, Nat.pow_add]
  exact Nat.dvd_mul_left _ _

lemma quickSize_le (k : Fin numQlists) : quickSize k ≤ maxQuickSize := by
  have small : (k : Nat) < 9 := k.isLt
  exact Nat.pow_le_pow_right (by decide) (show (k : Nat) + 6 ≤ 14 by omega)

lemma log2_quickSize (k : Nat) : (quickSize k).log2 - allocUnitShift = k := by
  rw [quickSize, Nat.log2_two_pow, Nat.add_sub_cancel]

/-- What `free` leaves of a block of a quick list. -/
def pushed (quick : QuickFit) (k : Fin numQlists) (block align : Nat) : QuickFit :=
  { quick with
    mem := writeHeader quick.mem block ⟨quick.qlists k, block, quickSize k, align⟩
    qlists := update quick.qlists k block }

section

variable {quick : QuickFit} {lists : Fin numQlists → List Nat} {k : Fin numQlists} {block : Nat}

lemma freeQuick_eq (aligned : quickSize k ∣ block) :
    quick.freeQuick block (quickSize k) align = some (pushed quick k block align) := by
  have whole : alignOffset block headerLayout.align = some 0 :=
    (alignOffset_eq_zero headerLayout.power).mpr (Nat.dvd_trans (dvd_quickSize k) aligned)
  simp only [QuickFit.freeQuick, log2_quickSize, Fin.is_lt, dif_pos, whole, if_true]
  rfl

lemma chain_pushed (chains : ∀ j, Chain quick.mem (quick.qlists j) (lists j)) (nonzero : block ≠ 0)
    (small : block < 2 ^ 64) (head : quick.qlists k < 2 ^ 64)
    (clear : ∀ j, ∀ node ∈ lists j, ∀ place, node ≤ place → place < node + 16 →
      place < block ∨ block + 32 ≤ place) (j : Fin numQlists) :
    Chain (pushed quick k block align).mem ((pushed quick k block align).qlists j)
      (update lists k (block :: lists k) j) := by
  have chain : ∀ j, Chain (pushed quick k block align).mem (quick.qlists j) (lists j) := fun j =>
    (chains j).congr fun node member place first last => writeHeader_outside
    (clear j node member place first last)
  by_cases same : j = k
  · subst same
    simp only [pushed, update_self]
    refine ⟨rfl, nonzero, addr_writeHeader small, ?_⟩
    rw [next_writeHeader head]
    exact chain j
  simp only [pushed, update_of_ne same]
  exact chain j

end

/-- The free blocks on the quick lists, in a region of memory. -/
structure Placed (own : Nat → Owner) (low high : Nat) (lists : Fin numQlists → List Nat) :
    Prop where
  inside : ∀ k, ∀ block ∈ lists k, low ≤ block ∧ block + quickSize k ≤ high
  aligned : ∀ k, ∀ block ∈ lists k, quickSize k ∣ block
  owned : ∀ k, ∀ block ∈ lists k, Owns own block (quickSize k) (.free block)
  nodup : ∀ k, (lists k).Nodup
  once : ∀ j k block, block ∈ lists j → block ∈ lists k → j = k

section

variable {own own' : Nat → Owner} {low high : Nat} {lists : Fin numQlists → List Nat}
  {k : Fin numQlists} (placed : Placed own low high lists) {block : Nat}
include placed

lemma Placed.first (member : block ∈ lists k) : own block = .free block := by
  have size := le_quickSize k
  exact placed.owned k block member block (Nat.le_refl _) (by omega)

lemma Placed.mono {high' : Nat} (grows : high ≤ high')
    (free : ∀ place block, own place = .free block → own' place = .free block) :
    Placed own' low high' lists := by
  refine ⟨?_, placed.aligned, ?_, placed.nodup, placed.once⟩
  · intro k block member
    have bounds := placed.inside k block member
    omega
  · exact fun k block member place first last =>
      free place block (placed.owned k block member place first last)

lemma Placed.push (first : low ≤ block) (last : block + quickSize k ≤ high)
    (aligned : quickSize k ∣ block) (lost : Owns own block (quickSize k) .lost) :
    Placed (claim own block (quickSize k) (.free block)) low high
      (update lists k (block :: lists k)) := by
  have size := le_quickSize k
  have absent : ∀ j, block ∉ lists j := by
    intro j member
    cases (placed.first member).symm.trans (lost block (Nat.le_refl _) (by omega))
  have listed : ∀ j other, other ∈ update lists k (block :: lists k) j →
      j = k ∧ other = block ∨ other ∈ lists j := by
    intro j _ member
    by_cases same : j = k
    · subst same
      rw [update_self] at member
      exact (List.mem_cons.mp member).imp (fun this => ⟨rfl, this⟩) id
    rw [update_of_ne same] at member
    exact .inr member
  constructor
  case inside =>
    intro j other member
    rcases listed j other member with ⟨rfl, rfl⟩ | old
    · exact ⟨first, last⟩
    · exact placed.inside j other old
  case aligned =>
    intro j other member
    rcases listed j other member with ⟨rfl, rfl⟩ | old
    · exact aligned
    · exact placed.aligned j other old
  case owned =>
    intro j other member
    rcases listed j other member with ⟨rfl, rfl⟩ | old
    · exact owns_claim
    · exact lost.claim_other (placed.owned j other old) (by exact nofun)
  case nodup =>
    intro j
    by_cases same : j = k
    · subst same
      rw [update_self]
      exact List.nodup_cons.mpr ⟨absent j, placed.nodup j⟩
    rw [update_of_ne same]
    exact placed.nodup j
  case once =>
    intro i j other left right
    rcases listed i other left with ⟨rfl, rfl⟩ | left
    · rcases listed j other right with ⟨rfl, -⟩ | right
      · rfl
      · exact absurd right (absent j)
    rcases listed j other right with ⟨-, same⟩ | right
    · exact absurd (same ▸ left) (absent i)
    · exact placed.once i j other left right

lemma Placed.pop {rest : List Nat} (head : lists k = block :: rest) :
    Placed (claim own block (quickSize k) .lost) low high (update lists k rest) := by
  have here : block ∈ lists k := by
    rw [head]
    exact List.mem_cons_self
  have distinct := List.nodup_cons.mp (head ▸ placed.nodup k)
  have listed : ∀ j other, other ∈ update lists k rest j → other ∈ lists j ∧ other ≠ block := by
    intro j other member
    by_cases same : j = k
    · subst same
      rw [update_self] at member
      refine ⟨head ▸ List.mem_cons_of_mem _ member, ?_⟩
      rintro rfl
      exact distinct.1 member
    rw [update_of_ne same] at member
    refine ⟨member, ?_⟩
    rintro rfl
    exact same (placed.once j k other member here)
  constructor
  case inside => exact fun j other member => placed.inside j other (listed j other member).1
  case aligned => exact fun j other member => placed.aligned j other (listed j other member).1
  case owned =>
    intro j other member
    have old := listed j other member
    apply (placed.owned k block here).claim_other (placed.owned j other old.1)
    intro same
    exact old.2 (Owner.free.inj same)
  case nodup =>
    intro j
    by_cases same : j = k
    · subst same
      rw [update_self]
      exact distinct.2
    rw [update_of_ne same]
    exact placed.nodup j
  case once =>
    intro i j other left right
    exact placed.once i j other (listed i other left).1 (listed j other right).1

end

/-- The lists and the bytes of the allocator. -/
structure Rep (quick : QuickFit) (own : Nat → Owner) (lists : Fin numQlists → List Nat) : Prop where
  arena : 0 < quick.base ∧ quick.len < 2 ^ 63 ∧ quick.base + quick.len ≤ 2 ^ 64
  cursor : quick.cursor ≤ quick.len
  tail : Owns own (quick.base + quick.cursor) (quick.len - quick.cursor) .tail
  chains : ∀ k, Chain quick.mem (quick.qlists k) (lists k)
  placed : Placed own quick.base (quick.base + quick.cursor) lists
  misc : quick.misc = 0

/-- A step of the allocator leaves the blocks in use alone. -/
structure Spares (quick : QuickFit) (own : Nat → Owner) (after : QuickFit) (own' : Nat → Owner) :
    Prop where
  arena : after.base = quick.base ∧ after.len = quick.len
  cursor : quick.cursor ≤ after.cursor
  owner : ∀ place block, own place = .live block → own' place = .live block
  contents : ∀ place block, own place = .live block → after.mem place = quick.mem place

lemma Spares.refl (quick : QuickFit) (own : Nat → Owner) : Spares quick own quick own :=
  ⟨⟨rfl, rfl⟩, Nat.le_refl _, fun _ _ belongs => belongs, fun _ _ _ => rfl⟩

lemma Spares.trans {quick middle after : QuickFit} {own own' own'' : Nat → Owner}
    (first : Spares quick own middle own') (second : Spares middle own' after own'') :
    Spares quick own after own'' := by
  refine ⟨⟨second.arena.1.trans first.arena.1, second.arena.2.trans first.arena.2⟩,
    Nat.le_trans first.cursor second.cursor, ?_, ?_⟩
  · exact fun place block belongs => second.owner place block (first.owner place block belongs)
  · intro place block belongs
    rw [second.contents place block (first.owner place block belongs),
      first.contents place block belongs]

section

variable {quick : QuickFit} {own : Nat → Owner} {lists : Fin numQlists → List Nat}

lemma Rep.addr_lt (rep : Rep quick own lists) {addr : Nat}
    (inside : addr < quick.base + quick.cursor) :
    addr < 2 ^ 64 := by
  have cursor := rep.cursor
  have arena := rep.arena.2.2
  omega

lemma Rep.head_lt (rep : Rep quick own lists) (k : Fin numQlists) : quick.qlists k < 2 ^ 64 := by
  refine (rep.chains k).head_lt fun node member => ?_
  have bounds := rep.placed.inside k node member
  have size := le_quickSize k
  exact rep.addr_lt (by omega)

variable {k : Fin numQlists} {mem : ByteMem}

lemma Rep.chain_congr (rep : Rep quick own lists) {head : Nat} {nodes : List Nat}
    (chain : Chain quick.mem head nodes) (listed : ∀ node ∈ nodes, node ∈ lists k)
    (same : ∀ place, ∀ node ∈ nodes, own place = .free node → mem place = quick.mem place) :
    Chain mem head nodes := by
  apply chain.congr
  intro node member place low high
  have size := le_quickSize k
  exact same place node member (rep.placed.owned k node (listed node member) place low (by omega))

lemma Rep.push (rep : Rep quick own lists) {block : Nat} (align : Nat) (low : quick.base ≤ block)
    (high : block + quickSize k ≤ quick.base + quick.cursor) (aligned : quickSize k ∣ block)
    (lost : Owns own block (quickSize k) .lost) :
    Rep (pushed quick k block align) (claim own block (quickSize k) (.free block))
        (update lists k (block :: lists k)) ∧
      Spares quick own (pushed quick k block align)
        (claim own block (quickSize k) (.free block)) := by
  have size := le_quickSize k
  have positive := rep.arena.1
  have small : block < 2 ^ 64 := rep.addr_lt (by omega)
  have kept : ∀ place owner, own place = owner → owner ≠ .lost → place < block ∨
    block + 32 ≤ place := by
    intro place owner belongs held
    by_contra inside
    exact held (belongs.symm.trans (lost place (by omega) (by omega)))
  refine ⟨⟨rep.arena, rep.cursor, lost.claim_other rep.tail nofun, ?_,
      rep.placed.push low high aligned lost, rep.misc⟩, ⟨rfl, rfl⟩, Nat.le_refl _, ?_, ?_⟩
  · refine chain_pushed rep.chains (by omega) small (rep.head_lt k) fun j node member place
      first last => ?_
    have size := le_quickSize j
    exact kept place _ (rep.placed.owned j node member place first (by omega)) nofun
  · exact fun place other belongs => claim_other lost belongs nofun
  · exact fun place other belongs => writeHeader_outside (kept place _ belongs nofun)

lemma unlink_head {fuel list : Nat} (nonzero : list ≠ 0) :
    unlink (fun _ => true) (fuel + 1) 0 list mem =
      some ((list, (readHeader mem list).next), writeNext mem list 0) := by
  simp only [unlink, nonzero, if_true, if_false]

variable (rep : Rep quick own lists)
include rep

lemma Rep.pop_nil (empty : lists k = []) (fuel : Nat) :
    quick.allocQuick (fuel + 1) (quickSize k) (quickSize k) = some (none, quick) := by
  have head : quick.qlists k = 0 := by
    have chain := rep.chains k
    rw [empty] at chain
    exact chain
  have same : update quick.qlists k 0 = quick.qlists := by
    rw [← head, Function.update_eq_self]
  simp only [QuickFit.allocQuick, quickSize_le, log2_quickSize, Fin.is_lt, dif_pos, and_self,
    if_true, head,
    unlink, Option.map_some, same]

lemma Rep.pop_cons {block : Nat} {rest : List Nat} (head : lists k = block :: rest) (fuel : Nat) :
    ∃ after, quick.allocQuick (fuel + 1) (quickSize k) (quickSize k) = some (some block, after) ∧
      Rep after (claim own block (quickSize k) .lost) (update lists k rest) ∧
      Spares quick own after (claim own block (quickSize k) .lost) ∧ after.cursor =
        quick.cursor := by
  have chain := rep.chains k
  rw [head] at chain
  obtain ⟨first, nonzero, addr, links⟩ := chain
  have size := le_quickSize k
  have here : block ∈ lists k := by
    rw [head]
    exact List.mem_cons_self
  have owned := rep.placed.owned k block here
  have placed := rep.placed.pop head
  have kept : ∀ place owner, own place = owner → owner ≠ .free block →
      writeNext quick.mem block 0 place = quick.mem place := by
    intro place owner belongs other
    apply writeNext_outside
    by_contra inside
    exact other (belongs.symm.trans (owned place (by omega) (by omega)))
  refine ⟨{ quick with
      mem := writeNext quick.mem block 0,
      qlists := update quick.qlists k (readHeader quick.mem block).next }, ?_,
    ⟨rep.arena, rep.cursor, owned.claim_other rep.tail nofun, ?_, placed, rep.misc⟩,
    ⟨⟨rfl, rfl⟩, Nat.le_refl _, ?_, ?_⟩, rfl⟩
  · simp only [QuickFit.allocQuick, quickSize_le, log2_quickSize, Fin.is_lt, dif_pos,
      and_self, if_true,
      first, unlink_head nonzero, Option.map_some, if_neg nonzero, addr_writeNext, addr]
  · intro j
    by_cases same : j = k
    · subst same
      have distinct := List.nodup_cons.mp (head ▸ rep.placed.nodup j)
      simp only [update_self]
      apply rep.chain_congr links (fun node member => head ▸ List.mem_cons_of_mem _ member)
      intro place _ member belongs
      apply kept place _ belongs
      intro equal
      exact distinct.1 (Owner.free.inj equal ▸ member)
    simp only [update_of_ne same]
    apply rep.chain_congr (rep.chains j) (fun node member => member)
    intro place _ member belongs
    apply kept place _ belongs
    intro equal
    exact same (rep.placed.once j k block (Owner.free.inj equal ▸ member) here)
  · exact fun place other belongs => claim_other owned belongs nofun
  · exact fun place other belongs => kept place _ belongs nofun

lemma Rep.bump {count : Nat} (fits : quick.cursor + count ≤ quick.len) :
    Rep { quick with cursor := quick.cursor + count }
        (claim own (quick.base + quick.cursor) count .lost) lists ∧
      Spares quick own { quick with cursor := quick.cursor + count }
        (claim own (quick.base + quick.cursor) count .lost) := by
  have cut : Owns own (quick.base + quick.cursor) count .tail :=
    fun place low high => rep.tail place low (by omega)
  have behind : Owns (claim own (quick.base + quick.cursor) count .lost)
      (quick.base + (quick.cursor + count)) (quick.len - (quick.cursor + count)) .tail := by
    intro place low high
    rw [claim_outside (by omega)]
    exact rep.tail place (by omega) (by omega)
  have placed : Placed (claim own (quick.base + quick.cursor) count .lost) quick.base
      (quick.base + (quick.cursor + count)) lists :=
    rep.placed.mono (by omega) fun place block belongs => claim_other cut belongs nofun
  constructor
  · exact ⟨rep.arena, fits, behind, rep.chains, placed, rep.misc⟩
  · exact ⟨⟨rfl, rfl⟩, Nat.le_add_right _ _, fun place block belongs =>
      claim_other cut belongs nofun,
      fun _ _ _ => rfl⟩

lemma Rep.transfer {block size : Nat} {before : Owner} (owner : Owner)
    (held : Owns own block size before) (used : before = .lost ∨ ∃ other, before = .live other) :
    Rep quick (claim own block size owner) lists := by
  have tail : before ≠ .tail := by
    rcases used with rfl | ⟨other, rfl⟩ <;> exact nofun
  have free : ∀ other, before ≠ .free other := by
    rcases used with rfl | ⟨other, rfl⟩ <;> exact nofun
  have placed : Placed (claim own block size owner) quick.base (quick.base + quick.cursor) lists :=
    rep.placed.mono (Nat.le_refl _) fun place other belongs => claim_other held belongs
      (free other).symm
  exact ⟨rep.arena, rep.cursor, held.claim_other rep.tail tail.symm, rep.chains, placed, rep.misc⟩

lemma Rep.overwrite {mem : ByteMem}
    (same : ∀ place block, own place = .free block → mem place = quick.mem place) :
    Rep { quick with mem := mem } own lists := by
  refine ⟨rep.arena, rep.cursor, rep.tail, ?_, rep.placed, rep.misc⟩
  intro k
  apply rep.chain_congr (rep.chains k) (fun node member => member)
  exact fun place node _ belongs => same place node belongs

end

/-! ## Freeing what is before an aligned block -/

/-- Some bytes that were nobody's are freed to the lists, as far as they fill whole blocks. -/
structure Filed (quick : QuickFit) (own : Nat → Owner) (front : Block) (after : QuickFit)
    (own' : Nat → Owner) : Prop where
  rep : ∃ lists, Rep after own' lists
  spares : Spares quick own after own'
  cursor : after.cursor = quick.cursor
  outside : ∀ place, place < front.ptr ∨ front.ptr + front.len ≤ place → own' place = own place

lemma tryFreePrefixOf_cases (quick : QuickFit) (front : Block) (ks : List Nat) :
    (quick.tryFreePrefixOf front ks = some (none, quick) ∧
      ∀ k ∈ ks, ¬ (quickSize k ≤ front.len ∧ quickSize k ∣ front.ptr)) ∨
      ∃ k ∈ ks, quickSize k ≤ front.len ∧ quickSize k ∣ front.ptr ∧
        quick.tryFreePrefixOf front ks = (quick.freeSized front.ptr (quickSize k)).map fun after =>
          let rest : Block := ⟨wrappingAdd front.ptr (quickSize k), front.len - quickSize k⟩
          (if minAllocSize ≤ rest.len then some rest else none, after) := by
  induction ks with
  | nil => exact .inl ⟨rfl, nofun⟩
  | cons k ks ih =>
    have zero : alignOffset front.ptr (quickSize k) = some 0 ↔ quickSize k ∣ front.ptr :=
      alignOffset_eq_zero ⟨_, rfl⟩
    by_cases fits : quickSize k ≤ front.len ∧ quickSize k ∣ front.ptr
    · right
      refine ⟨k, List.mem_cons_self, fits.1, fits.2, ?_⟩
      exact if_pos ⟨fits.1, zero.mpr fits.2⟩
    have skip : quick.tryFreePrefixOf front (k :: ks) = quick.tryFreePrefixOf front ks :=
      if_neg fun taken => fits ⟨taken.1, zero.mp taken.2⟩
    rw [skip]
    refine ih.imp (fun stuck => ⟨stuck.1, List.forall_mem_cons.mpr ⟨fits, stuck.2⟩⟩) ?_
    rintro ⟨j, member, found⟩
    exact ⟨j, List.mem_cons_of_mem _ member, found⟩

section

variable {stop fuel : Nat} (good : QuickFit → Nat → Prop) (small : stop < 2 ^ 64)
  (whole : 64 ∣ stop)
  (keeps : ∀ quick ptr (k : Fin numQlists), good quick ptr → ptr ≠ 0 → quickSize k ∣ ptr →
    ptr + quickSize k ≤ stop → good (pushed quick k ptr (quickSize k)) (ptr + quickSize k))
  {quick : QuickFit}
include small whole keeps

/-- What each block that is put on a list keeps, up to where it ends, holds at the end of the
prefix. -/
lemma freePrefixFrom_rule {front : Block} (start : good quick front.ptr) (nonzero : front.ptr ≠ 0)
    (unit : 64 ∣ front.ptr) (ends : front.ptr + front.len = stop) (enough : front.len < 64 * fuel) :
    ∃ after, QuickFit.freePrefixFrom fuel quick front = some after ∧ good after stop := by
  induction fuel generalizing quick front with
  | zero => omega
  | succ fuel ih =>
    rw [QuickFit.freePrefixFrom, QuickFit.tryFreePrefix]
    rcases tryFreePrefixOf_cases quick front (List.range numQlists).reverse with ⟨stuck, none⟩
      | found
    · -- the smallest blocks fit wherever something is left
      have empty : front.len = 0 := by
        by_contra some
        exact none 0 (by decide) ⟨show 64 ≤ front.len by omega, unit⟩
      rw [empty, Nat.add_zero] at ends
      exact ⟨quick, by simp only [stuck], ends ▸ start⟩
    obtain ⟨k, member, fits, aligned, result⟩ := found
    obtain ⟨k, rfl⟩ : ∃ j : Fin numQlists, k = j :=
      ⟨⟨k, List.mem_range.mp (List.mem_reverse.mp member)⟩, rfl⟩
    have size := le_quickSize k
    have unit' : 64 ∣ front.ptr + quickSize k := Nat.dvd_add unit (dvd_quickSize k)
    have next : wrappingAdd front.ptr (quickSize k) = front.ptr + quickSize k :=
      Nat.mod_eq_of_lt (by omega)
    have freed : quick.freeSized front.ptr (quickSize k) =
      some (pushed quick k front.ptr (quickSize k)) := by
      rw [QuickFit.freeSized, if_neg nonzero, freeQuick_eq aligned]
    have kept := keeps quick front.ptr k start nonzero aligned (by omega)
    rw [freed, next] at result
    change _ = some (if 64 ≤ front.len - quickSize k then some _ else none, _) at result
    by_cases more : 64 ≤ front.len - quickSize k
    · rw [if_pos more] at result
      simp only [result]
      exact ih kept (by dsimp only; omega) unit' (by dsimp only; omega) (by dsimp only; omega)
    have last : front.ptr + quickSize k = stop := by omega
    rw [if_neg more] at result
    exact ⟨_, by simp only [result], last ▸ kept⟩

lemma freePrefix_rule {first count : Nat} (ends : first + count = stop)
    (nonzero : first ≠ 0) (enough : count < 64 * fuel)
    (start : ∀ gap, gap < 64 → gap ≤ count → 64 ∣ first + gap → good quick (first + gap)) :
    ∃ after, QuickFit.freePrefix fuel quick ⟨first, count⟩ = some after ∧ good after stop := by
  obtain ⟨gap, offset, less, unit⟩ := alignOffset_spec first headerLayout.power
  change gap < 64 at less
  change 64 ∣ first + gap at unit
  change alignOffset first minAllocSize = some gap at offset
  have room : gap ≤ count := by omega
  have next : wrappingAdd first gap = first + gap := Nat.mod_eq_of_lt (by omega)
  rw [QuickFit.freePrefix, QuickFit.alignPrefix, offset, Option.bind_some, if_pos room, next]
  apply freePrefixFrom_rule good small whole keeps (start gap less room unit)
  · dsimp only
    omega
  · exact unit
  · dsimp only
    omega
  · dsimp only
    omega

end

/-- A prefix is filed up to an address, and belongs to nobody from there on. -/
def Filing (quick : QuickFit) (own : Nat → Owner) (first count : Nat) (after : QuickFit)
    (ptr : Nat) : Prop :=
  ∃ own', Filed quick own ⟨first, count⟩ after own' ∧ first ≤ ptr ∧
    ∀ place, ptr ≤ place → place < first + count → own' place = .lost

lemma Rep.freePrefix {quick : QuickFit} {own : Nat → Owner} {lists : Fin numQlists → List Nat}
    {fuel first count : Nat} (rep : Rep quick own lists) (low : quick.base ≤ first)
    (high : first + count ≤ quick.base + quick.cursor) (small : first + count < 2 ^ 64)
    (lost : Owns own first count .lost) (ends : 64 ∣ first + count) (enough : count < 64 * fuel) :
    ∃ after own', QuickFit.freePrefix fuel quick ⟨first, count⟩ = some after ∧
      Filed quick own ⟨first, count⟩ after own' := by
  have positive := rep.arena.1
  have keeps : ∀ middle ptr (k : Fin numQlists), Filing quick own first count middle ptr → ptr ≠ 0 →
      quickSize k ∣ ptr → ptr + quickSize k ≤ first + count →
      Filing quick own first count (pushed middle k ptr (quickSize k)) (ptr + quickSize k) := by
    rintro middle ptr k ⟨own', ⟨⟨lists', rep'⟩, spares, cursor, outside⟩, behind, left⟩ -
      aligned fits
    obtain ⟨rep'', spares'⟩ := rep'.push (quickSize k) (by rw [spares.arena.1]; omega)
      (by rw [spares.arena.1, cursor]; omega) aligned fun place low high =>
      left place low (by omega)
    refine ⟨_, ⟨⟨_, rep''⟩, spares.trans spares', cursor, fun place away => ?_⟩, by omega,
      fun place low high => ?_⟩
    · rw [claim_outside (by dsimp only at away; omega), outside place away]
    · rw [claim_outside (by omega)]
      exact left place (by omega) high
  obtain ⟨after, freed, own', filed, -⟩ := freePrefix_rule _ small ends keeps rfl (by omega) enough
    fun gap _ _ _ => ⟨own, ⟨⟨lists, rep⟩, .refl quick own, rfl, fun _ _ => rfl⟩,
      Nat.le_add_right _ _,
      fun place low high => lost place (by omega) high⟩
  exact ⟨after, own', freed, filed⟩

end R9x.Verif.QuickLists
