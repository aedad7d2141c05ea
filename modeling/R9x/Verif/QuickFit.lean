import R9x.Verif.QuickAlloc
import R9x.Lib.Run
import Mathlib.Data.List.Perm.Basic

/-!
# Runs of the QuickFit allocator

A client allocates, frees and reallocates blocks and stores into them.
-/

namespace R9x.Verif.QuickFit

open Lib Port.Allocator QuickLists QuickAlloc
open Function (update update_of_ne update_self)
open Layout (fromSizeAlign)
open List (mem_cons_self)

/-! ## Clients -/

/-- A block in use, with the bytes its client has in it. -/
structure Live where
  addr : Nat
  layout : Layout
  contents : Nat → BitVec 8

/-- An allocator and its client. -/
structure Heap where
  quick : QuickFit
  live : List Live
  panicked : Bool

/-- What a client does. It names its blocks by their place on the list. -/
inductive Call where
  | malloc (layout : Layout)
  | free (index : Nat)
  | realloc (index newSize : Nat)
  | store (index offset : Nat) (value : BitVec 8)

/-- An arena: a region of memory that is not at zero and is no larger than an object can be. -/
structure Arena where
  block : Block
  nonnull : 0 < block.ptr
  isize : block.len < 2 ^ 63
  ends : block.ptr + block.len ≤ 2 ^ 64

/-- A new allocator, with nothing allocated. -/
def Heap.new (arena : Arena) (mem : ByteMem) : Heap := ⟨.new arena.block mem, [], false⟩

/-- The bytes of a reallocated block: those of the old block as far as both reach, then what is in
memory. -/
def carried (old : Live) (newSize addr : Nat) (mem : ByteMem) : Nat → BitVec 8 :=
  fun offset =>
  if offset < min old.layout.size newSize then old.contents offset else mem (addr + offset)

/-- One call or store. A client that keeps to the contract names blocks in use, asks for valid
layouts, and stores inside its blocks. -/
def step (fuel : Nat) (heap : Heap) (call : Call) : Option Heap :=
  if heap.panicked then none
  else
    match call with
    | .malloc layout =>
      match heap.quick.malloc fuel layout with
      | none => some { heap with panicked := true }
      | some (ptr, quick) =>
        if ptr = 0 then some { heap with quick := quick }
        else some { heap with
          quick := quick, live :=
            ⟨ptr, layout, fun offset => quick.mem (ptr + offset)⟩ :: heap.live }
    | .free index =>
      heap.live[index]?.map fun block =>
        match heap.quick.free fuel block.addr block.layout with
        | none => { heap with panicked := true }
        | some quick => { heap with quick := quick, live := heap.live.eraseIdx index }
    | .realloc index newSize =>
      heap.live[index]?.bind fun block =>
        (fromSizeAlign newSize block.layout.align).map fun layout =>
          match heap.quick.realloc fuel block.addr block.layout newSize with
          | none => { heap with panicked := true }
          | some (ptr, quick) =>
            if ptr = 0 then { heap with quick := quick }
            else { heap with
              quick := quick,
              live := ⟨ptr, layout, carried block newSize ptr quick.mem⟩ :: heap.live.eraseIdx index
                }
    | .store index offset value =>
      heap.live[index]?.bind fun block =>
        if offset < block.layout.size then
          some { heap with
            quick := { heap.quick with
              mem := update heap.quick.mem (block.addr + offset) value },
            live := { block with contents := update block.contents offset value } ::
              heap.live.eraseIdx index }
        else none

/-- No call has panicked, and the blocks in use are as their clients expect. -/
structure Safe (arena : Arena) (heap : Heap) : Prop where
  running : heap.panicked = false
  aligned : ∀ block ∈ heap.live, block.layout.align ∣ block.addr
  inside : ∀ block ∈ heap.live, arena.block.ptr ≤ block.addr ∧
    block.addr + block.layout.size ≤ arena.block.ptr + arena.block.len
  apart : heap.live.Pairwise fun block other =>
    block.addr + block.layout.size ≤ other.addr ∨ other.addr + other.layout.size ≤ block.addr
  contents : ∀ block ∈ heap.live, ∀ offset, offset < block.layout.size →
    heap.quick.mem (block.addr + offset) = block.contents offset

/-- The layouts for which the allocator works: those it allocates are steady, and those it frees are
small. -/
def WorksFor (heap : Heap) : Call → Prop
  | .malloc layout => Matched layout
  | .free index => ∀ block ∈ heap.live[index]?, Small block.layout
  | .realloc index newSize => ∀ block ∈ heap.live[index]?,
      ∀ layout ∈ fromSizeAlign newSize block.layout.align,
        Matched layout ∧ (Small block.layout ∨ adjust layout =
          (block.layout.size, block.layout.align))
  | .store _ _ _ => True

/-! ## The invariant -/

/-- A block in use, as the allocator keeps it. -/
structure Held (quick : QuickFit) (own : Nat → Owner) (block : Live) : Prop where
  steady : Matched block.layout
  inside : quick.base ≤ block.addr ∧ block.addr + (adjust block.layout).1 ≤
    quick.base + quick.cursor
  aligned : (adjust block.layout).1 ∣ block.addr
  owned : Owns own block.addr (adjust block.layout).1 (.live block.addr)
  contents : ∀ offset, offset < block.layout.size → quick.mem (block.addr + offset) =
    block.contents offset

/-- The blocks in use. -/
structure Tenants (quick : QuickFit) (own : Nat → Owner) (live : List Live) : Prop where
  rep : ∃ lists, Rep quick own lists
  held : ∀ block ∈ live, Held quick own block
  distinct : (live.map Live.addr).Nodup

section

variable {quick after : QuickFit} {own own' : Nat → Owner} {block : Live} {live : List Live}

section

variable (held : Held quick own block)
include held

lemma Held.size_le : block.layout.size ≤ (adjust block.layout).1 := by
  obtain ⟨_, adjusted, -, -, size, -⟩ := held.steady.shift
  rw [adjusted]
  exact size

lemma Held.positive : 0 < (adjust block.layout).1 := by
  obtain ⟨shift, adjusted, -⟩ := held.steady.shift
  rw [adjusted]
  exact Nat.two_pow_pos shift

lemma Held.spared (spares : Spares quick own after own') : Held after own' block := by
  have size := held.size_le
  have inside := held.inside
  have cursor := spares.cursor
  constructor
  case steady => exact held.steady
  case inside =>
    rw [spares.arena.1]
    omega
  case aligned => exact held.aligned
  case owned => exact fun place low high => spares.owner place _ (held.owned place low high)
  case contents =>
    intro offset less
    rw [spares.contents _ _ (held.owned _ (Nat.le_add_right _ _) (by omega))]
    exact held.contents offset less

lemma Held.apart {other : Live} (held' : Held quick own other) (differ : block.addr ≠ other.addr) :
    block.addr + (adjust block.layout).1 ≤ other.addr ∨
      other.addr + (adjust other.layout).1 ≤ block.addr := by
  have positive := held.positive
  have positive' := held'.positive
  by_contra overlap
  have both : ∃ place, block.addr ≤ place ∧ place < block.addr + (adjust block.layout).1 ∧
      other.addr ≤ place ∧ place < other.addr + (adjust other.layout).1 :=
    ⟨max block.addr other.addr, by omega, by omega, by omega, by omega⟩
  obtain ⟨place, low, high, low', high'⟩ := both
  have same := (held.owned place low high).symm.trans (held'.owned place low' high')
  exact differ (Owner.live.inj same)

end

section

variable (tenants : Tenants quick own live)
include tenants

lemma Tenants.spared {lists : Fin numQlists → List Nat}
    (rep : Rep after own' lists) (spares : Spares quick own after own') : Tenants after own' live :=
  ⟨⟨lists, rep⟩, fun block member => (tenants.held block member).spared spares, tenants.distinct⟩

lemma Tenants.perm {other : List Live} (same : live.Perm other) : Tenants quick own other :=
  ⟨tenants.rep, fun block member => tenants.held block (same.mem_iff.mpr member),
    (same.map Live.addr).nodup_iff.mp tenants.distinct⟩

lemma Tenants.named {index : Nat} (found : live[index]? = some block) :
    Tenants quick own (block :: live.eraseIdx index) := by
  obtain ⟨inside, rfl⟩ := List.getElem?_eq_some_iff.mp found
  exact tenants.perm (List.getElem_cons_eraseIdx_perm inside).symm

end

lemma Tenants.relabel (tenants : Tenants quick own (block :: live)) (new : Live)
    (addr : new.addr = block.addr) (steady : Matched new.layout)
    (sized : adjust new.layout = adjust block.layout)
    (contents : ∀ offset, offset < new.layout.size → quick.mem (new.addr + offset) =
      new.contents offset) :
    Tenants quick own (new :: live) := by
  have held := tenants.held block mem_cons_self
  refine ⟨tenants.rep, ?_, ?_⟩
  · intro other member
    rcases List.mem_cons.mp member with rfl | member
    · constructor
      case steady => exact steady
      case inside =>
        rw [addr, sized]
        exact held.inside
      case aligned =>
        rw [addr, sized]
        exact held.aligned
      case owned =>
        rw [addr, sized]
        exact held.owned
      case contents => exact contents
    · exact tenants.held other (List.mem_cons_of_mem _ member)
  · rw [List.map_cons, addr]
    exact tenants.distinct

lemma Tenants.settle (tenants : Tenants quick own live) (new : Live) (steady : Matched new.layout)
    (inside : quick.base ≤ new.addr ∧ new.addr + (adjust new.layout).1 ≤ quick.base + quick.cursor)
    (aligned : (adjust new.layout).1 ∣ new.addr)
    (lost : Owns own new.addr (adjust new.layout).1 .lost)
    (contents : ∀ offset, offset < new.layout.size → quick.mem (new.addr + offset) =
      new.contents offset) :
    Tenants quick (claim own new.addr (adjust new.layout).1 (.live new.addr)) (new :: live) := by
  obtain ⟨lists, rep⟩ := tenants.rep
  have spares : Spares quick own quick
    (claim own new.addr (adjust new.layout).1 (.live new.addr)) :=
    ⟨⟨rfl, rfl⟩, Nat.le_refl _, fun place other belongs => claim_other lost belongs nofun,
      fun _ _ _ => rfl⟩
  have held : Held quick (claim own new.addr (adjust new.layout).1 (.live new.addr)) new :=
    ⟨steady, inside, aligned, owns_claim, contents⟩
  have fresh : ∀ other ∈ live, other.addr ≠ new.addr := by
    intro other member same
    have kept := tenants.held other member
    have positive := kept.positive
    have positive' := held.positive
    have mine := kept.owned other.addr (Nat.le_refl _) (by omega)
    cases mine.symm.trans (lost other.addr (by omega) (by omega))
  refine ⟨⟨lists, rep.transfer _ lost (.inl rfl)⟩, ?_, ?_⟩
  · intro other member
    rcases List.mem_cons.mp member with rfl | member
    · exact held
    · exact (tenants.held other member).spared spares
  · rw [List.map_cons, List.nodup_cons]
    refine ⟨?_, tenants.distinct⟩
    intro member
    obtain ⟨other, member, same⟩ := List.mem_map.mp member
    exact fresh other member same

lemma Tenants.evict (tenants : Tenants quick own (block :: live)) :
    Tenants quick (claim own block.addr (adjust block.layout).1 .lost) live := by
  obtain ⟨lists, rep⟩ := tenants.rep
  have held := tenants.held block mem_cons_self
  obtain ⟨fresh, distinct⟩ := List.nodup_cons.mp tenants.distinct
  refine ⟨⟨lists, rep.transfer _ held.owned (.inr ⟨_, rfl⟩)⟩, ?_, distinct⟩
  intro other member
  have kept := tenants.held other (List.mem_cons_of_mem _ member)
  refine ⟨kept.steady, kept.inside, kept.aligned, ?_, kept.contents⟩
  apply held.owned.claim_other kept.owned
  intro same
  apply fresh
  rw [← Owner.live.inj same]
  exact List.mem_map_of_mem member

lemma Tenants.free (tenants : Tenants quick own (block :: live)) (small : Small block.layout)
    (fuel : Nat) :
    ∃ after own', quick.free fuel block.addr block.layout = some after ∧ Tenants after own' live ∧
      after.base = quick.base ∧ after.len = quick.len := by
  have held := tenants.held block mem_cons_self
  obtain ⟨k, adjusted⟩ := small.index
  have evicted := tenants.evict
  obtain ⟨lists, rep⟩ := evicted.rep
  have inside := held.inside
  have aligned := held.aligned
  rw [adjusted] at evicted rep inside aligned
  obtain ⟨rep', spares⟩ := rep.push (quickSize k) inside.1 inside.2 aligned owns_claim
  refine ⟨_, _, ?_, evicted.spared rep' spares, spares.arena⟩
  have nonzero : block.addr ≠ 0 := by
    have positive := rep.arena.1
    omega
  simp only [QuickFit.free, if_neg nonzero, adjusted, quickSize_le, and_self, if_true]
  exact freeQuick_eq aligned

variable {layout : Layout} {fuel : Nat}

lemma Tenants.malloc (tenants : Tenants quick own live) (steady : Matched layout)
    (enough : quick.len < 64 * fuel) :
    ∃ ptr after own', quick.malloc fuel layout = some (ptr, after) ∧ Tenants after own' live ∧
      (after.base = quick.base ∧ after.len = quick.len) ∧ (ptr ≠ 0 →
        (after.base ≤ ptr ∧ ptr + (adjust layout).1 ≤ after.base + after.cursor) ∧
        (adjust layout).1 ∣ ptr ∧ Owns own' ptr (adjust layout).1 .lost) := by
  obtain ⟨_, rep⟩ := tenants.rep
  obtain ⟨result, after, own', done, granted⟩ := malloc_granted rep steady rfl enough
  obtain ⟨_, rep'⟩ := granted.rep
  refine ⟨result.getD 0, after, own', done, tenants.spared rep' granted.spares,
    granted.spares.arena, ?_⟩
  intro nonzero
  cases result with
  | none => exact absurd rfl nonzero
  | some ptr => exact ⟨granted.inside ptr rfl, granted.aligned ptr rfl, granted.lost ptr rfl⟩

lemma Tenants.overwrite {mem : ByteMem} (tenants : Tenants quick own live)
    (free : ∀ place other, own place = .free other → mem place = quick.mem place)
    (used : ∀ place other, own place = .live other → mem place = quick.mem place) :
    Tenants { quick with mem := mem } own live := by
  obtain ⟨_, rep⟩ := tenants.rep
  exact tenants.spared (rep.overwrite free) ⟨⟨rfl, rfl⟩, Nat.le_refl _, fun _ _ belongs =>
    belongs, used⟩

lemma fromSizeAlign_eq {size align : Nat} (valid : fromSizeAlign size align = some layout) :
    layout.size = size ∧ layout.align = align := by
  rw [fromSizeAlign] at valid
  split at valid
  · cases valid
    exact ⟨rfl, rfl⟩
  · cases valid

variable {newSize : Nat}

lemma Tenants.resize (tenants : Tenants quick own (block :: live)) (steady : Matched layout)
    (fits : adjust layout = (block.layout.size, block.layout.align)) :
    Tenants quick own (⟨block.addr, layout, carried block newSize block.addr quick.mem⟩ ::
      live) := by
  have held := tenants.held block mem_cons_self
  obtain ⟨shift, adjusted, low, -⟩ := steady.shift
  obtain ⟨size, align⟩ := Prod.mk.inj (adjusted.symm.trans fits)
  have same : adjust layout = adjust block.layout := by
    rw [adjusted, adjust_power size.symm align.symm low]
  refine tenants.relabel ⟨block.addr, layout, carried block newSize block.addr quick.mem⟩ rfl
    steady same ?_
  intro offset less
  change quick.mem (block.addr + offset) = carried block newSize block.addr quick.mem offset
  rw [carried]
  split
  · exact held.contents offset (by omega)
  · rfl

lemma Tenants.move {ptr : Nat} {middle : QuickFit} (fuel : Nat)
    (tenants : Tenants middle own (block :: live)) (small : Small block.layout)
    (steady : Matched layout) (valid : fromSizeAlign newSize block.layout.align = some layout)
    (inside : middle.base ≤ ptr ∧ ptr + (adjust layout).1 ≤ middle.base + middle.cursor)
    (aligned : (adjust layout).1 ∣ ptr) (lost : Owns own ptr (adjust layout).1 .lost) :
    ∃ after own', QuickFit.free fuel
        { middle with mem := copyBytes middle.mem block.addr ptr (min block.layout.size newSize) }
        block.addr block.layout = some after ∧
      Tenants after own' (⟨ptr, layout, carried block newSize ptr after.mem⟩ :: live) ∧
      after.base = middle.base ∧ after.len = middle.len := by
  have held := tenants.held block mem_cons_self
  obtain ⟨shift, adjusted, -, -, room, -⟩ := steady.shift
  have size := (fromSizeAlign_eq valid).1
  have most : min block.layout.size newSize ≤ (adjust layout).1 := by
    rw [adjusted]
    omega
  have kept : ∀ place owner, own place = owner → owner ≠ .lost →
      copyBytes middle.mem block.addr ptr (min block.layout.size newSize) place =
        middle.mem place := by
    intro place owner belongs other
    apply copyBytes_outside
    by_contra within
    exact other (belongs.symm.trans (lost place (by omega) (by omega)))
  have copied := tenants.overwrite (fun place _ belongs => kept place _ belongs nofun)
    (fun place _ belongs => kept place _ belongs nofun)
  have brought : ∀ offset, offset < layout.size →
      copyBytes middle.mem block.addr ptr (min block.layout.size newSize) (ptr + offset) =
        carried block newSize ptr
          (copyBytes middle.mem block.addr ptr (min block.layout.size newSize)) offset := by
    intro offset _
    rw [carried]
    split
    · rename_i less
      rw [copyBytes_inside less]
      exact held.contents offset (by omega)
    · rfl
  have both := copied.settle ⟨ptr, layout, carried block newSize ptr _⟩ steady inside aligned
    lost brought
  obtain ⟨after, own', freed, left, same⟩ := (both.perm (.swap _ _ _)).free small fuel
  refine ⟨after, own', freed, ?_, same⟩
  have final := (left.held _ mem_cons_self).contents
  refine left.relabel ⟨ptr, layout, carried block newSize ptr after.mem⟩ rfl steady rfl ?_
  intro offset less
  change after.mem (ptr + offset) = carried block newSize ptr after.mem offset
  rw [carried]
  split
  · rename_i within
    rw [final offset less]
    exact if_pos within
  · rfl

lemma Tenants.realloc (tenants : Tenants quick own (block :: live))
    (steady : Matched layout) (valid : fromSizeAlign newSize block.layout.align = some layout)
    (served : Small block.layout ∨ adjust layout = (block.layout.size, block.layout.align))
    (enough : quick.len < 64 * fuel) :
    ∃ ptr after own', quick.realloc fuel block.addr block.layout newSize = some (ptr, after) ∧
      (after.base = quick.base ∧ after.len = quick.len) ∧ Tenants after own'
        (if ptr = 0 then block :: live else ⟨ptr, layout, carried block newSize ptr after.mem⟩ ::
          live) := by
  have nonzero : block.addr ≠ 0 := by
    obtain ⟨lists, rep⟩ := tenants.rep
    have positive := rep.arena.1
    have inside := (tenants.held block mem_cons_self).inside
    omega
  by_cases fits : adjust layout = (block.layout.size, block.layout.align)
  · refine ⟨block.addr, quick, own, ?_, ⟨rfl, rfl⟩, ?_⟩
    · simp only [QuickFit.realloc, if_neg nonzero, valid, Option.bind_some, if_pos fits]
    · rw [if_neg nonzero]
      exact tenants.resize steady fits
  have small : Small block.layout := served.resolve_right fits
  obtain ⟨ptr, middle, own', allocated, tenants', arena, given⟩ := tenants.malloc steady enough
  by_cases null : ptr = 0
  · refine ⟨ptr, middle, own', ?_, arena, ?_⟩
    · simp only [QuickFit.realloc, if_neg nonzero, valid, Option.bind_some, if_neg fits, allocated,
        if_pos null]
    · rw [if_pos null]
      exact tenants'
  obtain ⟨inside, aligned, lost⟩ := given null
  obtain ⟨after, own'', freed, moved, same⟩ :=
    tenants'.move fuel small steady valid inside aligned lost
  refine ⟨ptr, after, own'', ?_, ⟨same.1.trans arena.1, same.2.trans arena.2⟩, ?_⟩
  · simp only [QuickFit.realloc, if_neg nonzero, valid, Option.bind_some, if_neg fits, allocated,
      if_neg null, freed, Option.map_some]
  · rw [if_neg null]
    exact moved

lemma Tenants.store {offset : Nat} (tenants : Tenants quick own (block :: live)) (value : BitVec 8)
    (inside : offset < block.layout.size) :
    ∃ own', Tenants { quick with mem := update quick.mem (block.addr + offset) value } own'
      ({ block with contents := update block.contents offset value } :: live) := by
  have held := tenants.held block mem_cons_self
  have size := held.size_le
  have lost : Owns (claim own block.addr (adjust block.layout).1 .lost) block.addr
      (adjust block.layout).1 .lost := owns_claim
  have kept : ∀ place owner, claim own block.addr (adjust block.layout).1 .lost place = owner →
      owner ≠ .lost → update quick.mem (block.addr + offset) value place = quick.mem place := by
    intro place owner belongs other
    apply update_of_ne
    rintro rfl
    exact other (belongs.symm.trans (lost _ (Nat.le_add_right _ _) (by omega)))
  have written := tenants.evict.overwrite (fun place _ belongs => kept place _ belongs nofun)
    (fun place _ belongs => kept place _ belongs nofun)
  refine ⟨_, written.settle { block with contents := update block.contents offset value }
    held.steady held.inside held.aligned lost ?_⟩
  intro other less
  by_cases same : other = offset
  · subst same
    change update quick.mem (block.addr + other) value (block.addr + other) =
      update block.contents other value other
    rw [update_self, update_self]
  change update quick.mem (block.addr + offset) value (block.addr + other) =
    update block.contents offset value other
  rw [update_of_ne same, update_of_ne (by omega)]
  exact held.contents other less

end

/-! ## Runs -/

/-- The invariant: no panic, and the blocks are held in the arena. -/
structure HeapInv (arena : Arena) (heap : Heap) : Prop where
  running : heap.panicked = false
  arena : heap.quick.base = arena.block.ptr ∧ heap.quick.len = arena.block.len
  tenants : ∃ own, Tenants heap.quick own heap.live

section

variable {arena : Arena} {fuel : Nat}

lemma HeapInv.new (arena : Arena) (mem : ByteMem) : HeapInv arena (.new arena mem) := by
  have tail : Owns (fun _ => .tail) (arena.block.ptr + 0) (arena.block.len - 0) .tail :=
    fun _ _ _ => rfl
  have rep : Rep (.new arena.block mem) (fun _ => .tail) fun _ => [] :=
    ⟨⟨arena.nonnull, arena.isize, arena.ends⟩, Nat.zero_le _, tail, fun _ => rfl,
      ⟨nofun, nofun, nofun, fun _ => .nil, nofun⟩, rfl⟩
  exact ⟨rfl, ⟨rfl, rfl⟩, _, ⟨_, rep⟩, nofun, .nil⟩

lemma HeapInv.keeps (enough : arena.block.len < 64 * fuel) (heap : Heap) (call : Call) (next : Heap)
    (sound : HeapInv arena heap) (served : WorksFor heap call)
    (taken : step fuel heap call = some next) :
    HeapInv arena next := by
  obtain ⟨own, tenants⟩ := sound.tenants
  obtain ⟨base, len⟩ := sound.arena
  have running : ¬ heap.panicked = true := by
    rw [sound.running]
    exact nofun
  rw [← len] at enough
  unfold step at taken
  rw [if_neg running] at taken
  cases call with
  | malloc layout =>
    obtain ⟨ptr, after, own', done, tenants', same, given⟩ := tenants.malloc served enough
    have arena : after.base = arena.block.ptr ∧ after.len = arena.block.len :=
      ⟨same.1.trans base, same.2.trans len⟩
    simp only [done] at taken
    split at taken
    · cases taken
      exact ⟨sound.running, arena, own', tenants'⟩
    rename_i nonzero
    cases taken
    obtain ⟨inside, aligned, lost⟩ := given nonzero
    exact ⟨sound.running, arena, _, tenants'.settle ⟨ptr, layout, _⟩ served inside aligned lost
      fun _ _ => rfl⟩
  | free =>
    obtain ⟨block, found, result⟩ := Option.map_eq_some_iff.mp taken
    obtain ⟨_, own', done, tenants', same⟩ := (tenants.named found).free (served block found) fuel
    simp only [done] at result
    subst result
    exact ⟨sound.running, ⟨same.1.trans base, same.2.trans len⟩, own', tenants'⟩
  | realloc =>
    obtain ⟨block, found, valid⟩ := Option.bind_eq_some_iff.mp taken
    obtain ⟨layout, valid, result⟩ := Option.map_eq_some_iff.mp valid
    obtain ⟨steady, small⟩ := served block found layout valid
    obtain ⟨ptr, after, own', done, same, tenants'⟩ :=
      (tenants.named found).realloc steady valid small enough
    have arena : after.base = arena.block.ptr ∧ after.len = arena.block.len :=
      ⟨same.1.trans base, same.2.trans len⟩
    simp only [done] at result
    subst result
    split
    · rename_i null
      rw [if_pos null] at tenants'
      obtain ⟨inside, rfl⟩ := List.getElem?_eq_some_iff.mp found
      exact ⟨sound.running, arena, own', tenants'.perm (List.getElem_cons_eraseIdx_perm inside)⟩
    rename_i nonzero
    rw [if_neg nonzero] at tenants'
    exact ⟨sound.running, arena, own', tenants'⟩
  | store _ _ value =>
    obtain ⟨block, found, result⟩ := Option.bind_eq_some_iff.mp taken
    split at result
    · rename_i inside
      cases result
      exact ⟨sound.running, ⟨base, len⟩, (tenants.named found).store value inside⟩
    · cases result

lemma HeapInv.safe (heap : Heap) (sound : HeapInv arena heap) : Safe arena heap := by
  obtain ⟨own, tenants⟩ := sound.tenants
  obtain ⟨lists, rep⟩ := tenants.rep
  obtain ⟨base, len⟩ := sound.arena
  have cursor := rep.cursor
  constructor
  case running => exact sound.running
  case aligned =>
    intro block member
    have held := tenants.held block member
    obtain ⟨_, adjusted, -, -, -, aligned⟩ := held.steady.shift
    have whole := held.aligned
    rw [adjusted] at whole
    exact Nat.dvd_trans aligned whole
  case inside =>
    intro block member
    have held := tenants.held block member
    have size := held.size_le
    have inside := held.inside
    omega
  case apart =>
    have distinct := List.pairwise_map.mp tenants.distinct
    apply distinct.imp_of_mem
    intro block other member member' differ
    have held := tenants.held block member
    have held' := tenants.held other member'
    have size := held.size_le
    have size' := held'.size_le
    have apart := held.apart held' differ
    omega
  case contents => exact fun block member => (tenants.held block member).contents

end

/-- Over every run whose layouts are served, from a new allocator over any arena, no call panics or
runs out of fuel, and the blocks in use are aligned, inside the arena and apart, and keep their
contents. -/
theorem quickfit_safe (arena : Arena) (mem : ByteMem) (fuel : Nat) (calls : List Call)
    (enough : arena.block.len < 64 * fuel)
    (served : Along (step fuel) WorksFor (.new arena mem) calls) :
    Throughout (step fuel) (Safe arena) (.new arena mem) calls :=
  throughout_of_along (HeapInv.keeps enough) HeapInv.safe (HeapInv.new arena mem) served

def smallArena : Arena := ⟨⟨0x1040, 0x1000⟩, by decide, by decide, by decide⟩

instance (heap : Heap) (call : Call) : Decidable (WorksFor heap call) :=
  match call with
  | .malloc layout => inferInstanceAs (Decidable (Matched layout))
  | .free index => inferInstanceAs (Decidable (∀ block ∈ heap.live[index]?, Small block.layout))
  | .realloc index newSize => inferInstanceAs (Decidable (∀ block ∈ heap.live[index]?,
      ∀ layout ∈ fromSizeAlign newSize block.layout.align,
        Matched layout ∧ (Small block.layout ∨ adjust layout =
          (block.layout.size, block.layout.align))))
  | .store _ _ _ => .isTrue trivial

def clientCalls : List Call :=
  [.malloc ⟨24, 8, ⟨3, rfl⟩, by decide⟩, .malloc ⟨200, 16, ⟨4, rfl⟩, by decide⟩, .store 0 7 0xab,
    .realloc 0 300, .free 1]

/-- The run of such a client, in which nothing goes wrong. -/
theorem quickfit_safe_client : Along (step 65) WorksFor (.new smallArena fun _ => 0) clientCalls ∧
      ((run (step 65) (.new smallArena fun _ => 0) clientCalls).any fun heap =>
        heap.live.map Live.addr == [0x1200] && heap.quick.mem 0x1207 == 0xab) = true ∧
      Throughout (step 65) (Safe smallArena) (.new smallArena fun _ => 0) clientCalls := by
  have served : Along (step 65) WorksFor (.new smallArena fun _ => 0) clientCalls := by
    decide +kernel
  exact ⟨served, by decide +kernel, quickfit_safe smallArena _ 65 clientCalls (by decide) served⟩

/-- A block of 20000 bytes cannot be allocated: the bump allocator is asked for an alignment of
20000, which panics. A block of 64 bytes that is aligned to 4096 is allocated at an address that is
not. -/
theorem quickfit_unserved :
    (∀ mem fuel, step (fuel + 1) (.new smallArena mem) (.malloc ⟨20000, 8, ⟨3, rfl⟩, by decide⟩) =
      some { Heap.new smallArena mem with panicked := true }) ∧
    (step 65 (.new smallArena fun _ => 0) (.malloc ⟨64, 4096, ⟨12, rfl⟩, by decide⟩)).map
      (fun heap => (heap.panicked, heap.live.map Live.addr)) = some (false, [0x1040]) := by
  constructor
  · exact fun mem fuel => rfl
  · decide +kernel

/-! ## The quick lists -/

/-- The layouts of the quick lists. -/
def Quick (layout : Layout) : Prop :=
  layout.size ≤ maxQuickSize ∧ layout.align ≤ max minAllocSize (nextPowerOfTwo layout.size)

instance (layout : Layout) : Decidable (Quick layout) := inferInstanceAs (Decidable (_ ∧ _))

/-- A client asks for layouts of the quick lists only. -/
def AsksQuick (heap : Heap) : Call → Prop
  | .malloc layout => Quick layout
  | .realloc index newSize => ∀ block ∈ heap.live[index]?,
      ∀ layout ∈ fromSizeAlign newSize block.layout.align, Quick layout
  | .free _ | .store _ _ _ => True

instance (heap : Heap) (call : Call) : Decidable (AsksQuick heap call) :=
  match call with
  | .malloc layout => inferInstanceAs (Decidable (Quick layout))
  | .realloc index newSize => inferInstanceAs (Decidable (∀ block ∈ heap.live[index]?,
      ∀ layout ∈ fromSizeAlign newSize block.layout.align, Quick layout))
  | .free _ | .store _ _ _ => .isTrue trivial

/-- The nodes of the quick lists are blocks of the size of their list, in the bumped part of the
arena. They are apart from each other and from the blocks in use, which are in the bumped part too.
-/
structure Listed (heap : Heap) (lists : Fin numQlists → List Nat) : Prop where
  chains : ∀ k, Chain heap.quick.mem (heap.quick.qlists k) (lists k)
  aligned : ∀ k, ∀ block ∈ lists k, quickSize k ∣ block
  bumped : ∀ k, ∀ block ∈ lists k, heap.quick.base ≤ block ∧
    block + quickSize k ≤ heap.quick.base + heap.quick.cursor
  nodup : ∀ k, (lists k).Nodup
  apart : ∀ j k, ∀ block ∈ lists j, ∀ other ∈ lists k, block ≠ other ∨ j ≠ k →
    block + quickSize j ≤ other ∨ other + quickSize k ≤ block
  live : ∀ k, ∀ block ∈ lists k, ∀ held ∈ heap.live,
    block + quickSize k ≤ held.addr ∨ held.addr + held.layout.size ≤ block
  tail : ∀ held ∈ heap.live, held.addr + held.layout.size ≤ heap.quick.base + heap.quick.cursor

section

variable {arena : Arena} {fuel : Nat} {heap next : Heap} {call : Call}

lemma Quick.small {layout : Layout} (quick : Quick layout) : Small layout := by
  obtain ⟨size, align⟩ := quick
  have adjusted : adjust layout = (max minAllocSize (nextPowerOfTwo layout.size),
      max minAllocSize (nextPowerOfTwo layout.size)) := by
    rw [adjust, if_neg (Nat.not_lt.mpr size)]
    exact Prod.ext rfl (Nat.max_eq_right align)
  rw [QuickAlloc.Small, Matched, adjusted]
  exact ⟨rfl, Nat.max_le.mpr ⟨by decide, nextPowerOfTwo_le size⟩⟩

lemma AsksQuick.served (asks : AsksQuick heap call)
    (small : ∀ block ∈ heap.live, Small block.layout) :
    WorksFor heap call := by
  cases call with
  | malloc => exact (Quick.small asks).1
  | free => exact fun block found => small block (List.mem_of_getElem? found)
  | realloc =>
    exact fun block found layout valid =>
      ⟨(asks block found layout valid).small.1, .inl (small block (List.mem_of_getElem? found))⟩
  | store => trivial

lemma AsksQuick.keeps (asks : AsksQuick heap call) (small : ∀ block ∈ heap.live, Small block.layout)
    (taken : step fuel heap call = some next) : ∀ block ∈ next.live, Small block.layout := by
  have erased : ∀ index, ∀ block ∈ heap.live.eraseIdx index, Small block.layout :=
    fun index block member => small block (List.mem_of_mem_eraseIdx member)
  unfold step at taken
  split at taken
  · cases taken
  cases call with
  | malloc =>
    dsimp only at taken
    split at taken
    · cases taken
      exact small
    split at taken
    · cases taken
      exact small
    cases taken
    exact List.forall_mem_cons.mpr ⟨Quick.small asks, small⟩
  | free index =>
    obtain ⟨_, -, rfl⟩ := Option.map_eq_some_iff.mp taken
    split
    · exact small
    · exact erased index
  | realloc index =>
    obtain ⟨block, found, resized⟩ := Option.bind_eq_some_iff.mp taken
    obtain ⟨layout, valid, rfl⟩ := Option.map_eq_some_iff.mp resized
    split
    · exact small
    split
    · exact small
    · exact List.forall_mem_cons.mpr ⟨(asks block found layout valid).small, erased index⟩
  | store index =>
    obtain ⟨block, found, result⟩ := Option.bind_eq_some_iff.mp taken
    split at result
    · cases result
      exact List.forall_mem_cons.mpr ⟨small block (List.mem_of_getElem? found), erased index⟩
    · cases result

lemma HeapInv.listed (sound : HeapInv arena heap) : ∃ lists, Listed heap lists := by
  obtain ⟨own, tenants⟩ := sound.tenants
  obtain ⟨lists, rep⟩ := tenants.rep
  have placed := rep.placed
  refine ⟨lists, rep.chains, placed.aligned, placed.inside, placed.nodup, ?_, ?_, ?_⟩
  · intro j k block member other member' differ
    have size := le_quickSize j
    have size' := le_quickSize k
    by_contra meet
    -- A byte of both would belong to both of them.
    have mine := placed.owned j block member (max block other) (by omega) (by omega)
    have theirs := placed.owned k other member' (max block other) (by omega) (by omega)
    cases mine.symm.trans theirs
    rcases differ with differ | differ
    · exact differ rfl
    · exact differ (placed.once j k block member member')
  · intro k block member held inUse
    have owned := (tenants.held held inUse).owned
    have size := (tenants.held held inUse).size_le
    have positive := (tenants.held held inUse).positive
    have size' := le_quickSize k
    by_contra meet
    have mine := placed.owned k block member (max block held.addr) (by omega) (by omega)
    have theirs := owned (max block held.addr) (by omega) (by omega)
    cases mine.symm.trans theirs
  · intro held inUse
    have inside := (tenants.held held inUse).inside
    have size := (tenants.held held inUse).size_le
    omega

end

/-- Over every run of calls for layouts of the quick lists, from a new allocator over any arena: no
call panics, the blocks in use are aligned, inside the arena and apart and keep their contents, also
those that are reallocated, and the quick lists hold free blocks of their size, each once. -/
theorem quick_lists_sound (arena : Arena) (mem : ByteMem) (fuel : Nat) (calls : List Call)
    (enough : arena.block.len < 64 * fuel)
    (asks : Along (step fuel) AsksQuick (.new arena mem) calls) :
    Throughout (step fuel) (fun heap => Safe arena heap ∧ ∃ lists, Listed heap lists)
      (.new arena mem)
      calls := by
  have keeps : ∀ heap call next, (HeapInv arena heap ∧ ∀ block ∈ heap.live, Small block.layout) →
      AsksQuick heap call → step fuel heap call = some next →
      HeapInv arena next ∧ ∀ block ∈ next.live, Small block.layout :=
    fun heap call next inv asked taken =>
      ⟨HeapInv.keeps enough heap call next inv.1 (asked.served inv.2) taken,
        asked.keeps inv.2 taken⟩
  exact throughout_of_along keeps (fun heap inv => ⟨inv.1.safe, inv.1.listed⟩)
    ⟨HeapInv.new arena mem, nofun⟩ asks

/-- A client that allocates, stores and frees. -/
theorem quick_lists_sound_client :
    Along (step 65) AsksQuick (.new smallArena fun _ => 0) clientCalls ∧
      Throughout (step 65) (fun heap => Safe smallArena heap ∧ ∃ lists, Listed heap lists)
        (.new smallArena fun _ => 0) clientCalls := by
  have asks : Along (step 65) AsksQuick (.new smallArena fun _ => 0) clientCalls := by
    decide +kernel
  exact ⟨asks, quick_lists_sound smallArena _ 65 clientCalls (by decide) asks⟩

end R9x.Verif.QuickFit
