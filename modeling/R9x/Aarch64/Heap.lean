import R9x.Aarch64.Aspace
import R9x.Lib.Checked

/-!
# The process heap

`aarch64/src/process.rs`: the heap calls of the current process.
-/

namespace R9x.Aarch64

open Lib Aarch64.Vm

/-- `brk_grow`. It is not unfolded by unification, which would count the page size in unary. -/
@[irreducible]
def brkGrow (brk count bound : Nat) : Option Nat :=
  let pages := (count + pageSize4K - 1) / pageSize4K
  (checkedMul pages pageSize4K).bind fun add =>
    (checkedAdd brk add).bind fun newBrk => if newBrk ≤ bound then some newBrk else none

def brkShrink (base brk va : Nat) : Option Nat :=
  if va % pageSize4K = 0 ∧ base ≤ va ∧ va ≤ brk then some va else none

/-- What the loop of `heap_grow` did. -/
structure Grant where
  failed : Option Nat
  mapped : List (Nat × PhysAddr)
  deriving DecidableEq

/-- The loop of `heap_grow`: map so many pages from an address on. -/
def growPages (ttbr : Ttbr) (root : PageNo) : Nat → Nat → Phys → Option (Grant × Phys)
  | 0, _, phys => some (⟨none, []⟩, phys)
  | count + 1, page, phys =>
    match Aspace.mapUserDataPagePa ttbr root (BitVec.ofNat 64 page) phys with
    | none => none
    | some (.error _, phys) => some (⟨some page, []⟩, phys)
    | some (.ok pa, phys) =>
      (growPages ttbr root count (page + pageSize4K) phys).map fun (grant, phys) =>
        ({ grant with mapped := (page, pa) :: grant.mapped }, phys)

/-- How often the loop of `heap_grow` runs from a page up to an address. -/
def pagesUpTo (page newBrk : Nat) : Nat := (newBrk - page + pageSize4K - 1) / pageSize4K

/-- The result of a heap call, with the space and the memory after it. -/
structure HeapOutcome (α : Type) where
  answer : Option α
  mapped : List (Nat × PhysAddr)
  space : Space
  phys : Phys

/-- `heap_grow`, which keeps the pages mapped before a shortage. -/
def heapGrow (kernel : PageNo) (space : Space) (count : Nat) (phys : Phys) :
    Option (HeapOutcome Nat) :=
  match brkGrow space.heapBrk count kzero with
  | none => some ⟨none, [], space, phys⟩
  | some newBrk =>
    match growPages ⟨space.root, kernel⟩ space.root (pagesUpTo space.heapHwm newBrk) space.heapHwm
      phys with
    | none => none
    | some (⟨some page, mapped⟩, phys) =>
      some ⟨none, mapped, { space with heapHwm := page }, phys⟩
    | some (⟨none, mapped⟩, phys) =>
      some ⟨some space.heapBrk, mapped, { space with heapBrk := newBrk, heapHwm := newBrk }, phys⟩

/-- `heap_alloc_page`: one page. -/
def heapAllocPage (kernel : PageNo) (space : Space) (phys : Phys) :
    Option (HeapOutcome (Nat × PhysAddr)) :=
  match brkGrow space.heapBrk pageSize4K kzero with
  | none => some ⟨none, [], space, phys⟩
  | some newBrk =>
    match Aspace.mapUserDataPagePa ⟨space.root, kernel⟩ space.root (BitVec.ofNat 64 space.heapHwm)
      phys with
    | none => none
    | some (.error _, phys) => some ⟨none, [], space, phys⟩
    | some (.ok pa, phys) =>
      some ⟨some (space.heapBrk, pa), [(space.heapHwm, pa)],
        { space with heapBrk := newBrk, heapHwm := newBrk }, phys⟩

def heapShrink (space : Space) (va : Nat) : Space :=
  match brkShrink space.heapBase space.heapBrk va with
  | some newBrk => { space with heapBrk := newBrk }
  | none => space

end R9x.Aarch64
