import R9x.R9xStd.Calls

/-!
# The heap of a process

`std/src/mem.rs`: the global allocator.
-/

namespace R9x.R9xStd

open Abi Aarch64.Trap

/-- `Layout`: an alignment is a power of two, and the size rounded up to it is at most `isize::MAX`.
-/
structure Layout where
  size : Nat
  align : Nat
  power : align.isPowerOfTwo
  fits : size + (align - 1) ≤ 2 ^ 63 - 1

lemma Layout.eq_iff (left right : Layout) : left = right ↔ left.size = right.size ∧ left.align =
    right.align := by
  cases left
  cases right
  rw [Layout.mk.injEq]

instance : DecidableEq Layout := fun left right => decidable_of_iff _ (left.eq_iff right).symm

def pagesFor (size : Nat) : Nat := max ((size + pageSize.toNat - 1) / pageSize.toNat) 1

/-- The bytes of the grant for a layout. -/
def Layout.needed (layout : Layout) : Nat := pagesFor layout.size * pageSize.toNat

section

variable {σ : Type}

/-- `Global::alloc`: the pointer, if it is not null, and `HEAP.brk`. -/
def alloc (handlers : Handlers σ) (layout : Layout) (brk : UInt64) (state : σ) :
    Option ((Option UInt64 × UInt64) × σ) :=
  let needed := UInt64.ofNat layout.needed
  (sys handlers sysAlloc needed 0 0 0 0 state).map fun ((va, _, _), state) =>
    if va < pageSize then ((none, brk), state) else ((some va, va + needed), state)

/-- `Global::dealloc`: `HEAP.brk`. -/
def dealloc (handlers : Handlers σ) (ptr : UInt64) (layout : Layout) (brk : UInt64) (state : σ) :
    Option (UInt64 × σ) :=
  let top := ptr + UInt64.ofNat layout.needed
  if top = brk then
    (sys handlers sysFree ptr 0 0 0 0 state).map fun (_, state) => (ptr, state)
  else some (brk, state)

variable (handlers : Handlers σ) (state : σ)

lemma sys_alloc (count : UInt64) : sys handlers sysAlloc count 0 0 0 0 state =
      (handlers.sysAlloc count state).map fun (result, state) => ((result, 0, 0), state) :=
  outputs_giveX0 ⟨count, 0, 0, 0, 0, sysAlloc⟩ _

lemma sys_free (va : UInt64) : sys handlers sysFree va 0 0 0 0 state =
      (handlers.sysFree va state).map fun (result, state) => ((result, 0, 0), state) :=
  outputs_giveX0 ⟨va, 0, 0, 0, 0, sysFree⟩ _

end

lemma needed_pages (layout : Layout) :
    layout.size ≤ layout.needed ∧ 0 < layout.needed ∧ layout.needed % 4096 = 0 ∧ layout.needed ≤
      2 ^ 63 := by
  have fits := layout.fits
  have page : pageSize.toNat = 4096 := rfl
  rw [Layout.needed, pagesFor, page]
  omega

end R9x.R9xStd
