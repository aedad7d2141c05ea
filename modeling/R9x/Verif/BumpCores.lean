import R9x.Lib.Run
import R9x.Lib.Tiling
import R9x.Verif.QuickLists

/-!
# The bump allocator on many cores

Calls of `try_alloc` on any number of cores. `try_update` loads the cursor, runs the closure on it
and exchanges it, and after a failed exchange goes on with the value that this has found.
-/

namespace R9x.Verif.BumpCores

open Lib Port.Allocator QuickLists
open Function (update)

/-- What the closure writes to the variables it captures, and its result. -/
structure Attempt where
  first : Nat
  adjust : Nat
  next : Option Nat

/-- Where a core is in `try_alloc`. -/
inductive Place where
  | out
  | loaded (align size current : Nat)
  | exchange (align size current first adjust next : Nat)
  | panicked

/-- What a call has returned. -/
structure Grant where
  align : Nat
  front : Block
  block : Block

/-- The shared cursor, the calls underway and the blocks returned. -/
structure Cores (κ : Type) where
  arena : Block
  cursor : Nat
  place : κ → Place
  /-- The last one first. -/
  grants : List Grant

/-- What a core does next. -/
inductive Label (κ : Type) where
  | call (core : κ) (align size : Nat)
  | closure (core : κ)
  | exchange (core : κ) (spurious : Bool)

def closure (arena : Block) (align size current : Nat) : Option Attempt :=
  let first := wrappingAdd arena.ptr current
  (alignOffset first align).bind fun adjust =>
    (checkedAdd current adjust).bind fun offset =>
      (checkedAdd offset size).map fun next =>
      ⟨first, adjust, if next ≤ arena.len then some next else none⟩

variable {κ : Type} [DecidableEq κ]

def Cores.goto (cores : Cores κ) (core : κ) (place : Place) : Cores κ :=
  { cores with place := update cores.place core place }

def step (cores : Cores κ) : Label κ → Option (Cores κ)
  | .call core align size =>
    match cores.place core with
    | .out => some (cores.goto core (.loaded align size cores.cursor))
    | _ => none
  | .closure core =>
    match cores.place core with
    | .loaded align size current =>
      some (cores.goto core (match closure cores.arena align size current with
        | none => .panicked
        | some ⟨_, _, none⟩ => .out
        | some ⟨first, adjust, some next⟩ => .exchange align size current first adjust next))
    | _ => none
  | .exchange core spurious =>
    match cores.place core with
    | .exchange align size current first adjust next =>
      if cores.cursor = current ∧ spurious = false then
        some { cores.goto core .out with
          cursor := next
          grants := ⟨align, ⟨first, adjust⟩, ⟨wrappingAdd first adjust, size⟩⟩ :: cores.grants }
      else some (cores.goto core (.loaded align size cores.cursor))
    | _ => none

def Block.extent (block : Block) : Nat × Nat := (block.ptr, block.ptr + block.len)

/-- The prefixes and the blocks follow one another from the start of the arena to the cursor. -/
structure TiledToCursor (arena : Block) (cores : Cores κ) : Prop where
  tiled : Tiles arena.ptr (cores.grants.flatMap fun grant =>
    [Block.extent grant.block, Block.extent grant.front])
    (arena.ptr + cores.cursor)
  inside : cores.cursor ≤ arena.len
  aligned : ∀ grant ∈ cores.grants, grant.align ∣ grant.block.ptr

/-- The cursor does not fall, and moves only with a call that returns a block. -/
def Advances (cores next : Cores κ) : Prop :=
  cores.cursor ≤ next.cursor ∧ (next.grants = cores.grants → next.cursor = cores.cursor)

/-- What a core holds that is about to exchange the cursor. -/
def Holds (arena : Block) : Place → Prop
  | .exchange align size current first adjust next => first = arena.ptr + current ∧
      align ∣ first + adjust ∧
      next = current + adjust + size ∧ next ≤ arena.len
  | _ => True

/-- The invariant, with what each call has read. -/
structure Inv (arena : Block) (cores : Cores κ) : Prop extends TiledToCursor arena cores where
  arena_eq : cores.arena = arena
  places : ∀ core, Holds arena (cores.place core)

variable {arena : Block} {cores next : Cores κ} {core : κ}

lemma Inv.goto (inv : Inv arena cores) {place : Place} (holds : Holds arena place) :
    Inv arena (cores.goto core place) ∧ Advances cores (cores.goto core place) :=
  ⟨{ inv with
      places := (Function.forall_update_iff cores.place fun _ => Holds arena).mpr
        ⟨holds, fun other _ => inv.places other⟩ },
    Nat.le_refl _, fun _ => rfl⟩

lemma closure_holds {align size current first adjust next : Nat}
    (ends : arena.ptr + arena.len < 2 ^ 64)
    (ran : closure arena align size current = some ⟨first, adjust, some next⟩) :
    Holds arena (.exchange align size current first adjust next) := by
  obtain ⟨gap, offset, ran⟩ := Option.bind_eq_some_iff.mp ran
  obtain ⟨_, added, ran⟩ := Option.bind_eq_some_iff.mp ran
  obtain ⟨_, summed, ran⟩ := Option.map_eq_some_iff.mp ran
  obtain ⟨rfl, -⟩ := checkedAdd_some added
  obtain ⟨rfl, -⟩ := checkedAdd_some summed
  obtain ⟨rfl, rfl, chosen⟩ := Attempt.mk.inj ran
  obtain ⟨fits, ⟨⟩⟩ := Option.ite_none_right_eq_some.mp chosen
  have first : wrappingAdd arena.ptr current = arena.ptr + current := Nat.mod_eq_of_lt (by omega)
  have power : align.isPowerOfTwo := by
    by_contra none
    rw [alignOffset, if_neg none] at offset
    cases offset
  obtain ⟨_, same, -, aligned⟩ := alignOffset_spec (wrappingAdd arena.ptr current) power
  cases same.symm.trans offset
  exact ⟨first, aligned, rfl, fits⟩

lemma Inv.step (ends : arena.ptr + arena.len < 2 ^ 64) (cores : Cores κ) (label : Label κ)
    (next : Cores κ) (inv : Inv arena cores) (taken : step cores label = some next) :
    Inv arena next ∧ Advances cores next := by
  cases label with
  | call =>
    simp only [BumpCores.step] at taken
    split at taken <;> cases taken
    exact inv.goto trivial
  | closure =>
    simp only [BumpCores.step] at taken
    split at taken <;> cases taken
    split
    · exact inv.goto trivial
    · exact inv.goto trivial
    rename_i ran
    exact inv.goto (closure_holds ends (inv.arena_eq ▸ ran))
  | exchange core =>
    simp only [BumpCores.step] at taken
    split at taken
    · rename_i align size current first adjust new here
      split at taken <;> cases taken
      · rename_i claimed
        obtain ⟨rfl, aligned, rfl, fits⟩ : Holds arena (.exchange ..) := here ▸ inv.places core
        obtain ⟨rfl, -⟩ := claimed
        have start : wrappingAdd (arena.ptr + cores.cursor) adjust =
          arena.ptr + cores.cursor + adjust :=
          Nat.mod_eq_of_lt (by omega)
        obtain ⟨moved, -⟩ : Inv arena (cores.goto core .out) ∧ _ := inv.goto trivial
        refine ⟨{ moved with
          inside := fits
          tiled := ?_
          aligned := List.forall_mem_cons.mpr ⟨start ▸ aligned, inv.aligned⟩ },
          by dsimp only; omega, fun same => absurd same (List.cons_ne_self _ _)⟩
        rw [start]
        refine ⟨?_, Nat.le_add_right _ _, rfl, Nat.le_add_right _ _, inv.tiled⟩
        simp only [Block.extent, Nat.add_assoc]
      · exact inv.goto trivial
    · cases taken

/-- The first state: no call has been made. -/
def start (arena : Block) : Cores κ := ⟨arena, 0, fun _ => .out, []⟩

/-- On every arena, for every number of cores and in every interleaving of their loads and
exchanges: what the calls have returned tiles the arena up to the cursor, each block is aligned and
right behind its prefix, the cursor never falls, and a call that returns nothing leaves it as it is.
-/
theorem tryAlloc_concurrent (arena : Block) (ends : arena.ptr + arena.len < 2 ^ 64)
    (labels : List (Label κ)) :
    Throughout step (TiledToCursor arena) (start arena) labels ∧
      ∀ before label next, run step (start arena) labels = some before →
        step before label = some next →
        Advances before next := by
  have begins : Inv arena (start arena : Cores κ) :=
    ⟨⟨rfl, Nat.zero_le _, nofun⟩, rfl, fun _ => trivial⟩
  have keeps : ∀ (cores : Cores κ) label next, Inv arena cores → step cores label = some next →
      Inv arena next := fun cores label next inv taken =>
        (Inv.step ends cores label next inv taken).1
  refine ⟨throughout_of_invariant keeps (fun _ => Inv.toTiledToCursor) begins labels, ?_⟩
  intro before label next reached taken
  have inv := run_invariant (Inv arena) keeps begins reached
  exact (Inv.step ends before label next inv taken).2

/-- Two cores load the cursor before either exchanges it, and the one that is late runs the closure
again. -/
def bothLoad : List (Label Bool) :=
  [.call false 8 4, .call true 8 4, .closure false, .closure true, .exchange true false,
    .exchange false false, .closure false, .exchange false false]

/-- Two cores load the same cursor; one exchange fails. -/
theorem tryAlloc_concurrent_bothLoad : ((run step (start ⟨0x1004, 0x100⟩) bothLoad).map fun cores =>
      (cores.cursor, cores.grants.map fun grant => grant.block.ptr)) = some (16, [0x1010, 0x1008]) ∧
    Throughout step (TiledToCursor ⟨0x1004, 0x100⟩) (start ⟨0x1004, 0x100⟩) bothLoad :=
  ⟨by decide +kernel, (tryAlloc_concurrent ⟨0x1004, 0x100⟩ (by decide) bothLoad).1⟩

end R9x.Verif.BumpCores
