import R9x.Aarch64.Depth
import R9x.Lib.Run

/-!
# The interrupt depth along every run

Every core's depth is one in the body of a handler and zero everywhere else, whichever cores a
process is suspended and resumed on.
-/

namespace R9x.Verif.DepthRuns

open Lib Aarch64 Aarch64.Depth
open Function (update update_self update_of_ne)

variable {n m : Nat}

/-- The depth of a core fits where it is. -/
structure DepthRight (machine : Machine n m) (core : Fin m) : Prop where
  user : ∀ slot, machine.cores core = .user slot → machine.depth core = 0
  kernel : machine.cores core = .kernel → machine.depth core = 0
  body : (machine.cores core).inBody = true → machine.depth core = 1
  exits : (machine.cores core).exits = true → machine.depth core ≠ 0

def Counted (machine : Machine n m) : Prop :=
  ∀ core, machine.depth core = if (machine.cores core).inBody then 1 else 0

variable {machine after : Machine n m} {core : Fin m} {point : Point n}

lemma inBody_of_exits (exits : point.exits = true) : point.inBody = true := by
  cases point with
  | body _ | chosen _ _ _ | parking _ _ => rfl
  | _ => cases exits

section

variable (counted : Counted machine)
include counted

lemma Counted.right (core : Fin m) : DepthRight machine core := by
  have depth := counted core
  refine ⟨?_, ?_, ?_, ?_⟩
  · intro _ at_
    rw [at_] at depth
    exact depth
  · intro at_
    rw [at_] at depth
    exact depth
  · intro inside
    rw [inside] at depth
    exact depth
  · intro exits
    rw [inBody_of_exits exits] at depth
    rw [depth]
    decide

lemma Counted.set {value : UInt64} (fits : value = if point.inBody then 1 else 0)
    (depth : after.depth = update machine.depth core value)
    (cores : after.cores = update machine.cores core point) : Counted after := by
  intro other
  rw [depth, cores]
  by_cases here : other = core
  · rw [here, update_self, update_self]
    exact fits
  rw [update_of_ne here, update_of_ne here]
  exact counted other

lemma Counted.moves (depth : after.depth = machine.depth)
    (cores : after.cores = update machine.cores core point)
    (same : point.inBody = (machine.cores core).inBody) : Counted after := by
  have kept : after.depth = update machine.depth core (machine.depth core) := by
    rw [depth, Function.update_eq_self]
  refine counted.set ?_ kept cores
  rw [counted core, same]

lemma Counted.enters (outside : (machine.cores core).inBody = false) (inside : point.inBody = true)
    (taken : (machine.enterInterrupt core).map (Machine.goto · core point) = some after) :
    Counted after := by
  rw [Machine.enterInterrupt] at taken
  split at taken
  · cases taken
    refine counted.set ?_ rfl rfl
    rw [counted core, outside, inside]
    rfl
  · cases taken

lemma Counted.leaves (inside : (machine.cores core).inBody = true) (outside : point.inBody = false)
    (taken : (machine.exitInterrupt core).map (Machine.goto · core point) = some after) :
    Counted after := by
  rw [Machine.exitInterrupt] at taken
  split at taken
  · cases taken
    refine counted.set ?_ rfl rfl
    rw [counted core, inside, outside]
    rfl
  · cases taken

lemma Counted.switchOut {slot : Fin n} {demoteTo : State} {ends : Bool} {stay : Point n}
    (inside : (machine.cores core).inBody = true) (stays : stay.inBody = true) :
    Counted (machine.switchOut core slot demoteTo ends stay) := by
  rw [Machine.switchOut]
  split
  · exact counted.moves rfl rfl inside.symm
  split
  · exact counted.moves rfl rfl inside.symm
  · exact counted.moves rfl rfl (stays.trans inside.symm)

lemma Counted.advance (taken : machine.advance core (machine.cores core) = some after) :
    Counted after := by
  generalize at_ : machine.cores core = phase at taken
  cases phase with
  | vector =>
    exact counted.enters (by rw [at_]; rfl) rfl taken
  | chosen _ _ _ | parking _ _ =>
    exact counted.leaves (by rw [at_]; rfl) rfl taken
  | leaving =>
    cases taken
    exact counted.moves rfl rfl (by rw [at_]; rfl)
  | loaded source next context =>
    have outside : (Machine.resume next context).inBody = (machine.cores core).inBody := by
      rw [at_]
      cases context with
      | forkret | handler _ => rfl
    cases source with
    | none | some _ =>
      cases taken
      exact counted.moves rfl rfl outside
  | parked _ ends =>
    obtain ⟨_, -, rfl⟩ := Option.map_eq_some_iff.mp taken
    cases ends with
    | true | false => exact counted.moves rfl rfl (by rw [at_]; rfl)
  | resumed _ ends =>
    refine counted.enters (by rw [at_]; rfl) ?_ taken
    cases ends with
    | true | false => rfl
  | tail current =>
    cases current with
    | none | some _ =>
      cases taken
      exact counted.moves rfl rfl (by rw [at_]; rfl)
  | kernel | user _ | body _ | ending _ | halted =>
    cases taken

/-- Every step keeps the count. -/
lemma Counted.step {label : Fin m × Action n} (taken : step machine label = some after) :
    Counted after := by
  obtain ⟨core, action⟩ := label
  cases action with
  | work =>
    simp only [Depth.step] at taken
    split at taken
    · cases taken
      exact counted
    · cases taken
      exact counted
    · cases taken
      exact counted
    · cases taken
  | install =>
    simp only [Depth.step] at taken
    split at taken
    · cases taken
      exact counted
    · cases taken
      exact counted
    · cases taken
  | runAll =>
    simp only [Depth.step] at taken
    split at taken
    · rename_i at_
      obtain ⟨_, -, rfl⟩ := Option.map_eq_some_iff.mp taken
      exact counted.moves rfl rfl (by rw [at_]; rfl)
    · cases taken
  | trap =>
    simp only [Depth.step] at taken
    split at taken
    · rename_i at_
      cases taken
      exact counted.moves rfl rfl (by rw [at_]; rfl)
    · rename_i at_
      cases taken
      exact counted.moves rfl rfl (by rw [at_]; rfl)
    · cases taken
  | resched =>
    simp only [Depth.step] at taken
    split at taken
    · cases taken
      exact counted
    · rename_i at_
      cases taken
      exact counted.switchOut (by rw [at_]; rfl) (by rw [at_]; rfl)
    · rename_i at_
      cases taken
      exact counted.switchOut (by rw [at_]; rfl) rfl
    · cases taken
  | block =>
    simp only [Depth.step] at taken
    split at taken
    · cases taken
      exact counted
    · rename_i at_
      cases taken
      exact counted.switchOut (by rw [at_]; rfl) rfl
    · cases taken
  | exit _ | fault =>
    simp only [Depth.step] at taken
    split at taken
    · rename_i at_
      cases taken
      exact counted.moves rfl rfl (by rw [at_]; rfl)
    · rename_i at_
      split at taken
      · cases taken
        exact counted.moves rfl rfl (by rw [at_]; rfl)
      cases taken
      exact counted.moves rfl rfl (by rw [at_]; rfl)
    · cases taken
  | finish =>
    simp only [Depth.step] at taken
    split at taken
    · rename_i at_
      exact counted.leaves (by rw [at_]; rfl) rfl taken
    · cases taken
  | advance => exact counted.advance taken

end

/-- In every run of any number of cores, the depth of a core is zero in EL0 code and in the kernel
outside a handler, one in the body of a handler, and never zero where `exit_interrupt` takes one
from it. -/
theorem interrupt_depth_right (labels : List (Fin m × Action n)) :
    Throughout Depth.step (fun machine => ∀ core, DepthRight machine core) Machine.boot labels := by
  have keeps : ∀ (machine : Machine n m) label after, Counted machine →
      Depth.step machine label = some after → Counted after :=
    fun _ _ _ counted taken => counted.step taken
  exact throughout_of_invariant keeps (fun _ counted core => counted.right core)
    (fun _ => rfl) labels

end R9x.Verif.DepthRuns
