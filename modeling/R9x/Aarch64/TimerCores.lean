import R9x.Aarch64.Timer

/-!
# A periodic timer on many cores

The interrupt handlers of any number of cores over one periodic timer, one atomic operation at a
time. What a handler does for the other timers that it has copied touches nothing of this one.
-/

namespace R9x.Aarch64.TimerCores

open Aarch64.Timer
open Function (update)

/-- Where a core is in `interrupt_handler`, with what it has loaded. -/
inductive Place where
  | out
  | copied
  | scanning (now : Nat)
  | active (now : Nat)
  | due (now deadline : Nat)
  | exchange (now deadline next : Nat)
  | firing
  | stopping

/-- A claim of an expiry, which fires the callback: the counter that the handler has read, the
deadline that was claimed and the one that was installed. -/
structure Fire (κ : Type) where
  core : κ
  now : Nat
  deadline : Nat
  next : Nat

/-- The timers and what each core does with them. -/
structure Cores (κ : Type) where
  counter : Nat
  cells : Cells
  place : κ → Place
  /-- The claims, the last one first. -/
  fires : List (Fire κ)

/-- What happens next, and on which core. -/
inductive Label (κ : Type) where
  | tick (ticks : Nat)
  | interrupt (core : κ)
  | access (core : κ)
  | fired (core : κ) (keep : Bool)
  | cancel

namespace Cores

variable {κ : Type} [DecidableEq κ]

def goto (cores : Cores κ) (core : κ) (place : Place) : Cores κ :=
  { cores with place := update cores.place core place }

/-- The next operation of a handler. An overflow of the next deadline is a panic. -/
def access (cores : Cores κ) (core : κ) : Option (Cores κ) :=
  match cores.place core with
  | .out | .firing => none
  | .copied => some (cores.goto core (.scanning cores.counter))
  | .scanning now => some (cores.goto core (if cores.cells.active then .active now else .out))
  | .active now =>
    let deadline := cores.cells.deadlineTicks
    some (cores.goto core (if now < deadline then .out else .due now deadline))
  | .due now deadline =>
    (Core.nextDeadline { cores.cells with deadlineTicks := deadline } now).map fun next =>
      cores.goto core (.exchange now deadline next)
  | .exchange now deadline next =>
    if cores.cells.deadlineTicks = deadline then
      some { cores.goto core .firing with
        cells := { cores.cells with deadlineTicks := next }
        fires := ⟨core, now, deadline, next⟩ :: cores.fires }
    else some (cores.goto core .out)
  | .stopping => some { cores.goto core .out with cells := { cores.cells with active := false } }

/-- The handlers, a `cancel` and the counter; `start` is not called again. -/
def step (cores : Cores κ) : Label κ → Option (Cores κ)
  | .tick ticks => some { cores with counter := cores.counter + ticks }
  | .interrupt core =>
    match cores.place core with
    | .out => some (cores.goto core .copied)
    | _ => none
  | .access core => cores.access core
  | .fired core keep =>
    match cores.place core with
    | .firing => some (cores.goto core (if keep then .out else .stopping))
    | _ => none
  | .cancel => some { cores with cells := { cores.cells with active := false } }

end Cores

end R9x.Aarch64.TimerCores
