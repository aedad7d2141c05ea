import R9x.Lib.Checked
import R9x.Lib.Slots
import Mathlib.Logic.Function.Basic

/-!
# Timers

`aarch64/src/timer.rs` on one core: the caller-owned timers, the table of those that are registered,
and the hardware timer.
-/

namespace R9x.Aarch64.Timer

open Lib

def maxTimers : Nat := 8

/-- The fields of a `Timer` that stay as they are. -/
structure Spec where
  nanos : Nat
  repeats : Bool

/-- The atomics of a `Timer`. -/
structure Cells where
  deadlineTicks : Nat
  periodTicks : Nat
  active : Bool

/-- `TIMERS`. -/
structure Table (ι : Type) where
  slots : List (Option ι)
  size : slots.length = maxTimers

/-- The timers, the table and the hardware timer of the core. -/
structure Core (ι : Type) where
  cells : ι → Cells
  table : Table ι
  enabled : Bool
  cval : Nat

def durationToTicks (freq nanos : Nat) : Option Nat :=
  if freq = 0 then none
  else if nanos * freq < 2 ^ 128 then some (nanos * freq / 1000000000 % 2 ^ 64)
  else none

/-- The ticks that `start` computes before its first store. -/
def startTicks (freq : Nat) (spec : Spec) : Option Nat :=
  (durationToTicks freq spec.nanos).bind fun ticks =>
    if spec.repeats = true ∧ ticks = 0 then none else some ticks

namespace Core

variable {ι : Type} [DecidableEq ι]

/-- A store to the atomics of a timer. -/
def write (core : Core ι) (timer : ι) (cells : Cells) : Core ι :=
  { core with cells := Function.update core.cells timer cells }

/-- The first store of `start`. -/
def storePeriod (core : Core ι) (timer : ι) (ticks : Nat) : Core ι :=
  core.write timer { core.cells timer with periodTicks := ticks }

/-- A store to `deadline_ticks`. -/
def storeDeadline (core : Core ι) (timer : ι) (deadline : Nat) : Core ι :=
  core.write timer { core.cells timer with deadlineTicks := deadline }

def storeActive (core : Core ι) (timer : ι) (active : Bool) : Core ι :=
  core.write timer { core.cells timer with active }

def cancel (core : Core ι) (timer : ι) : Core ι := core.storeActive timer false

/-- A slot that `register` takes: one without a timer, or with one that is not active. -/
def free (core : Core ι) (slot : Option ι) : Bool :=
    slot.all fun timer => !(core.cells timer).active

/-- `register`; with an error the table stays. -/
def register (core : Core ι) (timer : ι) : Option (Core ι) :=
  if some timer ∈ core.table.slots then some core
  else
    match taken : updateFirst core.free (fun _ => some timer) core.table.slots with
    | some slots =>
      some { core with table := ⟨slots, (updateFirst_length taken).trans core.table.size⟩ }
    | none => none

/-- The timers of the table, in its order. -/
def registered (core : Core ι) : List ι := core.table.slots.filterMap id

def armHardware (core : Core ι) : Core ι :=
  let deadlines := (core.registered.filter fun timer => (core.cells timer).active).map fun timer =>
    (core.cells timer).deadlineTicks
  match deadlines.min? with
  | some deadline => { core with cval := deadline, enabled := true }
  | none => { core with enabled := false }

/-- `start` from its `IrqGuard` on: whether it returns `Ok`. -/
def finishStart (core : Core ι) (timer : ι) : Bool × Core ι :=
  match core.register timer with
  | some core => (true, core.armHardware)
  | none => (false, core.storeActive timer false)

/-- `start` with interrupts masked all along. -/
def start (freq : Nat) (spec : Spec) (core : Core ι) (timer : ι) (now : UInt64) :
    Option (Bool × Core ι) :=
  (startTicks freq spec).bind fun ticks =>
    (checkedAdd now.toNat ticks).map fun deadline =>
      (((core.storePeriod timer ticks).storeDeadline timer deadline).storeActive timer
        true).finishStart
        timer

/-- The deadline to which `interrupt_handler` moves a periodic timer. -/
def nextDeadline (cells : Cells) (now : Nat) : Option Nat :=
  if cells.periodTicks = 0 then none
  else
    (checkedMul ((now - cells.deadlineTicks) / cells.periodTicks + 1) cells.periodTicks).bind
      (checkedAdd cells.deadlineTicks)

/-- The loop body of `interrupt_handler` before the callback: whether it fires. The timer that it
has read as active is active at the swap, and the deadline that it has read is there at the
exchange. -/
def claim (spec : Spec) (core : Core ι) (timer : ι) (now : Nat) : Option (Bool × Core ι) :=
  let cells := core.cells timer
  if cells.active = false then some (false, core)
  else if now < cells.deadlineTicks then some (false, core)
  else if spec.repeats = false then some (true, core.storeActive timer false)
  else (nextDeadline cells now).map fun next => (true, core.storeDeadline timer next)

/-- The loop body of `interrupt_handler` after the callback. -/
def fired (spec : Spec) (core : Core ι) (timer : ι) (keep : Bool) : Core ι :=
  if spec.repeats = true ∧ keep = false then core.storeActive timer false else core

end Core

/-! ## Threads and interrupts -/

/-- How far a thread is in a `start` that has not masked interrupts yet. -/
inductive Stage where
  | computed (ticks : Nat)
  | period (ticks : Nat)
  | deadline
  | active

/-- A `start` of a thread. -/
structure Pending (ι : Type) where
  timer : ι
  stage : Stage

/-- What runs on the core. -/
inductive Mode (ι : Type) where
  | thread
  | scanning (now : UInt64) (rest : List ι)
  | firing (now : UInt64) (timer : ι) (rest : List ι)

/-- What has just returned. -/
inductive Event (ι : Type) where
  | started (timer : ι)
  | refused (timer : ι)
  | handled
  deriving DecidableEq

/-- The core with its threads of some type. -/
structure Machine (ι τ : Type) where
  core : Core ι
  pending : τ → Option (Pending ι)
  mode : Mode ι
  event : Option (Event ι)

/-- The steps of the core. -/
inductive Label (ι τ : Type) where
  | call (thread : τ) (timer : ι)
  | resume (thread : τ) (now : UInt64)
  | cancel (timer : ι)
  | interrupt (now : UInt64)
  | turn
  | start (timer : ι) (now : UInt64)
  | fired (keep : Bool)

namespace Machine

variable {ι τ : Type} [DecidableEq ι] [DecidableEq τ]

/-- After `init`: the value of the compare register is not known. -/
def initial (cval : Nat) : Machine ι τ where
  core :=
    { cells := fun _ => ⟨0, 0, false⟩
      table := ⟨List.replicate maxTimers none, List.length_replicate⟩
      enabled := false
      cval := cval }
  pending := fun _ => none
  mode := .thread
  event := none

/-- The event at the return of a `start`. -/
def returned (timer : ι) (ok : Bool) : Event ι := if ok then .started timer else .refused timer

/-- The machine with a thread at a stage of a `start`. -/
def stored (machine : Machine ι τ) (thread : τ) (timer : ι) (stage : Stage) (core : Core ι) :
    Machine ι τ :=
  { machine with
    core := core
    pending := Function.update machine.pending thread (some ⟨timer, stage⟩)
    event := none }

/-- A thread goes on in a `start`. -/
def advance (machine : Machine ι τ) (thread : τ) (timer : ι) (now : UInt64) :
    Stage → Option (Machine ι τ)
  | .computed ticks =>
    some (machine.stored thread timer (.period ticks) (machine.core.storePeriod timer ticks))
  | .period ticks =>
    (checkedAdd now.toNat ticks).map fun deadline =>
      machine.stored thread timer .deadline (machine.core.storeDeadline timer deadline)
  | .deadline => some (machine.stored thread timer .active (machine.core.storeActive timer true))
  | .active =>
    let (ok, core) := machine.core.finishStart timer
    some { machine with
      core := core
      pending := Function.update machine.pending thread none
      event := some (returned timer ok) }

def step (freq : Nat) (specs : ι → Spec) (machine : Machine ι τ) : Label ι τ → Option (Machine ι τ)
  | .call thread timer =>
    match machine.mode, machine.pending thread with
    | .thread, none =>
      (startTicks freq (specs timer)).map fun ticks =>
        machine.stored thread timer (.computed ticks) machine.core
    | _, _ => none
  | .resume thread now =>
    match machine.mode, machine.pending thread with
    | .thread, some start => machine.advance thread start.timer now start.stage
    | _, _ => none
  | .cancel timer =>
    match machine.mode with
    | .scanning _ _ => none
    | _ => some { machine with core := machine.core.cancel timer, event := none }
  | .interrupt now =>
    match machine.mode with
    | .thread => some { machine with mode := .scanning now machine.core.registered, event := none }
    | _ => none
  | .turn =>
    match machine.mode with
    | .scanning _ [] =>
      some
        { machine with core := machine.core.armHardware, mode := .thread, event := some .handled }
    | .scanning now (timer :: rest) =>
      (machine.core.claim (specs timer) timer now.toNat).map fun (fires, core) =>
        { machine with
          core := core
          mode := if fires then .firing now timer rest else .scanning now rest
          event := none }
    | _ => none
  | .start timer now =>
    match machine.mode with
    | .firing _ _ _ =>
      (machine.core.start freq (specs timer) timer now).map fun (ok, core) =>
        { machine with core := core, event := some (returned timer ok) }
    | _ => none
  | .fired keep =>
    match machine.mode with
    | .firing now timer rest =>
      some { machine with
        core := machine.core.fired (specs timer) timer keep
        mode := .scanning now rest
        event := none }
    | _ => none

end Machine

end R9x.Aarch64.Timer
