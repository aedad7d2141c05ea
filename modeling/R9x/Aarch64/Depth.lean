import R9x.Aarch64.Scheduler

/-!
# The interrupt depth of each core

`INTERRUPT_DEPTH` of `port/src/irq.rs` and the code that changes it: `trap_unsafe`, `switch_out`,
`block_current`, `exit_current` and `fault`, on any number of cores.
-/

namespace R9x.Aarch64.Depth

open Function (update)

def maxCpus : Nat := 16

/-- Where a context resumes. -/
inductive Context where
  | forkret
  | handler (ends : Bool)
  deriving DecidableEq

/-- Where a core is. -/
inductive Point (n : Nat) where
  | kernel
  | user (slot : Fin n)
  | vector (current : Option (Fin n))
  | body (current : Option (Fin n))
  | ending (slot : Fin n)
  | halted
  | chosen (slot next : Fin n) (ends : Bool)
  | parking (slot : Fin n) (ends : Bool)
  | parked (slot : Fin n) (ends : Bool)
  | leaving (source : Option (Fin n × Bool)) (next : Fin n)
  | loaded (source : Option (Fin n × Bool)) (next : Fin n) (context : Context)
  | resumed (slot : Fin n) (ends : Bool)
  | tail (current : Option (Fin n))

/-- The body of a handler, but for the switches that it brackets. -/
def Point.inBody {n : Nat} : Point n → Bool
  | .body _ | .ending _ | .halted | .chosen _ _ _ | .parking _ _ => true
  | _ => false

/-- The points that may go on to `exit_interrupt`. -/
def Point.exits {n : Nat} : Point n → Bool
  | .body _ | .chosen _ _ _ | .parking _ _ => true
  | _ => false

/-- The cores, and what they share. -/
structure Machine (n m : Nat) where
  table : Table n
  cursor : Nat
  contexts : Fin n → Context
  starter : Option (Fin m)
  cores : Fin m → Point n
  depth : Fin m → UInt64

/-- What a core does in one step. -/
inductive Action (n : Nat) where
  | work (table : Table n)
  | install (slot : Fin n)
  | runAll
  | trap
  | resched
  | block
  | exit (status : UInt64)
  | fault
  | finish
  | advance

variable {n m : Nat}

namespace Machine

/-- Cores that have just booted. -/
def boot : Machine n m := ⟨fun _ => none, 0, fun _ => .forkret, none, fun _ => .kernel, fun _ => 0⟩

/-- Move one core. -/
def goto (machine : Machine n m) (core : Fin m) (point : Point n) : Machine n m :=
  { machine with cores := update machine.cores core point }

/-- `enter_interrupt`, which panics beyond the table. -/
def enterInterrupt (machine : Machine n m) (core : Fin m) : Option (Machine n m) :=
  if core < maxCpus then
    some { machine with depth := update machine.depth core (machine.depth core + 1) }
  else none

/-- `exit_interrupt`, which panics beyond the table. -/
def exitInterrupt (machine : Machine n m) (core : Fin m) : Option (Machine n m) :=
  if core < maxCpus then
    some { machine with depth := update machine.depth core (machine.depth core - 1) }
  else none

/-- `switch_out` up to its `exit_interrupt`, or on to `stay` when there is nothing to switch to. -/
def switchOut (machine : Machine n m) (core : Fin m) (slot : Fin n) (demoteTo : State) (ends : Bool)
    (stay : Point n) : Machine n m :=
  match Core.switchOut ⟨machine.table, some slot, machine.cursor, .process .el0, fun _ => .el0⟩
    demoteTo with
  | .error _ => machine.goto core .halted
  | .ok (switched, chosen) =>
    let machine := { machine with table := chosen.table, cursor := chosen.cursor }
    match switched, chosen.tpidr with
    | true, some next => machine.goto core (.chosen slot next ends)
    | _, _ => machine.goto core stay

/-- Store the context of a handler. -/
def suspend (machine : Machine n m) (slot : Fin n) (ends : Bool) : Machine n m :=
  { machine with contexts := update machine.contexts slot (.handler ends) }

/-- Where a switch to a process goes on. -/
def resume (next : Fin n) : Context → Point n
  | .forkret => .user next
  | .handler ends => .resumed next ends

/-- The step of a core that has no choice. -/
def advance (machine : Machine n m) (core : Fin m) : Point n → Option (Machine n m)
  | .vector current => (machine.enterInterrupt core).map (goto · core (.body current))
  | .chosen slot next ends =>
    (machine.exitInterrupt core).map (goto · core (.leaving (some (slot, ends)) next))
  | .parking slot ends => (machine.exitInterrupt core).map (goto · core (.parked slot ends))
  | .leaving source next => some (machine.goto core (.loaded source next (machine.contexts next)))
  | .loaded none next context =>
      some ({ machine with starter := some core }.goto core (resume next context))
  | .loaded (some (slot, ends)) next context =>
    some ((machine.suspend slot ends).goto core (resume next context))
  | .parked slot ends =>
    machine.starter.map fun _ =>
      -- A process that has exited leaves its context to a local of its handler.
      (if ends then machine else machine.suspend slot false).goto core .kernel
  | .resumed slot ends =>
    (machine.enterInterrupt core).map (goto · core (if ends then .halted else .body (some slot)))
  | .tail none => some (machine.goto core .kernel)
  | .tail (some slot) => some (machine.goto core (.user slot))
  | _ => none

end Machine

open Machine

/-- One step of one core. -/
def step (machine : Machine n m) (label : Fin m × Action n) : Option (Machine n m) :=
  let core := label.1
  let point := machine.cores core
  match label.2 with
  | .work table =>
    match point with
    | .kernel | .body _ | .ending _ => some { machine with table := table }
    | _ => none
  | .install slot =>
    match point with
    | .kernel | .body _ =>
      some { machine with contexts := update machine.contexts slot .forkret }
    | _ => none
  | .runAll =>
    match point with
    | .kernel =>
      (machine.table.position (Table.holds .runnable)).map fun first =>
        { machine with table := machine.table.setState first .running }.goto core
        (.leaving none first)
    | _ => none
  | .trap =>
    match point with
    | .kernel => some (machine.goto core (.vector none))
    | .user slot => some (machine.goto core (.vector (some slot)))
    | _ => none
  | .resched =>
    match point with
    | .body none => some machine
    | .body (some slot) => some (machine.switchOut core slot .runnable false point)
    | .ending slot => some (machine.switchOut core slot .runnable true (.parking slot true))
    | _ => none
  | .block =>
    match point with
    | .body none => some machine
    | .body (some slot) => some (machine.switchOut core slot .blocked false (.parking slot false))
    | _ => none
  | .exit status =>
    match point with
    | .body none => some (machine.goto core .halted)
    | .body (some slot) =>
      match machine.table.position (Table.holds .running) with
      | none => some (machine.goto core .halted)
      | some first =>
        some ({ machine with table := machine.table.markExited first status }.goto core
          (.ending slot))
    | _ => none
  | .fault =>
    match point with
    | .body none => some (machine.goto core .halted)
    | .body (some slot) =>
      if machine.table.stateOf slot = some .running then
        some ({ machine with table := machine.table.markExited slot Table.faultStatus }.goto core
          (.ending slot))
      else some (machine.goto core .halted)
    | _ => none
  | .finish =>
    match point with
    | .body current => (machine.exitInterrupt core).map (goto · core (.tail current))
    | _ => none
  | .advance => machine.advance core point

end R9x.Aarch64.Depth
