import R9x.Aarch64.Scheduler

/-!
# Switching on several cores

`switch_out`, `block_current` and `run_all` of `aarch64/src/process.rs` on any number of cores, in
the steps that other cores can come between: the critical section that chooses the next process and
publishes the state of the current one, the read of the next process's context pointer, and the
`swtch` that stores the current one's.
-/

namespace R9x.Aarch64.Switching

open Port.Ipc (ProcId)
open Function (update)

/-- Who wrote the context that a process's pointer shows. -/
inductive Origin where
  | forkret
  | swtch
  deriving DecidableEq

/-- The context that a process's pointer shows. -/
structure Saved where
  origin : Origin
  entered : Bool
  deriving DecidableEq

/-- What a core is doing. -/
inductive Phase (n : Nat) where
  | kernel
  | running (slot : Fin n)
  | leaving (source : Option (Fin n)) (next : Fin n)
  | loaded (source : Option (Fin n)) (next : Fin n) (context : Saved)
  | parking (slot : Fin n)
  deriving DecidableEq

/-- The process whose kernel stack the core is on. -/
def Phase.stack {n : Nat} : Phase n → Option (Fin n)
  | .kernel => none
  | .running slot => some slot
  | .leaving source _ => source
  | .loaded source _ _ => source
  | .parking slot => some slot

/-- The process that the core runs or has chosen to run. -/
def Phase.claim {n : Nat} : Phase n → Option (Fin n)
  | .kernel => none
  | .running slot => some slot
  | .leaving _ next => some next
  | .loaded _ next _ => some next
  | .parking _ => none

/-- The cores, and what they share. -/
structure Machine (n m : Nat) where
  table : Table n
  cursor : Nat
  contexts : Fin n → Saved
  cores : Fin m → Phase n

variable {n m : Nat}

/-- Cores that have just booted, and no processes. -/
def Machine.boot : Machine n m := ⟨fun _ => none, 0, fun _ => ⟨.forkret, false⟩, fun _ => .kernel⟩

/-- What a core does in one step. -/
inductive Action where
  | runAll
  | resched
  | checkDeadlines (now : UInt64)
  | setDeadline (deadline : UInt64)
  | block
  | wake (id : ProcId)
  | spawn (prio : Priority)
  | load
  | save

/-- Change what one core is doing. -/
def Machine.move (machine : Machine n m) (core : Fin m) (phase : Phase n) : Machine n m :=
  { machine with cores := update machine.cores core phase }

/-- Store the context of a process that is switched out. -/
def Machine.store (machine : Machine n m) (slot : Fin n) : Machine n m :=
  { machine with contexts := update machine.contexts slot ⟨.swtch, false⟩ }

/-- The critical section of `switch_out`: the chosen process, the table and the cursor. -/
def switchSection (machine : Machine n m) (current : Fin n) (demoteTo : State) :
    Option (Option (Fin n) × Table n × Nat) :=
  match Core.switchOut ⟨machine.table, some current, machine.cursor, .process .el0, fun _ => .el0⟩
    demoteTo with
  | .error _ => none
  | .ok (switched, core) => some (if switched then core.tpidr else none, core.table, core.cursor)

/-- The core runs a process or is in the kernel, so that it can do other things. -/
def Phase.settled : Phase n → Bool
  | .kernel => true
  | .running _ => true
  | _ => false

/-- One step of one core. -/
def step (machine : Machine n m) (label : Fin m × Action) : Option (Machine n m) :=
  let (core, action) := label
  let phase := machine.cores core
  match action with
  | .runAll =>
    match phase with
    | .kernel =>
      (machine.table.position (Table.holds .runnable)).map fun first =>
        { machine with table := machine.table.setState first .running }.move core
        (.leaving none first)
    | _ => none
  | .resched =>
    match phase with
    | .running current =>
      (switchSection machine current .runnable).map fun (next, table, cursor) =>
        let machine := { machine with table := table, cursor := cursor }
        match next with
        | none => machine
        | some next => machine.move core (.leaving (some current) next)
    | _ => none
  | .block =>
    match phase with
    | .running current =>
      (switchSection machine current .blocked).map fun (next, table, cursor) =>
        let machine := { machine with table := table, cursor := cursor }
        match next with
        | none => machine.move core (.parking current)
        | some next => machine.move core (.leaving (some current) next)
    | _ => none
  | .setDeadline deadline =>
    match phase with
    | .running current => some { machine with table := machine.table.setDeadline current deadline }
    | _ => none
  | .checkDeadlines now =>
    if phase.settled then some { machine with table := machine.table.checkDeadlines now } else none
  | .wake id => if phase.settled then some { machine with table := machine.table.wake id } else none
  | .spawn prio =>
    if phase.settled then
      (machine.table.tryInstall (Table.newProcess prio)).map fun (slot, table) =>
        { machine with
          table := table, contexts := update machine.contexts slot ⟨.forkret, false⟩ }
    else none
  | .load =>
    match phase with
    | .leaving source next =>
      let context := machine.contexts next
      some ({ machine with
        contexts := update machine.contexts next { context with entered := true } }.move core
          (.loaded source next context))
    | _ => none
  | .save =>
    match phase with
    | .loaded none next _ => some (machine.move core (.running next))
    | .loaded (some source) next _ => some ((machine.store source).move core (.running next))
    | .parking slot => some ((machine.store slot).move core .kernel)
    | _ => none

end R9x.Aarch64.Switching
