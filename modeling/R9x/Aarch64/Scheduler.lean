import R9x.Aarch64.Ipc

/-!
# Selection and switching

`aarch64/src/process.rs`: the functions that take a process off the core and put another one on it.
-/

namespace R9x.Aarch64

open Port.Ipc (ProcId)
open Function (update)

/-- Where a process continues once it is selected. -/
inductive Execution where
  | el0
  | handler
  deriving DecidableEq

/-- The ways these functions stop the kernel: a panic, or a spin for want of a process. -/
inductive Halt where
  | exitNoRunning
  | exitNoProcess
  | notInTable
  | faultNotRunning
  | faultNoProcess
  | nothingRunnable
  | noFreeSlot
  deriving DecidableEq

/-- What the core executes. -/
inductive Mode where
  | process (level : Execution)
  | starter
  | halted (why : Halt)
  deriving DecidableEq

/-- Set the scheduling state of one slot. -/
def Table.setState {n : Nat} (table : Table n) (id : ProcId) (state : State) : Table n :=
  table.modify id fun process => { process with state }

/-- The per-slot state and effective priority `switch_out` builds; an empty slot reads Exited. -/
def Table.view {n : Nat} (table : Table n) (slot : Fin n) : State × Priority :=
  match table slot with
  | some process => (process.state, process.prio.effective)
  | none => (.exited, Priority.idle)

/-- A slot other than the current one that could run. -/
def ready {n : Nat} (slots : Fin n → State × Priority) (current slot : Fin n) : Bool :=
  slot ≠ current && (slots slot).1 = .runnable

/-- `pick_next`: the most urgent Runnable slot other than the current one, and among the slots of
that priority the first one after the cursor. -/
def pickNext {n : Nat} (slots : Fin n → State × Priority) (current : Fin n) (cursor : Nat) :
    Option (Fin n) :=
  match (((List.finRange n).filter (ready slots current)).map fun slot => (slots slot).2).min? with
  | none => none
  | some best =>
    ((List.range' 1 n).map fun off =>
      (⟨(cursor + off) % n, Nat.mod_lt _ current.pos⟩ : Fin n)).find? fun slot =>
        ready slots current slot && (slots slot).2 = best

/-- The core, the table and the saved contexts. -/
structure Core (n : Nat) where
  table : Table n
  tpidr : Option (Fin n)
  cursor : Nat
  mode : Mode
  resume : Fin n → Execution

namespace Core

variable {n : Nat}

/-- The scheduling states of the table. -/
abbrev states (core : Core n) : ProcId → Option State := core.table.stateOf

/-- A panic or a spin. -/
def halt (core : Core n) (why : Halt) : Core n := { core with mode := .halted why }

/-- The switch back to the context `run_all` saved. -/
def toStarter (core : Core n) : Core n := { core with tpidr := none, mode := .starter }

/-- `switch_out`: the result says whether it switched. -/
def switchOut (core : Core n) (demoteTo : State) : Except Halt (Bool × Core n) :=
  match core.tpidr with
  | none => .ok (false, core)
  | some current =>
    if (core.table current).isNone then .error .notInTable
    else
      let demoted := Table.holds .running (core.table current)
      let table := if demoted then core.table.setState current demoteTo else core.table
      match pickNext table.view current core.cursor with
      | none =>
        let table := if demoted && demoteTo = .runnable then table.setState current .running
          else table
        .ok (false, { core with table })
      | some next =>
        let suspended := if demoteTo = .blocked then .handler else .el0
        .ok (true, { core with
          table := table.setState next .running
          cursor := next.val
          tpidr := some next
          mode := .process (core.resume next)
          resume := update core.resume current suspended })

/-- `resched`, as `yield_current` and `irq_resched` call it. -/
def resched (core : Core n) : Core n :=
  match core.switchOut .runnable with
  | .error why => core.halt why
  | .ok (_, core) => core

/-- `block_current`: with nothing else to run, the kernel context regains the core. -/
def blockCurrent (core : Core n) : Core n :=
  match core.switchOut .blocked with
  | .error why => core.halt why
  | .ok (true, core) => core
  | .ok (false, core) =>
    match core.tpidr with
    | none => core
    | some current =>
      { core with resume := update core.resume current .handler }.toStarter

def blockAt (core : Core n) (deadline : UInt64) : Core n :=
  match core.tpidr with
  | none => core
  | some current =>
    if (core.table current).isNone then core.halt .notInTable
    else { core with table := core.table.setDeadline current deadline }.blockCurrent

/-- Wake processes in order: what a message, a closed channel or an interrupt does to the table. -/
def wakeAll (core : Core n) (woken : List ProcId) : Core n :=
  { core with table := woken.foldl Table.wake core.table }

/-- The common end of `exit_current` and `fault`: the process does not run again. -/
def leave (core : Core n) : Core n :=
  match core.switchOut .runnable with
  | .error why => core.halt why
  | .ok (true, core) => core
  | .ok (false, core) => core.toStarter

/-- The slot `exit_current` marks: the first Running one. -/
def exitSlot (core : Core n) : Option (Fin n) := core.table.position (Table.holds .running)

/-- `exit_current`; closing the channels of the dead process wakes their waiters. -/
def exitCurrent (core : Core n) (status : UInt64) (woken : List ProcId) : Core n :=
  match core.tpidr with
  | none => core.halt .exitNoProcess
  | some _ =>
    match core.exitSlot with
    | none => core.halt .exitNoRunning
    | some slot =>
      ({ core with table := core.table.markExited slot status }.wakeAll woken).leave

/-- `fault`: the slot is the one `TPIDR_EL1` points to. -/
def fault (core : Core n) (woken : List ProcId) : Core n :=
  match core.tpidr with
  | none => core.halt .faultNoProcess
  | some current =>
    match core.table current with
    | none => core.halt .notInTable
    | some process =>
      if process.state = .running then
        ({ core with table := core.table.markExited current Table.faultStatus }.wakeAll woken).leave
      else core.halt .faultNotRunning

/-- An interrupt: a device message may wake a process, and a tick checks the deadlines and then
preempts the current process, if there is one. -/
def interrupt (core : Core n) (woken : List ProcId) (tick : Option UInt64) : Core n :=
  let core := core.wakeAll woken
  match tick with
  | none => core
  | some now =>
    let core := { core with table := core.table.checkDeadlines now }
    match core.tpidr with
    | none => core
    | some _ => core.resched

/-- `run_all`, up to its switch to the first Runnable process. -/
def runAll (core : Core n) : Core n :=
  match core.table.position (Table.holds .runnable) with
  | none => core.halt .nothingRunnable
  | some first =>
    { core with
      table := core.table.setState first .running
      tpidr := some first
      mode := .process (core.resume first) }

/-- `try_install`: the new process has a fresh context in the slot it claims. -/
def tryInstall (core : Core n) (prio : Priority) : Option (Core n) :=
  (core.table.tryInstall (Table.newProcess prio)).map fun (slot, table) =>
    { core with table, resume := update core.resume slot .el0 }

/-- `sys_spawn`'s install: a full table is an error return. -/
def spawn (core : Core n) (prio : Priority) : Core n := (core.tryInstall prio).getD core

/-- `install`: a full table is a panic. -/
def install (core : Core n) : Core n :=
    (core.tryInstall defaultPriority).getD (core.halt .noFreeSlot)

def wait (core : Core n) (child : UInt64) : Core n :=
  { core with table := (core.table.sysWait child).2 }

def setprio (core : Core n) (target prio : UInt64) : Core n :=
  { core with table := (core.table.sysSetprio core.tpidr target prio).2 }

/-- `sys_kill`: it returns to its caller whoever the target was. -/
def kill (core : Core n) (pid : UInt64) (woken : List ProcId) : Core n :=
  match core.table.sysKillMark pid with
  | none => core
  | some table => { core with table }.wakeAll woken

end Core

/-! ## What switching does to the scheduling states -/

variable {n : Nat} {table : Table n} {id : ProcId} {old : State}

lemma stateOf_setState (held : table.stateOf id = some old) (state : State) :
    (table.setState id state).stateOf = update table.stateOf id (some state) := by
  funext read
  rw [Table.setState, Table.stateOf_modify]
  by_cases same : read = id
  · subst same
    obtain ⟨_, found, -⟩ := Option.map_eq_some_iff.mp held
    simp [found]
  · simp [same]

lemma stateOf_markExited (held : table.stateOf id = some old) (status : UInt64) :
    (table.markExited id status).stateOf = update table.stateOf id (some .exited) := by
  funext read
  rw [Table.markExited, Table.stateOf_modify]
  by_cases same : read = id
  · subst same
    obtain ⟨_, found, -⟩ := Option.map_eq_some_iff.mp held
    simp [found]
  · simp [same]

lemma sysKillMark_states {after : Table n} {pid : UInt64}
    (killed : table.sysKillMark pid = some after) :
    after.stateOf = update table.stateOf pid.toNat (some .exited) := by
  unfold Table.sysKillMark at killed
  split at killed
  · rename_i process found
    split at killed
    · cases killed
      have held : table.stateOf pid.toNat = some process.state := by
        rw [Table.stateOf, found]
        rfl
      exact stateOf_markExited held Table.killStatus
    · cases killed
  · cases killed

lemma stateOf_sysSetprio (table : Table n) (tpidr : Option (Fin n)) (target prio : UInt64) :
    (table.sysSetprio tpidr target prio).2.stateOf = table.stateOf := by
  unfold Table.sysSetprio
  split
  · rfl
  dsimp only
  split
  · rfl
  split
  · exact stateOf_modify_same table _ _ fun _ => rfl
  · rfl

lemma view_runnable {slot : Fin n} (found : (table.view slot).1 = .runnable) :
    table.stateOf slot.val = some .runnable := by
  rw [Table.stateOf_slot]
  unfold Table.view at found
  cases held : table slot with
  | none => simp [held] at found
  | some => simpa [held] using found

lemma pickNext_ready {slots : Fin n → State × Priority} {current next : Fin n} {cursor : Nat}
    (picked : pickNext slots current cursor = some next) :
    next ≠ current ∧ (slots next).1 = .runnable := by
  unfold pickNext at picked
  split at picked
  · cases picked
  have chosen := List.find?_some picked
  simp only [ready, Bool.and_eq_true, decide_eq_true_eq, ne_eq] at chosen
  exact chosen.1

/-- The states once `switch_out` has demoted the current process. -/
def demotedStates (core : Core n) (current : Fin n) (demoteTo : State) : ProcId → Option State :=
  if core.states current.val = some .running then
    update core.states current.val (some demoteTo)
  else core.states

/-- What a call of `switch_out` with a current process in the table does. -/
inductive SwitchCase (core : Core n) (demoteTo : State) (current : Fin n) : Bool × Core n → Prop
  | stayed (after : Core n) (tpidr : after.tpidr = core.tpidr) (mode : after.mode = core.mode)
      (states : after.states =
        if demoteTo = .runnable then core.states else demotedStates core current demoteTo) :
      SwitchCase core demoteTo current (false, after)
  | switched (next : Fin n) (after : Core n) (apart : next ≠ current)
      (runnable : core.states next.val = some .runnable) (tpidr : after.tpidr = some next)
      (mode : after.mode = .process (core.resume next))
      (states : after.states = update (demotedStates core current demoteTo) next.val
        (some .running)) :
      SwitchCase core demoteTo current (true, after)

lemma stateOf_demoted (core : Core n) (current : Fin n) (demoteTo : State) :
    (if Table.holds .running (core.table current) then core.table.setState current demoteTo
      else core.table).stateOf = demotedStates core current demoteTo := by
  unfold demotedStates
  by_cases running : core.states current.val = some .running
  · rw [if_pos ((Table.holds_iff core.table .running current).mpr running), if_pos running]
    exact stateOf_setState running demoteTo
  · rw [if_neg ((Table.holds_iff core.table .running current).not.mpr running), if_neg running]

lemma switchOut_case (core : Core n) (demoteTo : State) {current : Fin n}
    (on : core.tpidr = some current) (held : core.states current.val ≠ none) :
    ∃ result, core.switchOut demoteTo = .ok result ∧ SwitchCase core demoteTo current result := by
  have present : (core.table current).isNone = false := by
    rw [Core.states, Table.stateOf_slot] at held
    cases found : core.table current with
    | none => simp [found] at held
    | some => rfl
  have demoted := stateOf_demoted core current demoteTo
  simp only [Core.switchOut, on, present, Bool.false_eq_true, if_false]
  split
  · refine ⟨_, rfl, .stayed _ on.symm rfl ?_⟩
    by_cases yields : demoteTo = .runnable
    · subst yields
      simp only [decide_true, Bool.and_true, if_true]
      by_cases running : core.states current.val = some .running
      · have holds := (Table.holds_iff core.table .running current).mpr running
        have once := stateOf_setState running .runnable
        have waiting : (core.table.setState current .runnable).stateOf current.val =
          some .runnable := by
          rw [once, Function.update_self]
        simp only [Core.states, holds, if_true]
        rw [stateOf_setState waiting, once, Function.update_idem, ← running,
          Function.update_eq_self]
      have free := (Table.holds_iff core.table .running current).not.mpr running
      simp only [Core.states, free]
      rfl
    · simp only [yields, decide_false, Bool.and_false, if_false]
      exact demoted
  · rename_i next picked
    obtain ⟨apart, viewed⟩ := pickNext_ready picked
    have runnable := view_runnable viewed
    rw [demoted] at runnable
    refine ⟨_, rfl, .switched next _ apart ?_ rfl rfl ?_⟩
    · have distinct : next.val ≠ current.val := fun same => apart (Fin.ext same)
      unfold demotedStates at runnable
      split at runnable
      · rwa [Function.update_of_ne distinct] at runnable
      · exact runnable
    · rw [← demoted]
      exact stateOf_setState (demoted ▸ runnable) .running

end R9x.Aarch64
