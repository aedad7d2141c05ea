import R9x.Aarch64.Ipc
import R9x.Lib.Run
import R9x.Verif.Sections

/-!
# Processes and channels on one core

The whole message system on a single core with interrupts masked: every call runs atomically up to
the point where it returns or blocks.
-/

namespace R9x.Verif.KernelIpc

open Port.Ipc Aarch64
open Function (update)

/-- A finished call on a channel of the table. -/
structure Return (m : Nat) where
  id : ProcId
  handle : Fin m
  call : Call
  answer : Answer
  deriving DecidableEq

/-- The process table, the channel table, and what each process is in the middle of. -/
structure Kernel (n m : Nat) where
  sched : KernSched n
  current : Option ProcId
  channels : Channels m
  conts : ProcId → Option (Fin m × Call)
  returned : List (Return m)

/-- The scheduling state of a slot. -/
abbrev Kernel.states {n m : Nat} (kernel : Kernel n m) : ProcId → Option State :=
    kernel.sched.table.stateOf

/-- What the message system does without a process being born or dying. -/
inductive IpcEvent (m : Nat) where
  | switch (next : ProcId)
  | call (handle : Fin m) (call : Call)
  | resume
  | interrupt (handle : Fin m) (call : Call)
  | clock (now : UInt64)
  | tick
  deriving DecidableEq

/-- Everything that happens to processes and channels. -/
inductive Event (n m : Nat) where
  | ipc (event : IpcEvent m)
  | exit (status : UInt64)
  | fault
  | kill (pid : UInt64)
  | spawn (slot : Fin n) (prio : Priority)
  | wait (slot : Fin n)
  | setprio (id : ProcId) (prio : Priority)
  deriving DecidableEq

variable {n m : Nat}

/-- The table after `switch_out` takes the current process off the core: a Running one is Runnable
again. -/
def demote (table : Table n) : Option ProcId → Table n
  | some id => table.modify id fun process =>
      if process.state = .running then { process with state := .runnable } else process
  | none => table

/-- One pass of a call by process `me`. `current_id` finds no process when the slot of the caller
has been reaped: `receive` and `receive_at` then fail their `expect` first of all, and `send` when
it has to block. -/
def Kernel.pass (kernel : Kernel n m) (me : ProcId) (handle : Fin m) (call : Call) :
    Progress (KernSched n) :=
  let progress := call.pass me kernel.sched (kernel.channels handle)
  if kernel.states me ≠ none then progress
  else if call.receives then
    ⟨.panicked .receiveNeedsProcess, kernel.sched, kernel.channels handle⟩
  else
    match progress.verdict with
    | .blocked => ⟨.panicked .sendNeedsProcess, kernel.sched, kernel.channels handle⟩
    | .returned _ | .panicked _ => progress

/-- What a pass leaves. A blocked caller leaves the core. A panic stops the kernel, so it has no
next state. -/
def Kernel.perform (kernel : Kernel n m) (me : ProcId) (handle : Fin m) (call : Call) :
    Option (Kernel n m) :=
  let progress := kernel.pass me handle call
  let after := { kernel with
    sched := progress.sched
    channels := update kernel.channels handle progress.inner }
  match progress.verdict with
  | .returned answer => some { after with
      conts := update kernel.conts me none
      returned := kernel.returned ++ [⟨me, handle, call, answer⟩] }
  | .blocked => some { after with
      conts := update kernel.conts me (some (handle, call))
      current := none }
  | .panicked _ => none

/-- A pass that does not panic is the call's own. -/
lemma Kernel.pass_eq {kernel : Kernel n m} {me : ProcId} {handle : Fin m} {call : Call}
    (returns : ∀ why, (kernel.pass me handle call).verdict ≠ .panicked why) :
    kernel.pass me handle call = call.pass me kernel.sched (kernel.channels handle) := by
  unfold Kernel.pass at returns ⊢
  dsimp only at returns ⊢
  split
  · rfl
  rename_i reaped
  rw [if_neg reaped] at returns
  split
  · rename_i receives
    rw [if_pos receives] at returns
    exact absurd rfl (returns _)
  rename_i sends
  rw [if_neg sends] at returns
  split
  · rename_i blocked
    rw [blocked] at returns
    exact absurd rfl (returns _)
  · rfl
  · rfl

lemma Kernel.pass_of_perform {kernel after : Kernel n m} {me : ProcId} {handle : Fin m}
    {call : Call}
    (taken : kernel.perform me handle call = some after) :
    kernel.pass me handle call = call.pass me kernel.sched (kernel.channels handle) := by
  refine Kernel.pass_eq fun why panics => ?_
  simp only [Kernel.perform, panics] at taken
  cases taken

lemma Kernel.pass_present {kernel : Kernel n m} {me : ProcId} (present : kernel.states me ≠ none)
    (handle : Fin m) (call : Call) :
    kernel.pass me handle call = call.pass me kernel.sched (kernel.channels handle) :=
  if_pos present

/-- A non-blocking call from kernel context; it belongs to no process and is not recorded. -/
def Kernel.interrupt (kernel : Kernel n m) (handle : Fin m) (call : Call) : Kernel n m :=
  let progress := call.pass n kernel.sched (kernel.channels handle)
  { kernel with
    sched := progress.sched
    channels := update kernel.channels handle progress.inner }

/-- One step of the message system. -/
def stepIpc (kernel : Kernel n m) : IpcEvent m → Option (Kernel n m)
  | .switch next =>
    if kernel.states next = some .runnable ∧ kernel.current ≠ some next then
      some { kernel with
        sched := { kernel.sched with
          table := (demote kernel.sched.table kernel.current).modify next fun process =>
            { process with state := .running } }
        current := some next }
    else none
  | .call handle call =>
    match kernel.current with
    | some me => if kernel.conts me = none then kernel.perform me handle call else none
    | none => none
  | .resume =>
    match kernel.current with
    | some me =>
      match kernel.conts me with
      | some (handle, call) => kernel.perform me handle call
      | none => none
    | none => none
  | .interrupt handle call =>
    if call.nonBlocking then some (kernel.interrupt handle call) else none
  | .clock now => some { kernel with sched := { kernel.sched with counter := now } }
  | .tick =>
    let table := kernel.sched.table.checkDeadlines kernel.sched.counter
    some { kernel with sched := { kernel.sched with table } }

/-- The death of a process: it is marked Exited and the channels it is recorded on are closed. -/
def Kernel.die (kernel : Kernel n m) (id : ProcId) (status : UInt64) : Kernel n m :=
  let marked := { kernel.sched with table := kernel.sched.table.markExited id status }
  let (sched, channels) := closeAllFor id marked kernel.channels
  { kernel with sched, channels }

/-- One event. `exit_current` marks the first Running slot, and `fault` the current one.
`try_install` claims the first free slot and `sys_wait` may name one; here any slot they could pick
is allowed. -/
def step (kernel : Kernel n m) : Event n m → Option (Kernel n m)
  | .ipc event => stepIpc kernel event
  | .exit status =>
    match kernel.current with
    | some me =>
      if kernel.conts me = none then
        (kernel.sched.table.position (Table.holds .running)).map fun slot =>
          { kernel.die slot.val status with current := none }
      else none
    | none => none
  | .fault =>
    match kernel.current with
    | some me =>
      if kernel.conts me = none ∧ kernel.states me = some .running then
        some { kernel.die me Table.faultStatus with current := none }
      else none
    | none => none
  | .kill pid =>
    match kernel.sched.table.sysKillMark pid with
    | some _ => some (kernel.die pid.toNat Table.killStatus)
    | none => some kernel
  | .spawn slot prio =>
    if Table.isFree (kernel.sched.table slot) then
      let table := update kernel.sched.table slot (some (Table.newProcess prio))
      some { kernel with
        sched := { kernel.sched with table }
        conts := update kernel.conts slot.val none }
    else none
  | .wait slot =>
    if Table.holds .exited (kernel.sched.table slot) then
      let table := update kernel.sched.table slot none
      some { kernel with sched := { kernel.sched with table } }
    else none
  | .setprio id prio =>
    some { kernel with
      sched := { kernel.sched with table := kernel.sched.table.setPriority id prio } }

/-- No process blocked or in a call, nothing recorded on any channel. -/
structure Fresh (kernel : Kernel n m) : Prop where
  channels : ∀ handle, (kernel.channels handle).Sound ∧
    (kernel.channels handle).recvWaiter = none ∧ (kernel.channels handle).sendWaiter = none
  unblocked : ∀ id, kernel.states id ≠ some .blocked ∧ kernel.states id ≠ some .running
  outside : ∀ id, kernel.conts id = none
  idle : kernel.current = none

end R9x.Verif.KernelIpc
