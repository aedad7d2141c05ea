import R9x.Aarch64.Scheduler
import R9x.Lib.Run

/-!
# Who executes at EL0

One core running the process table.
-/

namespace R9x.Verif.Dispatch

open Lib Port.Ipc Aarch64
open Function (update_self update_of_ne)
open Table (isFree wake)
open Option (some.inj map_eq_some_iff)

/-- What happens on the core. The processes that a message or a closed channel wakes are left open:
any of them may be Blocked on the channel. -/
inductive Event where
  | yield
  | interrupt (woken : List ProcId) (tick : Option UInt64)
  | wake (id : ProcId)
  | boost (id : ProcId) (level : Priority)
  | unboost (id : ProcId)
  | block (deadline : Option UInt64)
  | eret
  | spawn (prio : Priority)
  | wait (child : UInt64)
  | setprio (target prio : UInt64)
  | kill (pid : UInt64) (woken : List ProcId)
  | exit (status : UInt64) (woken : List ProcId)
  | fault (woken : List ProcId)
  | runAll
  | install
  | setPriority (id : ProcId) (prio : Priority)
  deriving DecidableEq

/-- The events of each context: a handler runs with interrupts masked and only finishes its call,
and the kernel context makes no process calls. -/
def Event.enabled : Event → Mode → Bool
  | _, .halted _ => false
  | .wake _, _ => true
  | .interrupt _ _, mode => mode ≠ .process .handler
  | .boost _ _, mode => mode ≠ .starter
  | .unboost _, mode => mode ≠ .starter
  | .block _, mode => mode ≠ .starter
  | .eret, mode => mode = .process .handler
  | .runAll, mode => mode = .starter
  | .install, mode => mode = .starter
  | .setPriority _ _, mode => mode = .starter
  | _, mode => mode = .process .el0

lemma Event.enabled_halted (event : Event) (why : Halt) : event.enabled (.halted why) = false := by
  cases event <;> rfl

variable {n : Nat}

/-- The core after an event. -/
def Event.perform : Event → Core n → Core n
  | .yield, core => core.resched
  | .interrupt woken tick, core => core.interrupt woken tick
  | .wake id, core => core.wakeAll [id]
  | .boost id level, core => { core with table := core.table.boost id level }
  | .unboost id, core => { core with table := core.table.unboost id }
  | .block none, core => core.blockCurrent
  | .block (some deadline), core => core.blockAt deadline
  | .eret, core => { core with mode := .process .el0 }
  | .spawn prio, core => core.spawn prio
  | .wait child, core => core.wait child
  | .setprio target prio, core => core.setprio target prio
  | .kill pid woken, core => core.kill pid woken
  | .exit status woken, core => core.exitCurrent status woken
  | .fault woken, core => core.fault woken
  | .runAll, core => core.runAll
  | .install, core => core.install
  | .setPriority id prio, core => { core with table := core.table.setPriority id prio }

/-- The core and what a run records about it. -/
structure Machine (n : Nat) where
  core : Core n
  generation : Fin n → Nat
  onCpu : Option (Fin n × Nat)
  ended : List (Fin n × Nat)

/-- A slot is claimed when it was free before and is not after. -/
def claimed (before after : Core n) (slot : Fin n) : Bool :=
  isFree (before.table slot) && !isFree (after.table slot)

/-- A slot's process is marked when it is Exited after and was not before. -/
def marked (before after : Core n) (slot : Fin n) : Bool :=
  !Table.holds .exited (before.table slot) && Table.holds .exited (after.table slot)

/-- Record one change of the core. The stack in use changes exactly when `TPIDR_EL1` does. -/
def Machine.observe (before : Machine n) (after : Core n) : Machine n :=
  let generation slot := before.generation slot + if claimed before.core after slot then 1 else 0
  { core := after
    generation
    onCpu :=
      if after.tpidr = before.core.tpidr then before.onCpu
      else after.tpidr.map fun slot => (slot, generation slot)
    ended := before.ended ++ ((List.finRange n).filter (marked before.core after)).map fun slot =>
      (slot, generation slot) }

/-- One event. -/
def step (machine : Machine n) (event : Event) : Option (Machine n) :=
  if event.enabled machine.core.mode then
    some (machine.observe (event.perform machine.core))
  else none

/-- The kernel before anything has been spawned. -/
def boot : Machine n where
  core :=
  ⟨fun _ => none, none, 0, .starter, fun _ => .el0⟩
  generation := fun _ => 0
  onCpu := none
  ended := []

/-- The process at EL0 is the one `TPIDR_EL1` points to; it is the only Running one, has not been
marked Exited, and is the one `exit_current` would mark. No process loses its slot while it is on
the core, and `exit_current` has not panicked for want of a Running slot. -/
structure Proper (machine : Machine n) : Prop where
  atEl0 : machine.core.mode = .process .el0 → ∃ slot, machine.core.tpidr = some slot ∧
    machine.onCpu = some (slot, machine.generation slot) ∧
    (∀ id, machine.core.states id = some .running ↔ id = slot.val) ∧
    (slot, machine.generation slot) ∉ machine.ended ∧ machine.core.exitSlot = some slot
  unclaimed : ∀ slot generation, machine.onCpu = some (slot, generation) →
    machine.generation slot = generation
  exits : machine.core.mode ≠ .halted .exitNoRunning

/-- The slot a `SYS_KILL` names. -/
def Event.target : Event → Option ProcId
  | .kill pid _ => some pid.toNat
  | _ => none

/-- The event is not a `SYS_KILL` that names the caller's own slot. -/
def NotOwnKill (machine : Machine n) (event : Event) : Prop :=
  ∀ slot ∈ machine.core.tpidr, event.target ≠ some slot.val

instance (machine : Machine n) (event : Event) : Decidable (NotOwnKill machine event) :=
  inferInstanceAs (Decidable (∀ slot ∈ machine.core.tpidr, event.target ≠ some slot.val))

/-! ## The core between events -/

/-- Between events the Running process is the current one, if there is one. -/
structure Settled (core : Core n) : Prop where
  running : ∀ id, core.states id = some .running ↔ core.tpidr.map Fin.val = some id
  current : ∀ level, core.mode = .process level → ∃ slot, core.tpidr = some slot
  kernel : core.mode = .starter → core.tpidr = none
  exits : core.mode ≠ .halted .exitNoRunning

variable {after core : Core n}

lemma Settled.calm (settled : Settled core) (tpidr : after.tpidr = core.tpidr)
    (mode : after.mode = core.mode)
    (running : ∀ id, after.states id = some .running ↔ core.states id = some .running) :
    Settled after where
  running id := by rw [running, tpidr, settled.running]
  current level executes := by
    rw [tpidr]
    exact settled.current level (mode ▸ executes)
  kernel starter := by
    rw [tpidr]
    exact settled.kernel (mode ▸ starter)
  exits := by
    rw [mode]
    exact settled.exits

lemma Settled.halt (settled : Settled core) {why : Halt} (other : why ≠ .exitNoRunning) :
    Settled (core.halt why) where
  running := settled.running
  current _ executes := nomatch executes
  kernel starter := nomatch starter
  exits halted := other (Mode.halted.inj halted)

lemma stateOf_wakes (table : Table n) (woken : List ProcId) (id : ProcId) :
    (woken.foldl wake table).stateOf id = table.stateOf id ∨ table.stateOf id = some .blocked ∧
        (woken.foldl wake table).stateOf id = some .runnable := by
  induction woken generalizing table with
  | nil => exact .inl rfl
  | cons first _ ih =>
    have later := ih (table.wake first)
    rw [stateOf_wake] at later
    split at later
    · rename_i blocked
      rcases later with kept | ⟨again, -⟩
      · exact .inr ⟨blocked.2, kept⟩
      · cases again
    · exact later

lemma running_wakes (table : Table n) (woken : List ProcId) (id : ProcId) :
    (woken.foldl wake table).stateOf id = some .running ↔ table.stateOf id = some .running := by
  rcases stateOf_wakes table woken id with kept | ⟨blocked, runnable⟩
  · rw [kept]
  rw [blocked, runnable]
  exact ⟨nofun, nofun⟩

lemma stateOf_checkDeadlines (table : Table n) (now : UInt64) (id : ProcId) :
    (table.checkDeadlines now).stateOf id = table.stateOf id ∨
      table.stateOf id = some .blocked ∧ (table.checkDeadlines now).stateOf id =
        some .runnable := by
  simp only [Table.stateOf, Table.get_checkDeadlines]
  cases table.get id with
  | none => exact .inl rfl
  | some process =>
    by_cases late : Table.expired now process
    · have blocked : process.state = .blocked := by
        simp only [Table.expired, decide_eq_true_eq] at late
        exact late.1
      simp [late, blocked]
    · simp [late]

lemma running_checkDeadlines (table : Table n) (now : UInt64) (id : ProcId) :
    (table.checkDeadlines now).stateOf id = some .running ↔ table.stateOf id = some .running := by
  rcases stateOf_checkDeadlines table now id with kept | ⟨blocked, runnable⟩
  · rw [kept]
  rw [blocked, runnable]
  exact ⟨nofun, nofun⟩

/-- A core whose current process is in the table and that runs no other. -/
structure Held (core : Core n) (current : Fin n) : Prop where
  tpidr : core.tpidr = some current
  present : core.states current.val ≠ none
  only : ∀ id, core.states id = some .running → id = current.val

variable {current : Fin n}

lemma Settled.held (settled : Settled core) (tpidr : core.tpidr = some current) :
    Held core current ∧ core.states current.val = some .running := by
  have running : core.states current.val = some .running :=
    (settled.running current.val).mpr (by rw [tpidr]; rfl)
  refine ⟨⟨tpidr, fun missing => ?_, fun id found => ?_⟩, running⟩
  · rw [missing] at running
    cases running
  · have pointed := (settled.running id).mp found
    rw [tpidr] at pointed
    exact (some.inj pointed).symm

lemma Held.demoted (held : Held core current) (demoteTo : State)
    (demotes : demoteTo ≠ .running) (id : ProcId) :
    demotedStates core current demoteTo id ≠ some .running := by
  unfold demotedStates
  split
  · by_cases same : id = current.val
    · rw [same, update_self]
      exact fun equal => demotes (some.inj equal)
    · rw [update_of_ne same]
      exact fun running => same (held.only id running)
  rename_i stopped
  exact fun running => stopped (held.only id running ▸ running)

lemma Held.switched {next : Fin n} (held : Held core current) (demoteTo : State)
    (demotes : demoteTo ≠ .running) (tpidr : after.tpidr = some next) {level : Execution}
    (mode : after.mode = .process level) (states : after.states =
      Function.update (demotedStates core current demoteTo) next.val (some .running)) :
    Settled after where
  running id := by
    rw [states, tpidr]
    by_cases same : id = next.val
    · simp [same]
    rw [update_of_ne same]
    refine ⟨fun running => absurd running (held.demoted demoteTo demotes id), fun pointed => ?_⟩
    exact absurd (some.inj pointed).symm same
  current _ _ := ⟨next, tpidr⟩
  kernel starter := nomatch mode.symm.trans starter
  exits halted := nomatch mode.symm.trans halted

lemma settled_toStarter (stopped : ∀ id, core.states id ≠ some .running) :
    Settled core.toStarter where
  running id := ⟨fun running => absurd running (stopped id), nofun⟩
  current _ executes := nomatch executes
  kernel _ := rfl
  exits := nofun

section

variable (settled : Settled core) (tpidr : core.tpidr = some current)
include settled tpidr

lemma Settled.resched : Settled core.resched := by
  obtain ⟨held, -⟩ := settled.held tpidr
  obtain ⟨_, switched, outcome⟩ := switchOut_case core .runnable tpidr held.present
  unfold Core.resched
  rw [switched]
  cases outcome with
  | stayed _ tpidr' mode states =>
    exact settled.calm tpidr' mode fun id => by rw [states, if_pos rfl]
  | switched _ _ _ runnable tpidr' mode states =>
    exact held.switched .runnable nofun tpidr' mode states

lemma Settled.blockCurrent : Settled core.blockCurrent := by
  obtain ⟨held, -⟩ := settled.held tpidr
  obtain ⟨_, switched, outcome⟩ := switchOut_case core .blocked tpidr held.present
  unfold Core.blockCurrent
  rw [switched]
  cases outcome with
  | stayed after tpidr' _ states =>
    have stopped : ∀ id, after.states id ≠ some .running := by
      intro id
      rw [states, if_neg (by decide)]
      exact held.demoted .blocked nofun id
    simp only [tpidr', tpidr]
    exact settled_toStarter stopped
  | switched _ _ _ _ tpidr' mode states =>
    exact held.switched .blocked nofun tpidr' mode states

lemma Settled.blockAt (deadline : UInt64) : Settled (core.blockAt deadline) := by
  obtain ⟨held, -⟩ := settled.held tpidr
  have present : (core.table current).isNone = false := by
    have found := held.present
    rw [Core.states, Table.stateOf_slot] at found
    cases slot : core.table current with
    | none => simp [slot] at found
    | some => rfl
  have recorded : Settled { core with table := core.table.setDeadline current deadline } :=
    settled.calm rfl rfl fun id => by rw [Core.states, stateOf_setDeadline]
  unfold Core.blockAt
  split
  · rename_i missing
    cases tpidr.symm.trans missing
  rename_i pointed
  cases tpidr.symm.trans pointed
  rw [if_neg (by rw [present]; decide)]
  exact recorded.blockCurrent tpidr

end

lemma Held.leave (held : Held core current)
    (stopped : core.states current.val ≠ some .running) : Settled core.leave := by
  obtain ⟨_, switched, outcome⟩ := switchOut_case core .runnable held.tpidr held.present
  unfold Core.leave
  rw [switched]
  cases outcome with
  | stayed _ _ _ states =>
    refine settled_toStarter fun id running => ?_
    rw [states, if_pos rfl] at running
    exact stopped (held.only id running ▸ running)
  | switched _ _ _ runnable tpidr mode states =>
    exact held.switched .runnable nofun tpidr mode states

section

variable (settled : Settled core)
include settled

section

variable (tpidr : core.tpidr = some current)
include tpidr

lemma Settled.die (status : UInt64) (woken : List ProcId) : Settled
      ({ core with table := core.table.markExited current status }.wakeAll woken).leave := by
  obtain ⟨held, running⟩ := settled.held tpidr
  have states := stateOf_markExited running status
  have stopped : ∀ id, (core.table.markExited current status).stateOf id ≠ some .running := by
    intro id found
    rw [states] at found
    by_cases same : id = current.val
    · simp [same] at found
    rw [update_of_ne same] at found
    exact same (held.only id found)
  have exited : (woken.foldl wake (core.table.markExited current status)).stateOf current.val =
      some .exited := by
    have marked : (core.table.markExited current status).stateOf current.val = some .exited := by
      rw [states, update_self]
    rcases stateOf_wakes (core.table.markExited current status) woken current.val with
      kept | ⟨blocked, -⟩
    · rw [kept, marked]
    · cases marked.symm.trans blocked
  have dead : Held ({ core with table := core.table.markExited current status }.wakeAll woken)
    current := {
    tpidr := tpidr
    present := fun missing => nomatch exited.symm.trans missing
    only := fun id running => absurd ((running_wakes _ woken id).mp running) (stopped id) }
  exact dead.leave fun running => nomatch exited.symm.trans running

lemma Settled.exitSlot : core.exitSlot = some current := by
  obtain ⟨held, running⟩ := settled.held tpidr
  cases found : core.exitSlot with
  | none =>
    have holds := (Table.holds_iff core.table .running current).mpr running
    rw [Table.position_none found current] at holds
    cases holds
  | some slot =>
    have first := (Table.holds_iff core.table .running slot).mp (Table.position_test found)
    rw [Fin.ext (held.only slot.val first)]

lemma Settled.exitCurrent (status : UInt64) (woken : List ProcId) :
    Settled (core.exitCurrent status woken) := by
  have marks := settled.exitSlot tpidr
  unfold Core.exitCurrent
  split
  · rename_i missing
    cases tpidr.symm.trans missing
  split
  · rename_i missing
    cases marks.symm.trans missing
  rename_i found
  cases marks.symm.trans found
  exact settled.die tpidr status woken

lemma Settled.fault (woken : List ProcId) : Settled (core.fault woken) := by
  obtain ⟨-, running⟩ := settled.held tpidr
  rw [Core.states, Table.stateOf_slot] at running
  obtain ⟨process, found, state⟩ := map_eq_some_iff.mp running
  unfold Core.fault
  split
  · rename_i missing
    cases tpidr.symm.trans missing
  rename_i pointed
  cases tpidr.symm.trans pointed
  simp only [found, state, if_true]
  exact settled.die tpidr Table.faultStatus woken

end

lemma Settled.wakeAll (woken : List ProcId) : Settled (core.wakeAll woken) :=
  settled.calm rfl rfl fun id => running_wakes core.table woken id

lemma Settled.interrupt (woken : List ProcId) (tick : Option UInt64) :
    Settled (core.interrupt woken tick) := by
  have awake := settled.wakeAll woken
  unfold Core.interrupt
  cases tick with
  | none => exact awake
  | some now =>
    have checked : Settled { core.wakeAll woken with
        table := (core.wakeAll woken).table.checkDeadlines now } :=
      awake.calm rfl rfl fun id => running_checkDeadlines _ now id
    dsimp only
    split
    · exact checked
    rename_i tpidr
    exact checked.resched tpidr

lemma Settled.tryInstall {prio : Priority} (installed : core.tryInstall prio = some after) :
    Settled after := by
  obtain ⟨⟨slot, _⟩, claimed, rfl⟩ := map_eq_some_iff.mp installed
  obtain ⟨rfl, free⟩ := Table.tryInstall_slot claimed
  refine settled.calm rfl rfl fun id => ?_
  rw [Core.states, Table.stateOf_update]
  by_cases same : id = slot.val
  · subst same
    rw [if_pos rfl]
    refine iff_of_false (by simp [Table.newProcess]) ?_
    rcases free with state | state <;> simp [Core.states, state]
  · rw [if_neg same]

lemma Settled.kill (pid : UInt64) (woken : List ProcId)
    (other : ∀ slot ∈ core.tpidr, pid.toNat ≠ slot.val) : Settled (core.kill pid woken) := by
  unfold Core.kill
  split
  · exact settled
  rename_i table killed
  have states := sysKillMark_states killed
  have marked : Settled { core with table } := by
    refine settled.calm rfl rfl fun id => ?_
    rw [Core.states, states]
    by_cases same : id = pid.toNat
    · rw [same, update_self]
      refine ⟨(by simp), fun running => ?_⟩
      obtain ⟨slot, pointed, equal⟩ := map_eq_some_iff.mp ((settled.running _).mp running)
      exact absurd equal.symm (other slot pointed)
    · rw [update_of_ne same]
  exact marked.wakeAll woken

lemma Settled.runAll (idle : core.tpidr = none) : Settled core.runAll := by
  unfold Core.runAll
  split
  · exact settled.halt (by decide)
  rename_i first found
  have runnable := (Table.holds_iff core.table .runnable first).mp (Table.position_test found)
  have states := stateOf_setState runnable .running
  refine ⟨fun id => ?_, fun _ _ => ⟨first, rfl⟩, (by simp), (by simp)⟩
  rw [Core.states, states]
  by_cases same : id = first.val
  · simp [same]
  rw [update_of_ne same, settled.running, idle]
  refine ⟨(by simp), fun pointed => absurd (some.inj pointed).symm same⟩

end

variable {event : Event}

lemma Settled.caller (settled : Settled core)
    (enabled : event.enabled core.mode = true) (process : core.mode ≠ .starter) :
    ∃ current, core.tpidr = some current := by
  cases mode : core.mode with
  | process level => exact settled.current level mode
  | starter => exact absurd mode process
  | halted =>
    rw [mode, event.enabled_halted] at enabled
    cases enabled

/-- Every event but the killing of oneself keeps the core settled. -/
lemma Settled.perform (settled : Settled core) (enabled : event.enabled core.mode = true)
    (other : ∀ slot ∈ core.tpidr, event.target ≠ some slot.val) : Settled (event.perform core) := by
  have executing : event.enabled .starter = false → ∃ current, core.tpidr = some current :=
    fun refused => settled.caller enabled fun starter => by
      rw [starter, refused] at enabled
      cases enabled
  cases event with
  | yield =>
    obtain ⟨_, tpidr⟩ := executing rfl
    exact settled.resched tpidr
  | interrupt woken tick => exact settled.interrupt woken tick
  | wake id => exact settled.wakeAll [id]
  | boost =>
    exact settled.calm rfl rfl fun read => by rw [Event.perform, Core.states, stateOf_boost]
  | unboost =>
    exact settled.calm rfl rfl fun read => by rw [Event.perform, Core.states, stateOf_unboost]
  | block deadline =>
    obtain ⟨_, tpidr⟩ := executing rfl
    cases deadline with
    | none => exact settled.blockCurrent tpidr
    | some deadline => exact settled.blockAt tpidr deadline
  | eret =>
    obtain ⟨current, tpidr⟩ := executing rfl
    exact ⟨settled.running, fun _ _ => ⟨current, tpidr⟩, (fun impossible => by cases impossible),
      (fun impossible => by cases impossible)⟩
  | spawn prio =>
    change Settled (core.spawn prio)
    unfold Core.spawn
    cases installed : core.tryInstall prio with
    | none => exact settled
    | some => exact settled.tryInstall installed
  | wait child =>
    refine settled.calm rfl rfl fun id => ?_
    change (core.table.sysWait child).2.stateOf id = _ ↔ _
    rcases Table.sysWait_states core.table child id with kept | ⟨exited, reaped⟩
    · rw [kept]
    rw [reaped, Core.states, exited]
    exact iff_of_false (by simp) (by simp)
  | setprio target prio =>
    refine settled.calm rfl rfl fun id => ?_
    change (core.table.sysSetprio core.tpidr target prio).2.stateOf id = _ ↔ _
    rw [stateOf_sysSetprio]
  | kill pid woken =>
    exact settled.kill pid woken fun slot pointed same => other slot pointed (congrArg some same)
  | exit status woken =>
    obtain ⟨_, tpidr⟩ := executing rfl
    exact settled.exitCurrent tpidr status woken
  | fault woken =>
    obtain ⟨_, tpidr⟩ := executing rfl
    exact settled.fault tpidr woken
  | runAll =>
    cases mode : core.mode with
    | starter => exact settled.runAll (settled.kernel mode)
    | process level =>
      rw [mode] at enabled
      have same : decide (Mode.process level = Mode.starter) = true := enabled
      cases of_decide_eq_true same
    | halted =>
      rw [mode, Event.enabled_halted] at enabled
      cases enabled
  | install =>
    change Settled core.install
    unfold Core.install
    cases installed : core.tryInstall defaultPriority with
    | none => exact settled.halt (by decide)
    | some => exact settled.tryInstall installed
  | setPriority id prio =>
    refine settled.calm rfl rfl fun read => ?_
    change (core.table.setPriority id prio).stateOf read = _ ↔ _
    rw [Table.setPriority, stateOf_modify_same]
    exact fun _ => rfl

/-! ## What a run records -/

/-- The records agree with a settled core. -/
structure Tracked (machine : Machine n) : Prop where
  settled : Settled machine.core
  onCpu : machine.onCpu = machine.core.tpidr.map fun slot => (slot, machine.generation slot)
  ended : ∀ slot generation, (slot, generation) ∈ machine.ended → generation ≤
    machine.generation slot ∧
      (generation = machine.generation slot → isFree (machine.core.table slot) = true)

lemma not_free_of_running {table : Table n} {slot : Fin n}
    (running : table.stateOf slot.val = some .running) : isFree (table slot) = false := by
  have busy := (Table.isFree_iff table slot).not.mpr (by rw [running]; simp)
  exact Bool.eq_false_iff.mpr busy

variable {machine : Machine n}

lemma Tracked.observe (tracked : Tracked machine) (settled : Settled after) :
    Tracked (machine.observe after) where
  settled := settled
  onCpu := by
    simp only [Machine.observe]
    split
    · rename_i same
      rw [tracked.onCpu, same]
      refine Option.map_congr fun slot pointed => ?_
      have running := (tracked.settled.held pointed).2
      simp [claimed, not_free_of_running running]
    · rfl
  ended slot generation recorded := by
    simp only [Machine.observe, List.mem_append, List.mem_map, List.mem_filter,
      Prod.mk.injEq] at recorded ⊢
    rcases recorded with old | ⟨dying, ⟨-, dies⟩, rfl, rfl⟩
    · obtain ⟨past, free⟩ := tracked.ended slot generation old
      by_cases new : claimed machine.core after slot = true
      · simp only [new, if_true]
        exact ⟨by omega, fun same => absurd same (by omega)⟩
      simp only [new, Bool.false_eq_true, if_false, Nat.add_zero]
      refine ⟨past, fun same => ?_⟩
      simpa [claimed, free same] using new
    simp only [marked, Bool.and_eq_true] at dies
    simp [isFree, dies.2]

lemma Tracked.proper (tracked : Tracked machine) : Proper machine where
  atEl0 el0 := by
    obtain ⟨slot, tpidr⟩ := tracked.settled.current .el0 el0
    obtain ⟨held, running⟩ := tracked.settled.held tpidr
    refine ⟨slot, tpidr, ?_, fun id => ⟨held.only id, fun same => same ▸ running⟩, fun recorded =>
      ?_,
      tracked.settled.exitSlot tpidr⟩
    · rw [tracked.onCpu, tpidr]
      rfl
    · have free := (tracked.ended slot _ recorded).2 rfl
      rw [not_free_of_running running] at free
      cases free
  unclaimed slot generation executing := by
    rw [tracked.onCpu] at executing
    obtain ⟨_, -, same⟩ := map_eq_some_iff.mp executing
    cases same
    rfl
  exits := tracked.settled.exits

lemma boot_tracked : Tracked (boot : Machine n) where
  settled := {
    running := fun id => by
      have empty : (boot : Machine n).core.states id = none := by
        simp [boot, Core.states, Table.stateOf, Table.get]
      rw [empty]
      exact iff_of_false (by simp) (by simp [boot])
    current := fun _ executes => by cases executes
    kernel := fun _ => rfl
    exits := (by simp [boot]) }
  onCpu := rfl
  ended _ _ recorded := by cases recorded

lemma step_tracked (machine : Machine n) (event : Event) (after : Machine n)
    (tracked : Tracked machine)
    (other : NotOwnKill machine event) (taken : step machine event = some after) :
    Tracked after := by
  unfold step at taken
  split at taken
  · rename_i enabled
    cases taken
    exact tracked.observe (tracked.settled.perform enabled other)
  · cases taken

lemma notOwnKill_of_proper (machine : Machine n) (event : Event) (after : Machine n)
    (tracked : Tracked machine) (taken : step machine event = some after) (proper : Proper after) :
    NotOwnKill machine event := by
  intro slot tpidr own
  cases event with
  | kill pid woken =>
    have self : pid.toNat = slot.val := some.inj own
    unfold step at taken
    split at taken
    · rename_i enabled
      cases taken
      have el0 : machine.core.mode = .process .el0 := by
        cases mode : machine.core.mode with
        | halted =>
          rw [mode, Event.enabled_halted] at enabled
          cases enabled
        | starter =>
          rw [mode] at enabled
          have same : decide (Mode.starter = Mode.process .el0) = true := enabled
          exact of_decide_eq_true same
        | process level =>
          rw [mode] at enabled
          have same : decide (Mode.process level = Mode.process .el0) = true := enabled
          exact of_decide_eq_true same
      have running := (tracked.settled.held tpidr).2
      obtain ⟨table, killed⟩ : ∃ table, machine.core.table.sysKillMark pid = some table := by
        rcases Table.sysKillMark_cases machine.core.table pid with ⟨table, -, killed, -⟩ | ⟨-, gone⟩
        · exact ⟨table, killed⟩
        rw [self, show machine.core.table.stateOf slot.val = some .running from running] at gone
        simp at gone
      have performed : (Event.kill pid woken).perform machine.core =
          { machine.core with table }.wakeAll woken := by
        simp only [Event.perform, Core.kill, killed]
      rw [performed] at proper
      obtain ⟨_, pointed, -, only, -⟩ := proper.atEl0 el0
      cases tpidr.symm.trans pointed
      have again := (running_wakes table woken slot.val).mp ((only slot.val).mpr rfl)
      rw [sysKillMark_states killed, self, update_self] at again
      cases again
    · cases taken
  | _ => cases own

/-- From boot, control is only ever at EL0 in the one Running process that `TPIDR_EL1` points to and
that has not been marked Exited, no process on the core loses its slot, and `exit_current` marks the
current slot and finds it, exactly in the runs in which no process kills itself. -/
theorem proper_iff_not_own_kill (events : List Event) :
    Throughout step Proper (boot : Machine n) events ↔
      Along step NotOwnKill (boot : Machine n) events :=
  throughout_iff_along step_tracked (fun _ tracked => tracked.proper) notOwnKill_of_proper
    boot_tracked

/-! ## A process that kills itself -/

def ownKill : List Event := [.install, .runAll, .kill 0 []]

/-- The killed process is back at EL0. Its next exit panics for want of a Running slot, and its next
spawn hands its own slot and stack to the child while it still executes. -/
theorem own_kill_returns_to_el0 : (∃ after : Machine 2, run step boot ownKill = some after ∧
      after.core.mode = .process .el0 ∧ after.core.states 0 = some .exited ∧ ¬ Proper after) ∧
    (∃ after : Machine 2, run step boot (ownKill ++ [.exit 0 []]) = some after ∧
      after.core.mode = .halted .exitNoRunning) ∧
    (∃ after : Machine 2, run step boot (ownKill ++ [.spawn 0]) = some after ∧
      after.onCpu = some (0, 1) ∧ after.generation 0 = 2) := by
  refine ⟨⟨_, rfl, rfl, rfl, fun proper => ?_⟩, ⟨_, rfl, rfl⟩, ⟨_, rfl, rfl, rfl⟩⟩
  obtain ⟨_, -, -, -, -, exits⟩ := proper.atEl0 rfl
  cases exits

end R9x.Verif.Dispatch
