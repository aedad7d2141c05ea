import Mathlib.Data.List.FinRange
import R9x.Port.Ipc

/-!
# The process table

`aarch64/src/process.rs`: the slots, the priority state, and the operations that read or write the
table without switching.
-/

namespace R9x.Aarch64

open Port.Ipc (ProcId)
open Function (update)
open UInt64 (ofNat)

/-- `NPROCS`: the slots of the kernel's table. -/
def nprocs : Nat := 8

/-- A table of one slot has a first one. -/
instance oneSlot : NeZero 1 := ⟨by decide⟩

/-- A table of two slots has a first one. -/
instance twoSlots : NeZero 2 := ⟨by decide⟩

/-- A priority level; lower is more urgent. -/
abbrev Priority := UInt8

/-- `Priority::IDLE`: the never-scheduled sentinel. -/
def Priority.idle : Priority := 255

def defaultPriority : Priority := 128

/-- A slot's own priority and the one it is scheduled at. -/
structure PriorityState where
  base : Priority
  effective : Priority
  deriving DecidableEq

namespace PriorityState

def new (base : Priority) : PriorityState := ⟨base, base⟩

/-- `is_boosted`: strictly more urgent than the base. -/
def isBoosted (prio : PriorityState) : Bool := prio.effective < prio.base

/-- `boost`: at most one boost at a time. -/
def boost (prio : PriorityState) (level : Priority) : PriorityState :=
  if !prio.isBoosted then { prio with effective := level } else prio

def unboost (prio : PriorityState) : PriorityState := { prio with effective := prio.base }

/-- The shared body of `set_priority` and `sys_setprio`: the boost is judged against the new
base. -/
def rebase (prio : PriorityState) (level : Priority) : PriorityState :=
  let prio := { prio with base := level }
  if !prio.isBoosted then { prio with effective := level } else prio

end PriorityState

/-- A process's scheduling state. -/
inductive State where
  | running
  | runnable
  | blocked
  | exited
  deriving DecidableEq

/-- `Process`, without its saved registers. -/
structure Process where
  state : State
  exitStatus : UInt64
  prio : PriorityState
  deadline : Option UInt64
  deriving DecidableEq

/-- The table: one optional process per slot. -/
abbrev Table (n : Nat) := Fin n → Option Process

namespace Table

variable {n : Nat}

/-- The process of a slot number; `none` for an empty slot and outside the table. -/
def get (table : Table n) (id : ProcId) : Option Process :=
    if bound : id < n then table ⟨id, bound⟩ else none

/-- Rewrite the process of one slot, if there is one. -/
def modify (table : Table n) (id : ProcId) (change : Process → Process) : Table n :=
  fun slot =>
  if slot.val = id then (table slot).map change else table slot

/-- `Iterator::position` over the slots. -/
def position (table : Table n) (test : Option Process → Bool) : Option (Fin n) :=
  (List.finRange n).find? fun slot => test (table slot)

/-- A slot that holds a process in a state. -/
def holds (state : State) (slot : Option Process) : Bool :=
    slot.any fun process => process.state = state

/-- A slot a spawn may claim: empty or Exited. -/
def isFree (slot : Option Process) : Bool := slot.isNone || holds .exited slot

/-- The scheduling state of a slot number, if it holds a process. -/
def stateOf (table : Table n) (id : ProcId) : Option State := (table.get id).map Process.state

section

variable (table : Table n)

lemma get_modify (written read : ProcId) (change : Process → Process) :
    (table.modify written change).get read =
      if read = written then (table.get read).map change else table.get read := by
  unfold get modify
  by_cases bound : read < n
  · simp only [dif_pos bound]
  · simp [dif_neg bound]

lemma stateOf_modify (written read : ProcId) (change : Process → Process) :
    (table.modify written change).stateOf read =
      if read = written then (table.get read).map fun process => (change process).state
      else table.stateOf read := by
  unfold stateOf
  rw [get_modify]
  split
  · rw [Option.map_map]
    rfl
  · rfl

/-- `wake`: a Blocked process becomes Runnable and its deadline is cleared. -/
def wake (table : Table n) (id : ProcId) : Table n :=
  table.modify id fun process =>
    if process.state = .blocked then { process with state := .runnable, deadline := none }
    else process

def boost (table : Table n) (id : ProcId) (level : Priority) : Table n :=
  table.modify id fun process => { process with prio := process.prio.boost level }

def unboost (table : Table n) (id : ProcId) : Table n :=
  table.modify id fun process => { process with prio := process.prio.unboost }

def setPriority (table : Table n) (id : ProcId) (prio : Priority) : Table n :=
  table.modify id fun process => { process with prio := process.prio.rebase prio }

def effectivePriority (table : Table n) (id : ProcId) : Option Priority :=
  (table.get id).map fun process => process.prio.effective

/-- The demotion of a blocking `switch_out`: only a Running process becomes Blocked. -/
def block (table : Table n) (id : ProcId) : Table n :=
  table.modify id fun process =>
    if process.state = .running then { process with state := .blocked } else process

/-- The deadline write of `block_at`. -/
def setDeadline (table : Table n) (id : ProcId) (deadline : UInt64) : Table n :=
  table.modify id fun process => { process with deadline := some deadline }

/-- A blocked process whose deadline the counter has reached. -/
def expired (now : UInt64) (process : Process) : Bool :=
  process.state = .blocked ∧ process.deadline.any (· ≤ now)

/-- `check_deadlines`: every expired process is woken. -/
def checkDeadlines (table : Table n) (now : UInt64) : Table n :=
  fun slot =>
  (table slot).map fun process =>
    if expired now process then { process with state := .runnable, deadline := none } else process

def status (table : Table n) (id : ProcId) : Option UInt64 :=
  match table.get id with
  | some process => if process.state = .exited then some process.exitStatus else none
  | none => none

/-- `try_install`'s slot claim: the first empty or Exited slot takes the new process. -/
def tryInstall (table : Table n) (process : Process) : Option (Fin n × Table n) :=
  (table.position isFree).map fun id => (id, update table id (some process))

/-- The process `try_install` builds: Runnable, at its own priority, with no deadline. -/
def newProcess (prio : Priority) : Process where
  state :=
  .runnable
  exitStatus := 0
  prio := .new prio
  deadline := none

def waitTimeout : UInt64 := 0xffffffff

def waitBadId : UInt64 := 0xfffffffe

/-- The slot `sys_wait` reaps: a named Exited one, or the first Exited one for id zero. -/
def sysWaitSlot (table : Table n) (child : UInt64) : Except UInt64 (Fin n) :=
  if child = 0 then
    match table.position (holds .exited) with
    | some slot => .ok slot
    | none => .error waitTimeout
  else if bound : child.toNat < n then
    if holds .exited (table ⟨child.toNat, bound⟩) then .ok ⟨child.toNat, bound⟩
      else .error waitBadId
  else .error waitBadId

/-- `sys_wait`: reap a finished child and free its slot. -/
def sysWait (table : Table n) (child : UInt64) : (UInt64 × UInt64) × Table n :=
  match table.sysWaitSlot child with
  | .error code => ((code, 0), table)
  | .ok slot =>
    ((ofNat slot.val, ((table slot).map Process.exitStatus).getD 0), update table slot none)

def killStatus : UInt64 := 0x7f

def faultStatus : UInt64 := 0xff

/-- Mark a slot's process Exited with a status. -/
def markExited (table : Table n) (id : ProcId) (status : UInt64) : Table n :=
  table.modify id fun process => { process with state := .exited, exitStatus := status }

/-- The table part of `sys_kill`: any process that is not already Exited is marked, the caller
itself included; `none` is the bad-id return. -/
def sysKillMark (table : Table n) (pid : UInt64) : Option (Table n) :=
  match table.get pid.toNat with
  | some process =>
    if process.state ≠ .exited then some (table.markExited pid.toNat killStatus) else none
  | none => none

def setprioBadId : UInt64 := 1

def setprioBadPrio : UInt64 := 2

/-- `sys_setprio`: `u64::MAX` names the current process, whose slot defaults to zero when it is not
in the table; only the exact sentinel is refused, and the level is the low byte. -/
def sysSetprio (table : Table n) (tpidr : Option (Fin n)) (target prio : UInt64) :
    UInt64 × Table n :=
  if prio = 255 then (setprioBadPrio, table)
  else
    let id : Option Nat :=
      if target = ofNat (2 ^ 64 - 1) then
        tpidr.map fun current => if (table current).isSome then current.val else 0
      else some target.toNat
    match id with
    | none => (setprioBadId, table)
    | some id =>
      match table.get id with
      | some _ => (0, table.setPriority id prio.toUInt8)
      | none => (setprioBadId, table)

/-! ## Slots and their states -/

lemma stateOf_slot (slot : Fin n) : table.stateOf slot.val = (table slot).map Process.state := by
  simp [stateOf, get]

lemma holds_iff (state : State) (slot : Fin n) :
    holds state (table slot) = true ↔ table.stateOf slot.val = some state := by
  rw [stateOf_slot]
  cases table slot <;> simp [holds]

lemma isFree_iff (slot : Fin n) : isFree (table slot) = true ↔
      table.stateOf slot.val = none ∨ table.stateOf slot.val = some .exited := by
  rw [isFree, Bool.or_eq_true, holds_iff, stateOf_slot, Option.isNone_iff_eq_none,
    Option.map_eq_none_iff]

lemma get_update (slot : Fin n) (process : Option Process) (id : ProcId) :
    get (update table slot process) id = if id = slot.val then process else table.get id := by
  unfold get
  by_cases bound : id < n
  · by_cases same : id = slot.val
    · subst same
      simp
    · have different : (⟨id, bound⟩ : Fin n) ≠ slot := fun equal => same (congrArg Fin.val equal)
      simp [bound, same, Function.update_of_ne different]
  · have different : id ≠ slot.val := fun equal => bound (equal ▸ slot.isLt)
    simp [bound, different]

lemma get_checkDeadlines (now : UInt64) (id : ProcId) :
    (table.checkDeadlines now).get id = (table.get id).map fun process =>
      if expired now process then { process with state := .runnable, deadline := none }
      else process := by
  unfold get checkDeadlines
  by_cases bound : id < n
  · simp [bound]
  · simp [bound]

end

lemma view_modify {α : Type} (view : Process → α) (table : Table n) (written : ProcId)
    (change : Process → Process) (turn : α → α)
    (turns : ∀ process, view (change process) = turn (view process)) (read : ProcId) :
    ((table.modify written change).get read).map view =
      if read = written then ((table.get read).map view).map turn
      else (table.get read).map view := by
  rw [get_modify]
  split
  · simp only [Option.map_map]
    congr 1
    exact funext turns
  · rfl

lemma stateOf_update (table : Table n) (slot : Fin n) (process : Option Process) (id : ProcId) :
    stateOf (update table slot process) id =
      if id = slot.val then process.map Process.state else table.stateOf id := by
  rw [stateOf, get_update]
  split <;> rfl

variable {table : Table n} {test : Option Process → Bool} {slot : Fin n}

lemma position_test (found : table.position test = some slot) : test (table slot) = true := by
  simpa using List.find?_some found

lemma position_none (missing : table.position test = none) (slot : Fin n) :
    test (table slot) = false := by
  simpa using List.find?_eq_none.mp missing slot (List.mem_finRange slot)

lemma tryInstall_slot {after : Table n} {process : Process}
    (installed : table.tryInstall process = some (slot, after)) :
    after = update table slot (some process) ∧
      (table.stateOf slot.val = none ∨ table.stateOf slot.val = some .exited) := by
  simp only [tryInstall, Option.map_eq_some_iff, Prod.mk.injEq] at installed
  obtain ⟨found, claimed, same, rfl⟩ := installed
  subst same
  exact ⟨rfl, (isFree_iff table found).mp (position_test claimed)⟩

lemma sysWaitSlot_ok {child : UInt64} (reaped : table.sysWaitSlot child = .ok slot) :
    holds .exited (table slot) = true ∧ (child = 0 → table.position (holds .exited) = some slot) ∧
      (child ≠ 0 → child.toNat = slot.val) := by
  unfold sysWaitSlot at reaped
  split at reaped
  · rename_i zero
    split at reaped
    · rename_i found
      cases reaped
      exact ⟨position_test found, fun _ => found, fun named => absurd zero named⟩
    · cases reaped
  rename_i named
  split at reaped
  · split at reaped
    · rename_i exited
      cases reaped
      exact ⟨exited, fun zero => absurd zero named, fun _ => rfl⟩
    · cases reaped
  · cases reaped

lemma slot_code (bound : n ≤ 0xfffffffe) (slot : Fin n) :
    ofNat slot.val ≠ waitBadId ∧ ofNat slot.val ≠ waitTimeout := by
  constructor
  all_goals
    intro same
    have value := congrArg UInt64.toNat same
    rw [UInt64.toNat_ofNat'] at value
  · change _ = 0xfffffffe at value
    omega
  · change _ = 0xffffffff at value
    omega

lemma sysWait_states (table : Table n) (child : UInt64) (id : ProcId) :
    (table.sysWait child).2.stateOf id = table.stateOf id ∨
      table.stateOf id = some .exited ∧ (table.sysWait child).2.stateOf id = none := by
  unfold sysWait
  split
  · exact .inl rfl
  rename_i slot reaped
  have exited := (holds_iff table .exited slot).mp (sysWaitSlot_ok reaped).1
  rw [stateOf_update]
  by_cases same : id = slot.val
  · subst same
    exact .inr ⟨exited, by simp⟩
  · exact .inl (if_neg same)

lemma sysKillMark_cases (table : Table n) (pid : UInt64) :
    (∃ marked state, table.sysKillMark pid = some marked ∧ table.stateOf pid.toNat = some state ∧
      state ≠ .exited) ∨
    table.sysKillMark pid = none ∧
      (table.stateOf pid.toNat = none ∨ table.stateOf pid.toNat = some .exited) := by
  unfold sysKillMark stateOf
  cases table.get pid.toNat with
  | none => exact .inr ⟨rfl, .inl rfl⟩
  | some process =>
    by_cases exited : process.state = .exited
    · exact .inr ⟨by simp [exited], .inr (by simp [exited])⟩
    · exact .inl ⟨table.markExited pid.toNat killStatus, process.state, by simp [exited],
        rfl, exited⟩

end Table

end R9x.Aarch64
