import R9x.Verif.Dispatch
import R9x.Verif.Scheduling

/-!
# What `sys_setprio` sets

`sys_setprio` judges the boost after it has written the new base, keeps only the low byte of the
level, takes an Exited process for a live one, and falls back to slot 0 when its caller is no longer
in the table.
-/

namespace R9x.Verif.Setprio

open Lib Port.Ipc Aarch64 Scheduling
open Function (update update_self update_apply)
open Option (some.inj)
open Priority (idle)

/-! ## One call -/

section

variable {n : Nat}

/-- The slot that a target names: the caller's own one, or the one with that number. -/
def named (tpidr : Option (Fin n)) (target : UInt64) : Option (Fin n) :=
  if target = UInt64.ofNat (2 ^ 64 - 1) then tpidr
  else if bound : target.toNat < n then some ⟨target.toNat, bound⟩ else none

/-- The slot number that the call works on: slot 0 if the caller is not in the table. -/
def resolved (table : Table n) (tpidr : Option (Fin n)) (target : UInt64) : Option Nat :=
  if target = UInt64.ofNat (2 ^ 64 - 1) then
    tpidr.map fun current => if (table current).isSome then current.val else 0
  else some target.toNat

/-- The target is a process that has not exited, and the level is not the idle one or above. -/
structure Settable (table : Table n) (tpidr : Option (Fin n)) (target prio : UInt64) (slot : Fin n)
    (process : Process) : Prop where
  named : named tpidr target = some slot
  held : table slot = some process
  live : process.state ≠ .exited
  level : prio ≤ 254

/-- The more urgent of two levels. -/
def moreUrgent (one other : Priority) : Priority := if one < other then one else other

/-- The priorities that a call is meant to set: the new base, and the more urgent of the boost and
the new base. -/
def adjusted (prio : PriorityState) (level : Priority) : PriorityState :=
  ⟨level, if prio.isBoosted then moreUrgent prio.effective level else level⟩

/-- What a call of `sys_setprio` is meant to do. -/
structure SetsRight (table : Table n) (tpidr : Option (Fin n)) (target prio : UInt64) : Prop where
  success : (table.sysSetprio tpidr target prio).1 = 0 ↔
    ∃ slot process, Settable table tpidr target prio slot process
  effect : ∀ slot process, Settable table tpidr target prio slot process →
    (table.sysSetprio tpidr target prio).2 =
      update table slot (some { process with prio := adjusted process.prio prio.toUInt8 })
  selection : ∀ slot process, Settable table tpidr target prio slot process →
    process.prio.isBoosted = false →
    ((table.sysSetprio tpidr target prio).2.view slot).2 = prio.toUInt8
  refusal : (¬ ∃ slot process, Settable table tpidr target prio slot process) →
    (table.sysSetprio tpidr target prio).2 = table

/-- The level is the idle one, or the slot that the call works on holds no process, or the call
works on the target, which has not exited, the level can be scheduled, and the process is boosted or
the level is at least as urgent as the one it runs at. -/
def Meets (table : Table n) (tpidr : Option (Fin n)) (target prio : UInt64) : Prop :=
  prio = 255 ∨ ∀ id process, resolved table tpidr target = some id → table.get id = some process →
    (named tpidr target).map Fin.val = some id ∧ process.state ≠ .exited ∧ prio ≤ 254 ∧
      (process.prio.isBoosted = true ∨ prio.toUInt8 ≤ process.prio.effective)

variable {table : Table n} {tpidr : Option (Fin n)} {target prio : UInt64} {slot : Fin n}
  {process : Process}

lemma sysSetprio_idle : table.sysSetprio tpidr target 255 = (Table.setprioBadPrio, table) := rfl

lemma sysSetprio_missing (other : prio ≠ 255)
    (missing : ∀ id, resolved table tpidr target = some id → table.get id = none) :
    table.sysSetprio tpidr target prio = (Table.setprioBadId, table) := by
  rw [Table.sysSetprio, if_neg other]
  cases found : resolved table tpidr target with
  | none =>
    unfold resolved at found
    simp only [found]
  | some id =>
    have empty := missing id found
    unfold resolved at found
    simp only [found, empty]

lemma sysSetprio_held (other : prio ≠ 255) {id : Nat}
    (found : resolved table tpidr target = some id)
    (held : table.get id = some process) :
    table.sysSetprio tpidr target prio = (0, table.setPriority id prio.toUInt8) := by
  unfold resolved at found
  rw [Table.sysSetprio, if_neg other]
  simp only [found, held]

lemma get_slot (table : Table n) (slot : Fin n) : table.get slot.val = table slot := by
  rw [Table.get, dif_pos slot.isLt]

lemma resolved_of_named (names : named tpidr target = some slot)
    (held : table slot = some process) :
    resolved table tpidr target = some slot.val := by
  rw [named] at names
  rw [resolved]
  split at names
  · rename_i own
    rw [if_pos own, names, Option.map_some, held]
    rfl
  rename_i apart
  rw [if_neg apart]
  split at names
  · cases names
    rfl
  · cases names

lemma setPriority_eq (held : table slot = some process) (level : Priority) :
    table.setPriority slot.val level =
      update table slot (some { process with prio := process.prio.rebase level }) := by
  funext other
  rw [Table.setPriority, Table.modify]
  by_cases same : other = slot
  · rw [same, update_self, if_pos rfl, held]
    rfl
  · rw [Function.update_of_ne same, if_neg fun equal => same (Fin.ext equal)]

lemma rebase_eq_iff (state : PriorityState) (level : Priority) :
    state.rebase level = adjusted state level ↔ state.isBoosted = true ∨
      level ≤ state.effective := by
  obtain ⟨base, effective⟩ := state
  simp only [PriorityState.rebase, adjusted, PriorityState.isBoosted, moreUrgent, decide_eq_true_eq,
    Bool.not_eq_true', decide_eq_false_iff_not]
  by_cases boosted : effective < base
  · rw [if_pos boosted]
    by_cases below : effective < level
    · rw [if_neg (not_not_intro below), if_pos below]
      exact ⟨fun _ => .inl boosted, fun _ => rfl⟩
    rw [if_pos below, if_neg below]
    exact ⟨fun _ => .inl boosted, fun _ => rfl⟩
  rw [if_neg boosted]
  by_cases below : effective < level
  · rw [if_neg (not_not_intro below)]
    constructor
    · intro same
      have equal : effective = level := congrArg PriorityState.effective same
      exact absurd below (equal ▸ UInt8.lt_irrefl _)
    · intro either
      rcases either with contrary | contrary
      · exact absurd contrary boosted
      · exact absurd below (UInt8.not_lt.mpr contrary)
  rw [if_pos below]
  exact ⟨fun _ => .inr (UInt8.not_lt.mp below), fun _ => rfl⟩

lemma SetsRight.of_refused
    (unsettable : ¬ ∃ slot process, Settable table tpidr target prio slot process)
    {code : UInt64} (failed : code ≠ 0) (called : table.sysSetprio tpidr target prio =
      (code, table)) :
    SetsRight table tpidr target prio where
  success := by
    rw [called]
    exact ⟨fun contrary => absurd contrary failed, fun contrary => absurd contrary unsettable⟩
  effect slot process settable := absurd ⟨slot, process, settable⟩ unsettable
  selection slot process settable := absurd ⟨slot, process, settable⟩ unsettable
  refusal _ := congrArg Prod.snd called

lemma SetsRight.of_settable (settable : Settable table tpidr target prio slot process)
    (called : table.sysSetprio tpidr target prio = (0, table.setPriority slot.val prio.toUInt8))
    (adjusts : process.prio.rebase prio.toUInt8 = adjusted process.prio prio.toUInt8) :
    SetsRight table tpidr target prio := by
  have only : ∀ slot' process', Settable table tpidr target prio slot' process' →
      slot' = slot ∧ process' = process := by
    intro _ _ other
    obtain rfl := some.inj (other.named.symm.trans settable.named)
    exact ⟨rfl, some.inj (other.held.symm.trans settable.held)⟩
  have effect : (table.sysSetprio tpidr target prio).2 =
      update table slot (some { process with prio := adjusted process.prio prio.toUInt8 }) := by
    rw [called, ← adjusts]
    exact setPriority_eq settable.held prio.toUInt8
  refine ⟨?_, ?_, ?_, fun contrary => absurd ⟨slot, process, settable⟩ contrary⟩
  · exact ⟨fun _ => ⟨slot, process, settable⟩, fun _ => congrArg Prod.fst called⟩
  · intro slot' process' other
    obtain ⟨rfl, rfl⟩ := only slot' process' other
    exact effect
  · intro slot' process' other unboosted
    obtain ⟨rfl, rfl⟩ := only slot' process' other
    rw [effect, Table.view, update_self]
    simp only [adjusted, unboosted, Bool.false_eq_true, if_false]

lemma setsRight_iff : SetsRight table tpidr target prio ↔ Meets table tpidr target prio := by
  by_cases idle : prio = 255
  · subst idle
    refine ⟨fun _ => .inl rfl, fun _ => .of_refused ?_ (show Table.setprioBadPrio ≠ 0 by decide)
      sysSetprio_idle⟩
    rintro ⟨_, _, settable⟩
    exact absurd settable.level (by decide)
  constructor
  · intro right
    refine .inr ?_
    intro id _ found held
    have called := sysSetprio_held idle found held
    obtain ⟨slot, other, settable⟩ := right.success.mp (congrArg Prod.fst called)
    have same : slot.val = id :=
      some.inj ((resolved_of_named settable.named settable.held).symm.trans found)
    rw [← same, get_slot, settable.held] at held
    obtain rfl := some.inj held
    refine ⟨?_, settable.live, settable.level, (rebase_eq_iff _ _).mp ?_⟩
    · rw [settable.named, ← same]
      rfl
    · have effect := right.effect slot other settable
      rw [called, ← same, setPriority_eq settable.held] at effect
      have written := congrFun effect slot
      dsimp only at written
      rw [update_self, update_self] at written
      exact congrArg Process.prio (some.inj written)
  · intro meets
    have admitted := meets.resolve_left idle
    by_cases missing : ∀ id, resolved table tpidr target = some id → table.get id = none
    · apply SetsRight.of_refused _ (show Table.setprioBadId ≠ 0 by decide)
        (sysSetprio_missing idle missing)
      rintro ⟨slot, _, settable⟩
      have gone := missing slot.val (resolved_of_named settable.named settable.held)
      rw [get_slot, settable.held] at gone
      cases gone
    simp only [not_forall] at missing
    obtain ⟨id, found, present⟩ := missing
    obtain ⟨process, held⟩ := Option.ne_none_iff_exists'.mp present
    obtain ⟨names, live, level, effective⟩ := admitted id process found held
    obtain ⟨_, own, rfl⟩ := Option.map_eq_some_iff.mp names
    have called := sysSetprio_held idle found held
    rw [get_slot] at held
    exact .of_settable ⟨own, held, live, level⟩ called ((rebase_eq_iff _ _).mpr effective)

end

/-! ## What keeps priorities -/

section

variable {n : Nat} {before after : Table n}

def Kept (before after : Table n) : Prop :=
  ∀ slot process, after slot = some process → ∃ old, before slot = some old ∧
    process.prio = old.prio

lemma kept_of_scheduled (scheduled : Scheduled before after) : Kept before after := by
  intro slot _ held
  have moved := scheduled slot
  rw [held] at moved
  generalize before slot = found at moved
  cases moved with
  | some moves => exact ⟨_, rfl, moves.prio⟩

lemma kept_sysWait (table : Table n) (child : UInt64) : Kept table (table.sysWait child).2 := by
  rw [Table.sysWait]
  split
  · exact fun _ process held => ⟨process, held, rfl⟩
  intro _ process held
  dsimp only at held
  rw [update_apply] at held
  split at held
  · cases held
  · exact ⟨process, held, rfl⟩

end

/-! ## Runs -/

variable {n : Nat}

/-- No process is at the idle level. -/
def NoIdle (table : Table n) : Prop :=
  ∀ slot process, table slot = some process →
    process.prio.base ≠ idle ∧ process.prio.effective ≠ idle

/-- A call of `sys_setprio` meets its condition, and no other event brings the idle level in:
`sys_spawn` refuses it, a send boosts only to a level that is more urgent than another one, and the
kernel does not set it. -/
def Admitted (machine : Dispatch.Machine n) : Dispatch.Event → Prop
  | .setprio target prio => Meets machine.core.table machine.core.tpidr target prio
  | .setPriority _ prio => prio ≠ idle
  | .spawn prio => prio ≠ idle
  | .boost _ level => level ≠ idle
  | _ => True

variable {table after : Table n}

lemma NoIdle.kept (free : NoIdle table) (kept : Kept table after) : NoIdle after := by
  intro slot process held
  obtain ⟨old, there, same⟩ := kept slot process held
  rw [same]
  exact free slot old there

lemma NoIdle.modify (free : NoIdle table) (id : ProcId) (change : PriorityState → PriorityState)
    (keeps : ∀ prio : PriorityState, prio.base ≠ idle ∧ prio.effective ≠ idle →
      (change prio).base ≠ idle ∧ (change prio).effective ≠ idle) :
    NoIdle (table.modify id fun process => { process with prio := change process.prio }) := by
  intro slot process held
  rw [Table.modify] at held
  split at held
  · obtain ⟨old, there, rfl⟩ := Option.map_eq_some_iff.mp held
    exact keeps old.prio (free slot old there)
  · exact free slot process held

lemma NoIdle.setPriority (free : NoIdle table) (id : ProcId) {level : Priority}
    (fits : level ≠ idle) :
    NoIdle (table.setPriority id level) := by
  apply free.modify id fun prio => prio.rebase level
  intro _ both
  rw [PriorityState.rebase]
  split
  · exact ⟨fits, fits⟩
  · exact ⟨fits, both.2⟩

lemma NoIdle.spawn {core spawned : Core n} {prio : Priority} (free : NoIdle core.table)
    (fits : prio ≠ idle) (installed : core.tryInstall prio = some spawned) :
    NoIdle spawned.table := by
  rw [Core.tryInstall, Table.tryInstall, Option.map_map] at installed
  obtain ⟨slot, _, rfl⟩ := Option.map_eq_some_iff.mp installed
  intro other process held
  change update core.table slot (some (Table.newProcess prio)) other = some process at held
  rw [update_apply] at held
  split at held
  · cases held
    exact ⟨fits, fits⟩
  · exact free other process held

lemma NoIdle.sysSetprio (free : NoIdle table) {tpidr : Option (Fin n)} {target prio : UInt64}
    (meets : Meets table tpidr target prio) : NoIdle (table.sysSetprio tpidr target prio).2 := by
  rcases meets with rfl | admitted
  · exact free
  by_cases idle : prio = 255
  · subst idle
    exact free
  by_cases missing : ∀ id, resolved table tpidr target = some id → table.get id = none
  · rw [sysSetprio_missing idle missing]
    exact free
  simp only [not_forall] at missing
  obtain ⟨id, found, present⟩ := missing
  obtain ⟨process, held⟩ := Option.ne_none_iff_exists'.mp present
  obtain ⟨-, -, level, -⟩ := admitted id process found held
  rw [sysSetprio_held idle found held]
  apply free.setPriority id
  intro same
  have low : prio.toNat % 256 = 255 := by
    rw [← UInt64.toNat_toUInt8, same]
    rfl
  have bound : prio.toNat ≤ 254 := UInt64.le_iff_toNat_le.mp level
  omega

lemma noIdle_perform {machine : Dispatch.Machine n} {event : Dispatch.Event}
    (free : NoIdle machine.core.table)
    (admitted : Admitted machine event) : NoIdle (event.perform machine.core).table := by
  cases event with
  | yield => exact free.kept (kept_of_scheduled (scheduled_resched _))
  | interrupt woken tick => exact free.kept (kept_of_scheduled (scheduled_interrupt _ woken tick))
  | wake id => exact free.kept (kept_of_scheduled (scheduled_wakes _ [id]))
  | boost id level =>
    apply free.modify id fun prio => prio.boost level
    intro _ both
    rw [PriorityState.boost]
    split
    · exact ⟨both.1, admitted⟩
    · exact both
  | unboost id => exact free.modify id PriorityState.unboost fun prio both => ⟨both.1, both.1⟩
  | block deadline =>
    cases deadline with
    | none => exact free.kept (kept_of_scheduled (scheduled_blockCurrent _))
    | some deadline => exact free.kept (kept_of_scheduled (scheduled_blockAt _ deadline))
  | eret => exact free
  | spawn prio =>
    change NoIdle ((machine.core.tryInstall prio).getD machine.core).table
    cases installed : machine.core.tryInstall prio with
    | none => exact free
    | some => exact free.spawn admitted installed
  | wait child => exact free.kept (kept_sysWait _ child)
  | setprio => exact free.sysSetprio admitted
  | kill pid woken => exact free.kept (kept_of_scheduled (scheduled_kill _ pid woken))
  | exit status woken => exact free.kept (kept_of_scheduled (scheduled_exitCurrent _ status woken))
  | fault woken => exact free.kept (kept_of_scheduled (scheduled_fault _ woken))
  | runAll => exact free.kept (kept_of_scheduled (scheduled_runAll _))
  | install =>
    change NoIdle ((machine.core.tryInstall defaultPriority).getD
      (machine.core.halt .noFreeSlot)).table
    cases installed : machine.core.tryInstall defaultPriority with
    | none => exact free
    | some => exact free.spawn (by decide) installed
  | setPriority id => exact free.setPriority id admitted

/-- For every table, caller, target and level, `sys_setprio` does what it is meant to do if and only
if the call meets the condition; and in every run whose events are admitted, no process is ever at
the idle level. -/
theorem sysSetprio_right : (∀ (table : Table n) (tpidr : Option (Fin n)) (target prio : UInt64),
      SetsRight table tpidr target prio ↔ Meets table tpidr target prio) ∧
    ∀ events, Along Dispatch.step Admitted (Dispatch.boot : Dispatch.Machine n) events →
      Throughout Dispatch.step (fun machine => NoIdle machine.core.table)
        (Dispatch.boot : Dispatch.Machine n)
        events := by
  refine ⟨fun table tpidr target prio => setsRight_iff, fun events met => ?_⟩
  have keeps : ∀ (machine : Dispatch.Machine n) event next, NoIdle machine.core.table →
    Admitted machine event →
      Dispatch.step machine event = some next → NoIdle next.core.table := by
    intro _ _ _ free admitted taken
    rw [Dispatch.step] at taken
    split at taken
    · cases taken
      exact noIdle_perform free admitted
    · cases taken
  exact throughout_of_along keeps (fun _ free => free) (fun _ _ held => nomatch held) met

def plain : Process := Table.newProcess defaultPriority

/-- The only process raises itself to level 100 with a call that meets the condition. -/
theorem sysSetprio_right_raised : SetsRight (fun _ : Fin 1 => some { plain with state := .running })
    (some 0)
        (UInt64.ofNat (2 ^ 64 - 1)) 100 ∧
      Throughout Dispatch.step (fun machine => NoIdle machine.core.table)
        (Dispatch.boot : Dispatch.Machine 1)
        [.install, .runAll, .setprio (UInt64.ofNat (2 ^ 64 - 1)) 100] := by
  have meets : Meets (fun _ : Fin 1 => some { plain with state := .running }) (some 0)
      (UInt64.ofNat (2 ^ 64 - 1)) 100 := by
    refine .inr ?_
    intro _ _ found held
    cases found
    cases held
    decide
  refine ⟨(sysSetprio_right.1 _ _ _ _).mpr meets, sysSetprio_right.2 _ ?_⟩
  intro first taken
  cases taken
  refine ⟨trivial, ?_⟩
  intro second taken
  cases taken
  refine ⟨trivial, ?_⟩
  intro third taken
  refine ⟨.inr ?_, trivial⟩
  intro _ _ found held
  cases found
  cases held
  decide

/-- A process at level 128 that sets itself to level 200 stays at level 128, and level 511 is taken
and makes it an idle one. -/
theorem setprio_keeps_old_level :
    ((Table.sysSetprio (fun _ : Fin 1 => some plain) (some 0) 0 200).1 = 0 ∧
      ((Table.sysSetprio (fun _ : Fin 1 => some plain) (some 0) 0 200).2 0).map Process.prio = some
      ⟨200, 128⟩ ∧
      ¬ SetsRight (fun _ : Fin 1 => some plain) (some 0) 0 200) ∧
    ((Table.sysSetprio (fun _ : Fin 1 => some plain) (some 0) 0 511).1 = 0 ∧
      ¬ SetsRight (fun _ : Fin 1 => some plain) (some 0) 0 511) := by
  refine ⟨⟨by decide, by decide, fun right => ?_⟩, by decide, fun right => ?_⟩
  · have selected := right.selection 0 plain ⟨rfl, rfl, by decide, by decide⟩ rfl
    exact absurd selected (by decide)
  · obtain ⟨_, _, settable⟩ := right.success.mp (by decide)
    exact absurd settable.level (by decide)

end R9x.Verif.Setprio
