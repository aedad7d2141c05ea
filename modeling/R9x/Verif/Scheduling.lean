import R9x.Aarch64.Scheduler

/-!
# What scheduling leaves alone

Whatever the functions of the scheduler do to the table, they do to each process by itself: none
enters or leaves the table, no priority changes, and an Exited process stays Exited with its status.
-/

namespace R9x.Verif.Scheduling

open Port.Ipc Aarch64

variable {n : Nat} {table : Table n} {core : Core n} {id : ProcId}

/-- What happens to one process. -/
structure Moves (old new : Process) : Prop where
  prio : new.prio = old.prio
  rests : old.state = .exited → new.state = .exited ∧ new.exitStatus = old.exitStatus

lemma Moves.refl (process : Process) : Moves process process := ⟨rfl, fun exited => ⟨exited, rfl⟩⟩

lemma Moves.trans {old between new : Process} (first : Moves old between)
    (second : Moves between new) : Moves old new where
  prio := second.prio.trans first.prio
  rests exited := by
    have stayed := first.rests exited
    have again := second.rests stayed.1
    exact ⟨again.1, again.2.trans stayed.2⟩

lemma Moves.living {old new : Process} (prio : new.prio = old.prio)
    (living : old.state ≠ .exited) : Moves old new := ⟨prio, fun exited => absurd exited living⟩

def Scheduled (before after : Table n) : Prop := ∀ slot, Option.Rel Moves (before slot) (after slot)

lemma Scheduled.refl (table : Table n) : Scheduled table table := by
  intro slot
  cases table slot with
  | none => exact .none
  | some process => exact .some (.refl process)

lemma Scheduled.trans {before middle after : Table n} (first : Scheduled before middle)
    (second : Scheduled middle after) : Scheduled before after := by
  intro slot
  have one := first slot
  have two := second slot
  generalize before slot = old, middle slot = between, after slot = new at one two
  cases one with
  | none =>
    cases two with
    | none => exact .none
  | some early =>
    cases two with
    | some late => exact .some (early.trans late)

lemma scheduled_modify (table : Table n) (id : ProcId) {change : Process → Process}
    (moves : ∀ slot : Fin n, slot.val = id → ∀ process, table slot = some process →
      Moves process (change process)) : Scheduled table (table.modify id change) := by
  intro slot
  rw [Table.modify]
  by_cases same : slot.val = id
  · rw [if_pos same]
    cases held : table slot with
    | none => exact .none
    | some process => exact .some (moves slot same process held)
  rw [if_neg same]
  exact Scheduled.refl table slot

lemma scheduled_setState {slot : Fin n} {old : State}
    (now : table.stateOf slot.val = some old) (living : old ≠ .exited) (state : State) :
    Scheduled table (table.setState slot state) := by
  apply scheduled_modify
  intro _ same _ held
  rw [Fin.ext same] at held
  rw [Table.stateOf_slot, held] at now
  refine Moves.living rfl ?_
  rw [Option.some.inj now]
  exact living

lemma scheduled_wake (table : Table n) (id : ProcId) : Scheduled table (table.wake id) := by
  apply scheduled_modify
  intro _ _ process _
  split
  · rename_i blocked
    refine Moves.living rfl ?_
    rw [blocked]
    exact nofun
  · exact .refl process

lemma scheduled_wakes (table : Table n) (woken : List ProcId) :
    Scheduled table (woken.foldl Table.wake table) := by
  induction woken generalizing table with
  | nil => exact .refl table
  | cons id _ ih => exact (scheduled_wake table id).trans (ih _)

lemma scheduled_checkDeadlines (table : Table n) (now : UInt64) :
    Scheduled table (table.checkDeadlines now) := by
  intro slot
  rw [Table.checkDeadlines]
  cases table slot with
  | none => exact .none
  | some process =>
    apply Option.Rel.some
    dsimp only
    split
    · rename_i late
      refine Moves.living rfl ?_
      simp only [Table.expired, decide_eq_true_eq] at late
      rw [late.1]
      exact nofun
    · exact .refl process

lemma scheduled_markExited (status : UInt64)
    (living : table.stateOf id ≠ some .exited) : Scheduled table (table.markExited id status) := by
  apply scheduled_modify
  intro _ same _ held
  refine Moves.living rfl ?_
  intro exited
  apply living
  rw [← same, Table.stateOf_slot, held, ← exited]
  rfl

lemma scheduled_switchOut {demoteTo : State} {result : Bool × Core n}
    (switched : core.switchOut demoteTo = .ok result) : Scheduled core.table result.2.table := by
  rw [Core.switchOut] at switched
  split at switched
  · cases switched
    exact .refl _
  rename_i current _
  split at switched
  · cases switched
  dsimp only at switched
  by_cases running : core.states current.val = some .running
  · rw [(Table.holds_iff core.table .running current).mpr running] at switched
    simp only [Bool.true_and, if_true, decide_eq_true_eq] at switched
    have first := scheduled_setState running (by simp) demoteTo
    have now : (core.table.setState current demoteTo).stateOf current.val = some demoteTo := by
      rw [stateOf_setState running, Function.update_self]
    split at switched
    · cases switched
      dsimp only
      split
      · rename_i yields
        rw [yields] at now
        exact first.trans (scheduled_setState (yields ▸ now) (by simp [yields]) .running)
      · exact first
    rename_i picked
    cases switched
    have runnable := view_runnable (pickNext_ready picked).2
    exact first.trans (scheduled_setState runnable (by simp) .running)
  rw [Bool.eq_false_iff.mpr ((Table.holds_iff core.table .running current).not.mpr
    running)] at switched
  split at switched
  · cases switched
    exact .refl _
  rename_i picked
  cases switched
  have runnable := view_runnable (pickNext_ready picked).2
  exact scheduled_setState runnable (by simp) .running

lemma scheduled_resched (core : Core n) : Scheduled core.table core.resched.table := by
  rw [Core.resched]
  split
  · exact .refl _
  rename_i switched
  exact scheduled_switchOut switched

lemma scheduled_blockCurrent (core : Core n) : Scheduled core.table core.blockCurrent.table := by
  rw [Core.blockCurrent]
  split
  · exact .refl _
  · rename_i switched
    exact scheduled_switchOut switched
  rename_i switched
  split
  · exact scheduled_switchOut switched
  · exact scheduled_switchOut switched

lemma scheduled_blockAt (core : Core n) (deadline : UInt64) :
    Scheduled core.table (core.blockAt deadline).table := by
  rw [Core.blockAt]
  split
  · exact .refl _
  split
  · exact .refl _
  rename_i current _ _
  have written : Scheduled core.table (core.table.setDeadline current deadline) := by
    apply scheduled_modify
    intro _ _ _ _
    exact ⟨rfl, fun exited => ⟨exited, rfl⟩⟩
  apply written.trans
  exact scheduled_blockCurrent { core with table := core.table.setDeadline current deadline }

lemma scheduled_leave (core : Core n) : Scheduled core.table core.leave.table := by
  rw [Core.leave]
  split
  · exact .refl _
  · rename_i switched
    exact scheduled_switchOut switched
  rename_i switched
  exact scheduled_switchOut switched

lemma scheduled_death (running : core.states id = some .running) (status : UInt64)
    (woken : List ProcId) :
    Scheduled core.table
      (({ core with table := core.table.markExited id status }.wakeAll woken).leave).table := by
  have marked : Scheduled core.table (core.table.markExited id status) := by
    apply scheduled_markExited
    rw [← Core.states, running]
    intro impossible
    cases impossible
  have woke := marked.trans (scheduled_wakes _ woken)
  apply woke.trans
  exact scheduled_leave ({ core with table := core.table.markExited id status }.wakeAll woken)

variable (core : Core n)

lemma scheduled_exitCurrent (status : UInt64) (woken : List ProcId) :
    Scheduled core.table (core.exitCurrent status woken).table := by
  rw [Core.exitCurrent]
  split
  · exact .refl _
  split
  · exact .refl _
  rename_i found
  have running := (Table.holds_iff _ _ _).mp (Table.position_test found)
  exact scheduled_death running status woken

lemma scheduled_fault (woken : List ProcId) : Scheduled core.table (core.fault woken).table := by
  rw [Core.fault]
  split
  · exact .refl _
  split
  · exact .refl _
  rename_i held
  split
  · rename_i running
    apply scheduled_death
    rw [Core.states, Table.stateOf_slot, held, ← running]
    rfl
  · exact .refl _

lemma scheduled_interrupt (woken : List ProcId) (tick : Option UInt64) :
    Scheduled core.table (core.interrupt woken tick).table := by
  have wakes : Scheduled core.table (core.wakeAll woken).table := scheduled_wakes core.table woken
  unfold Core.interrupt
  dsimp only
  split
  · exact wakes
  rename_i now
  have checked := wakes.trans (scheduled_checkDeadlines (core.wakeAll woken).table now)
  split
  · exact checked
  apply checked.trans
  exact scheduled_resched { core.wakeAll woken with
    table := (core.wakeAll woken).table.checkDeadlines now }

lemma scheduled_kill (pid : UInt64) (woken : List ProcId) :
    Scheduled core.table (core.kill pid woken).table := by
  rw [Core.kill, Table.sysKillMark]
  cases held : core.table.get pid.toNat with
  | none => exact .refl _
  | some process =>
    dsimp only
    by_cases alive : process.state ≠ .exited
    · rw [if_pos alive]
      have marked : Scheduled core.table (core.table.markExited pid.toNat Table.killStatus) := by
        apply scheduled_markExited
        rw [Table.stateOf, held]
        exact fun exited => alive (Option.some.inj exited)
      exact marked.trans (scheduled_wakes _ woken)
    rw [if_neg alive]
    exact .refl _

lemma scheduled_runAll : Scheduled core.table core.runAll.table := by
  rw [Core.runAll]
  split
  · exact .refl _
  rename_i found
  have runnable := (Table.holds_iff _ _ _).mp (Table.position_test found)
  exact scheduled_setState runnable nofun .running

end R9x.Verif.Scheduling
