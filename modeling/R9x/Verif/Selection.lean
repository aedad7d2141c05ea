import R9x.Lib.Cycle
import R9x.Aarch64.Scheduler

/-!
# Whom the scheduler selects

`pick_next` leaves the current process out, finds the most urgent level among the other Runnable
ones, and takes the first process of that level after the cursor.
-/

namespace R9x.Verif.Selection

open Lib Aarch64
open Table (holds)

variable {n : Nat}

/-! ## The pick -/

section

variable {slots : Fin n → State × Priority} {current next : Fin n} {cursor : Nat}

def levels (slots : Fin n → State × Priority) (current : Fin n) : List Priority :=
  ((List.finRange n).filter (ready slots current)).map fun slot => (slots slot).2

lemma mem_levels {level : Priority} :
    level ∈ levels slots current ↔ ∃ slot, ready slots current slot = true ∧
      (slots slot).2 = level := by
  simp [levels]

lemma pickNext_level {best : Priority} (least : (levels slots current).min? = some best) :
    pickNext slots current cursor = Cycle.firstAround current.pos cursor fun slot =>
      ready slots current slot && (slots slot).2 = best := by
  unfold levels at least
  unfold pickNext
  rw [least]
  rfl

lemma pickNext_none (missed : pickNext slots current cursor = none) (slot : Fin n) :
    ready slots current slot = false := by
  cases least : (levels slots current).min? with
  | none =>
    rw [List.min?_eq_none_iff] at least
    apply Bool.eq_false_iff.mpr
    intro could
    have member : (slots slot).2 ∈ levels slots current := mem_levels.mpr ⟨slot, could, rfl⟩
    rw [least] at member
    cases member
  | some best =>
    obtain ⟨member, -⟩ := List.min?_eq_some_iff.mp least
    obtain ⟨other, could, same⟩ := mem_levels.mp member
    have passes : (ready slots current other && decide ((slots other).2 = best)) = true := by
      rw [could, same]
      exact decide_eq_true rfl
    obtain ⟨_, search⟩ := Cycle.exists_firstAround current.pos cursor
      (fun slot => ready slots current slot && decide ((slots slot).2 = best)) passes
    rw [pickNext_level least, search] at missed
    cases missed

lemma pickNext_best (picked : pickNext slots current cursor = some next) :
    ready slots current next = true ∧ ∀ slot, ready slots current slot = true → (slots next).2 ≤
      (slots slot).2 := by
  cases least : (levels slots current).min? with
  | none =>
    rw [List.min?_eq_none_iff] at least
    have nobody : pickNext slots current cursor = none := by
      unfold levels at least
      unfold pickNext
      rw [least]
      rfl
    cases picked.symm.trans nobody
  | some =>
    obtain ⟨-, lower⟩ := List.min?_eq_some_iff.mp least
    rw [pickNext_level least] at picked
    have passed := Cycle.firstAround_test picked
    rw [Bool.and_eq_true, decide_eq_true_eq] at passed
    refine ⟨passed.1, fun slot could => ?_⟩
    rw [passed.2]
    exact lower _ (mem_levels.mpr ⟨slot, could, rfl⟩)

end

/-! ## What selection sees of a slot -/

section

/-- A process that has the core or could have it. -/
def isReady (process : Process) : Bool := process.state = .running || process.state = .runnable

/-- What selection sees of a slot over a switch: whether it is ready, and its level. -/
def face (slot : Option Process) : Option (Bool × Priority) :=
  slot.map fun process => (isReady process, process.prio.effective)

variable {table : Table n} {slot other current : Fin n} {process : Process} {state : State}

lemma setState_apply (table : Table n) (slot other : Fin n) (state : State) :
    (table.setState slot.val state) other =
      if other = slot then (table other).map fun process => { process with state }
        else table other := by
  rw [Table.setState, Table.modify]
  by_cases same : other = slot
  · rw [if_pos same, if_pos (congrArg Fin.val same)]
  · rw [if_neg same, if_neg fun equal => same (Fin.ext equal)]

lemma face_setState (held : table slot = some process) (was : isReady process = true)
    (kept : state = .running ∨ state = .runnable) : face ((table.setState slot.val state) other) =
    face (table other) := by
  rw [setState_apply]
  by_cases same : other = slot
  · subst same
    have still : isReady { process with state } = true := by
      rcases kept with rfl | rfl <;> rfl
    rw [if_pos rfl, held]
    change some (isReady { process with state }, _) = some (isReady process, _)
    rw [still, was]
  · rw [if_neg same]

lemma ready_of_holds (holds : holds .running (table slot) = true) :
    ∃ process, table slot = some process ∧ isReady process = true := by
  obtain ⟨process, held, running⟩ := (Option.any_eq_true _ _).mp holds
  refine ⟨process, held, ?_⟩
  rw [isReady, of_decide_eq_true running]
  rfl

lemma view_held (held : table slot = some process) :
    table.view slot = (process.state, process.prio.effective) := by
  rw [Table.view, held]

lemma ready_iff : ready table.view current slot = true ↔
    slot ≠ current ∧ ∃ process, table slot = some process ∧ process.state = .runnable := by
  rw [ready, Bool.and_eq_true, decide_eq_true_eq, decide_eq_true_eq]
  apply and_congr_right'
  cases held : table slot with
  | none =>
    rw [Table.view, held]
    constructor
    · intro exited
      cases exited
    · intro holds
      obtain ⟨_, found, _⟩ := holds
      cases found
  | some process =>
    rw [view_held held]
    constructor
    · intro runnable
      exact ⟨process, rfl, runnable⟩
    · intro holds
      obtain ⟨_, found, runnable⟩ := holds
      cases found
      exact runnable

lemma face_ready {level : Priority} (seen : face (table slot) = some (true, level)) :
    ∃ process, table slot = some process ∧ isReady process = true ∧ process.prio.effective =
      level := by
  obtain ⟨process, held, same⟩ := Option.map_eq_some_iff.mp seen
  exact ⟨process, held, congrArg Prod.fst same, congrArg Prod.snd same⟩

lemma face_picked {cursor : Nat} {next : Fin n} (picked : pickNext table.view current cursor =
    some next) :
    face ((table.setState next.val .running) slot) = face (table slot) := by
  obtain ⟨-, chosen, found, runnable⟩ := ready_iff.mp (pickNext_best picked).1
  have could : isReady chosen = true := by
    rw [isReady, runnable]
    rfl
  exact face_setState found could (.inl rfl)

lemma face_resched (core : Core n) (slot : Fin n) : face (core.resched.table slot) = face
    (core.table slot) := by
  cases on : core.tpidr with
  | none => rw [Core.resched, Core.switchOut, on]
  | some current =>
    rw [Core.resched]
    simp only [Core.switchOut, on]
    cases missing : (core.table current).isNone with
    | true => rfl
    | false =>
      by_cases holds : holds .running (core.table current) = true
      · obtain ⟨process, held, could⟩ := ready_of_holds holds
        have demoted : ∀ slot, face ((core.table.setState current.val .runnable) slot) =
          face (core.table slot) :=
          fun slot => face_setState held could (.inr rfl)
        have waiting : (core.table.setState current.val .runnable) current =
            some { process with state := .runnable } := by
          rw [setState_apply, if_pos rfl, held]
          rfl
        simp only [holds, if_true]
        cases picked : pickNext (core.table.setState current.val .runnable).view current
          core.cursor with
        | none => exact (face_setState waiting rfl (.inl rfl)).trans (demoted slot)
        | some => exact (face_picked picked).trans (demoted slot)
      simp only [holds, Bool.false_eq_true, if_false, Bool.false_and]
      cases picked : pickNext core.table.view current core.cursor with
      | none => rfl
      | some => exact face_picked picked

end

/-! ## Ticks -/

/-- `irq_resched` at a tick. -/
def irqResched (core : Core n) (now : UInt64) : Core n := core.interrupt [] (some now)

variable {core : Core n} {now : UInt64} {table after : Table n} {slot current next : Fin n}

/-- The process of a slot is at least as urgent as every ready one. -/
def Best (table : Table n) (slot : Fin n) : Prop :=
  ∃ process, table slot = some process ∧ ∀ other process', table other = some process' →
    isReady process' = true → process.prio.effective ≤ process'.prio.effective

/-- What a tick is meant to do. -/
structure TickRight (core : Core n) (now : UInt64) : Prop where
  best : ∀ level slot, (irqResched core now).mode = .process level → (irqResched core now).tpidr =
    some slot →
    Best (irqResched core now).table slot
  kept : ∀ level slot current process process', (irqResched core now).mode = .process level →
    (irqResched core now).tpidr = some slot → (irqResched core now).table slot = some process' →
    core.tpidr = some current → core.table current = some process → isReady process = true →
    process'.prio.effective ≤ process.prio.effective

/-- A slot that could be returned to: another one that is Runnable, or the interrupted one if there
is no other. -/
def Offered (table : Table n) (current slot : Fin n) : Prop :=
  (slot ≠ current ∧ holds .runnable (table slot) = true) ∨
    slot = current ∧ ∀ other, other ≠ current → holds .runnable (table other) = false

/-- Once the expired deadlines are woken, a most urgent ready process is another one than the
interrupted one and Runnable, or it is the interrupted one and no other is Runnable. -/
def TickMeets (core : Core n) (now : UInt64) : Prop :=
  ∀ current, core.tpidr = some current → (core.table current).isSome = true →
    ∃ slot, Offered (core.table.checkDeadlines now) current slot ∧
      Best (core.table.checkDeadlines now) slot

lemma best_congr (same : ∀ slot, face (after slot) = face (table slot)) (best : Best table slot) :
    Best after slot := by
  obtain ⟨process, held, lower⟩ := best
  have seen := same slot
  rw [held] at seen
  obtain ⟨process', held', equal⟩ := Option.map_eq_some_iff.mp seen
  refine ⟨process', held', ?_⟩
  intro other rival found could
  have looks := same other
  rw [found] at looks
  obtain ⟨old, there, equal'⟩ := Option.map_eq_some_iff.mp looks.symm
  have wasReady : isReady old = true := (congrArg Prod.fst equal').trans could
  have order := lower other old there wasReady
  rw [show old.prio.effective = rival.prio.effective from congrArg Prod.snd equal'] at order
  rw [show process'.prio.effective = process.prio.effective from congrArg Prod.snd equal]
  exact order

lemma demoted_other (apart : slot ≠ current) :
    (if holds .running (table current) then table.setState current.val .runnable else table) slot =
      table slot := by
  split
  · rw [setState_apply, if_neg apart]
  · rfl

/-- The slot that `resched` returns to is offered, and is best if one that is offered is. -/
lemma resched_offers (on : core.tpidr = some current) (present : (core.table current).isSome = true)
    {level : Execution} (executing : core.mode = .process level) :
    ∃ slot level', core.resched.tpidr = some slot ∧ core.resched.mode = .process level' ∧
      Offered core.table current slot ∧
      ∀ other, Offered core.table current other → Best core.table other → Best core.table slot := by
  have missing : (core.table current).isNone = false := by
    cases held : core.table current with
    | none => rw [held] at present; cases present
    | some => rfl
  let demoted : Table n :=
    if holds .running (core.table current) then core.table.setState current.val .runnable
      else core.table
  have left : (if holds .running (core.table current) = true then
      core.table.setState current.val .runnable else core.table) = demoted := rfl
  have others : ∀ slot, slot ≠ current → demoted slot = core.table slot :=
    fun slot apart => demoted_other apart
  rw [Core.resched]
  simp only [Core.switchOut, on, missing, Bool.false_eq_true, if_false, left]
  cases picked : pickNext demoted.view current core.cursor with
  | none =>
    have alone : ∀ other, other ≠ current → holds .runnable (core.table other) = false := by
      intro other apart
      apply Bool.eq_false_iff.mpr
      intro holds
      obtain ⟨process, held, runnable⟩ := (Option.any_eq_true _ _).mp holds
      have could : ready demoted.view current other = true :=
        ready_iff.mpr ⟨apart, process, (others other apart).trans held, of_decide_eq_true runnable⟩
      exact Bool.false_ne_true ((pickNext_none picked other).symm.trans could)
    refine ⟨current, level, rfl, executing, .inr ⟨rfl, alone⟩, ?_⟩
    rintro other (⟨apart, holds⟩ | ⟨rfl, -⟩) best
    · exact absurd holds (Bool.eq_false_iff.mp (alone other apart))
    · exact best
  | some next =>
    obtain ⟨could, lower⟩ := pickNext_best picked
    obtain ⟨apart, process, found, runnable⟩ := ready_iff.mp could
    rw [others next apart] at found
    have waits : holds .runnable (core.table next) = true := by
      rw [found]
      exact decide_eq_true runnable
    refine ⟨next, core.resume next, rfl, rfl, .inl ⟨apart, waits⟩, ?_⟩
    rintro slot (⟨different, holds⟩ | ⟨-, nobody⟩) ⟨rival, held, best⟩
    · rw [held] at holds
      have order := lower slot (ready_iff.mpr ⟨different, rival, (others slot different).trans held,
        of_decide_eq_true holds⟩)
      rw [view_held ((others slot different).trans held),
        view_held ((others next apart).trans found)] at order
      exact ⟨process, found, fun other process' here could =>
        UInt8.le_trans order (best other process' here could)⟩
    · exact absurd waits (Bool.eq_false_iff.mp (nobody next apart))

lemma tickRight_kernel (idle : core.tpidr = none) : TickRight core now := by
  have after : (irqResched core now).tpidr = none := by
    have nobody : (core.wakeAll []).tpidr = none := idle
    unfold irqResched Core.interrupt
    simp only [nobody]
  refine ⟨?_, ?_⟩
  · intro _ _ _ returned
    cases after.symm.trans returned
  · intro _ _ _ _ _ _ returned
    cases after.symm.trans returned

/-- For every table and every tick: a tick in kernel context returns to no process, and a tick that
interrupts a process returns to a most urgent ready one, and so not to a less urgent one than the
interrupted one, if and only if a most urgent one is offered. -/
theorem tick_right_iff (core : Core n) (now : UInt64) : (core.tpidr = none → TickRight core now) ∧
    ∀ level, core.mode = .process level → (TickRight core now ↔ TickMeets core now) := by
  refine ⟨tickRight_kernel, fun level executing => ?_⟩
  cases on : core.tpidr with
  | none =>
    exact ⟨fun _ current contrary => (by cases on.symm.trans contrary), fun _ =>
      tickRight_kernel on⟩
  | some current =>
    let checked : Core n := { core with table := core.table.checkDeadlines now }
    have performed : irqResched core now = checked.resched := by
      have running : (core.wakeAll []).tpidr = some current := on
      unfold irqResched Core.interrupt
      simp only [running]
      rw [← on]
      rfl
    have seen : ∀ slot, face ((irqResched core now).table slot) = face (checked.table slot) := by
      rw [performed]
      exact face_resched checked
    cases held : core.table current with
    | none =>
      have gone : checked.table current = none := by
        change (core.table current).map _ = none
        rw [held]
        rfl
      have halted : (irqResched core now).mode = .halted .notInTable := by
        rw [performed, Core.resched, Core.switchOut, show checked.tpidr = some current from on]
        dsimp only
        rw [gone]
        rfl
      refine ⟨fun _ current' same present => ?_, fun _ => ⟨?_, ?_⟩⟩
      · cases on.symm.trans same
        rw [held] at present
        cases present
      · exact fun level slot mode => by cases halted.symm.trans mode
      · exact fun level slot current process process' mode => by cases halted.symm.trans mode
    | some process =>
      obtain ⟨woken, awake, stillReady, samePrio⟩ : ∃ woken, checked.table current = some woken ∧
          (isReady process = true → isReady woken = true) ∧ woken.prio = process.prio := by
        change ∃ woken, (core.table current).map _ = some woken ∧ _
        rw [held, Option.map_some]
        refine ⟨_, rfl, ?_, ?_⟩
        · intro could
          split
          · rfl
          · exact could
        · split <;> rfl
      have present : (checked.table current).isSome = true := by
        rw [awake]
        rfl
      -- the second half of what a tick is meant to do follows from the first
      have right_of_best : (∀ level slot, (irqResched core now).mode = .process level →
          (irqResched core now).tpidr = some slot → Best (irqResched core now).table slot) →
          TickRight core now := by
        intro best
        refine ⟨best, ?_⟩
        intro level slot _ _ process' mode returned found same there could
        cases on.symm.trans same
        cases held.symm.trans there
        obtain ⟨chosen, found', lower⟩ :=
          best_congr (fun slot => (seen slot).symm) (best level slot mode returned)
        have order := lower current woken awake (stillReady could)
        have looks := seen slot
        rw [found, found'] at looks
        have equal := congrArg Prod.snd (Option.some.inj looks)
        rw [samePrio] at order
        change process'.prio.effective = chosen.prio.effective at equal
        rw [equal]
        exact order
      obtain ⟨slot, level', returns, mode, offered, picks⟩ :=
        resched_offers (show checked.tpidr = some current from on) present executing
      constructor
      · intro right _ same _
        cases on.symm.trans same
        refine ⟨slot, offered, best_congr (fun slot => (seen slot).symm) ?_⟩
        exact right.best level' slot (by rw [performed, mode]) (by rw [performed, returns])
      · intro meets
        obtain ⟨other, offer, best⟩ := meets current on (by rw [held]; rfl)
        apply right_of_best
        intro level'' _ _ returned
        rw [performed, returns] at returned
        cases returned
        exact best_congr seen (picks other offer best)

def twoLevels (first second : Priority) : Core 2 where
  table slot :=
  some (if slot = 0 then { Table.newProcess first with state := .running }
    else Table.newProcess second)
  tpidr := some 0
  cursor := 0
  mode := .process .el0
  resume _ := .el0

/-- A tick that interrupts a process next to an equally urgent one is right. -/
theorem tick_right_iff_equals : (twoLevels 128 128).mode = .process .el0 ∧ TickRight
    (twoLevels 128 128) 0 := by
  refine ⟨rfl, ((tick_right_iff (twoLevels 128 128) 0).2 .el0 rfl).mpr ?_⟩
  intro _ on _
  cases on
  have level : ∀ other, ((twoLevels 128 128).table.checkDeadlines 0 other).map
      (fun process => process.prio.effective) = some 128 := by decide
  refine ⟨1, .inl ⟨by decide, by decide⟩, Table.newProcess 128, rfl, ?_⟩
  intro other process held _
  have same := level other
  rw [held] at same
  rw [show process.prio.effective = 128 from Option.some.inj same]
  decide

/-- A tick replaces a process at level 10 by one at level 200. -/
theorem tick_replaces_urgent :
    (irqResched (twoLevels 10 200) 0).tpidr = some 1 ∧ ¬ TickRight (twoLevels 10 200) 0 := by
  refine ⟨by decide, fun right => ?_⟩
  have order := right.kept .el0 1 0 _ _ rfl rfl rfl rfl rfl rfl
  exact absurd order (by decide)

end R9x.Verif.Selection
