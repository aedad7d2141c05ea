import R9x.R9xStd.Calls
import R9x.Verif.Dispatch
import R9x.Verif.Scheduling

/-!
# Who is reaped, and when

A process is a slot of the table together with how often the slot has been claimed.
-/

namespace R9x.Verif.Reaping

open Lib Port.Ipc Aarch64 Aarch64.Trap R9xStd Scheduling
open Table (waitTimeout waitBadId isFree holds sysWaitSlot)
open UInt64 (ofNat)
open Function (update update_self update_of_ne)
open List (mem_map mem_append finRange)
open Prod (snd)
open Dispatch (claimed)

/-! ## The books of a run -/

/-- A process: its slot, and how often the slot had been claimed with it. -/
abbrev Identity (n : Nat) := Fin n × Nat

/-- What happens: anything on the core, and the two waits of a process. -/
inductive Event where
  | kernel (event : Dispatch.Event)
  | processWait (id deadline : UInt64)
  | waitAny (deadline : UInt64)
  deriving DecidableEq

def Event.onCore : Event → Dispatch.Event
  | .kernel event => event
  | .processWait id _ => .wait id
  | .waitAny _ => .wait 0

/-- One call of `sys_wait`. -/
structure Call (n : Nat) where
  asked : Option (UInt64 × Except WaitError UInt64)
  answer : UInt64 × UInt64
  freed : Option (Identity n)

section

variable {n : Nat}

/-- A wait for a process reaps that process, or reports an error and reaps none. -/
def Call.Named (call : Call n) : Prop :=
  ∀ id result, call.asked = some (id, result) →
    match result with
    | .ok _ => ∃ identity, call.freed = some identity ∧ identity.1.val = id.toNat
    | .error _ => call.freed = none

/-- The kernel of the waits: `sys_wait` on the process table. -/
def tableHandlers : Handlers (Table n) :=
  { (default : Handlers (Table n)) with sysWait := fun child _ table => some (table.sysWait child) }

/-- The core, what a run records about it, and the books. -/
structure Books (n : Nat) where
  machine : Dispatch.Machine n
  exits : List (Identity n × UInt64)
  calls : List (Call n)

namespace Books

/-- The processes by slot. -/
abbrev table (books : Books n) : Table n := books.machine.core.table

/-- The processes that have been reaped. -/
def reaped (books : Books n) : List (Identity n) := books.calls.filterMap Call.freed

/-- The processes that have exited. -/
def exited (books : Books n) : List (Identity n) := books.exits.map Prod.fst

end Books

/-- The processes an event marks, with their status. -/
def marks (before after : Dispatch.Machine n) : List (Identity n × UInt64) :=
  ((finRange n).filter (Dispatch.marked before.core after.core)).filterMap fun slot =>
    (after.core.table slot).map fun process => ((slot, after.generation slot), process.exitStatus)

/-- The process whose slot an event empties. -/
def freed (before after : Dispatch.Machine n) : Option (Identity n) :=
  ((finRange n).find? fun slot =>
    (before.core.table slot).isSome && (after.core.table slot).isNone).map fun slot =>
      (slot, before.generation slot)

/-- What an event adds to the calls. -/
def Event.calls (event : Event) (before after : Dispatch.Machine n) : List (Call n) :=
  match event with
  | .kernel (.wait child) => [⟨none, (before.core.table.sysWait child).1, freed before after⟩]
  | .kernel _ => []
  | .processWait id deadline =>
    [⟨(R9xStd.processWait tableHandlers id deadline before.core.table).map fun (result, _) =>
        (id, result),
      (before.core.table.sysWait id).1, freed before after⟩]
  | .waitAny _ => [⟨none, (before.core.table.sysWait 0).1, freed before after⟩]

/-- One event. -/
def step (books : Books n) (event : Event) : Option (Books n) :=
  (Dispatch.step books.machine event.onCore).map fun machine =>
    { machine
      exits := books.exits ++ marks books.machine machine
      calls := books.calls ++ event.calls books.machine machine }

/-- The kernel before anything has been spawned. -/
def boot : Books n := ⟨Dispatch.boot, [], []⟩

/-- Every process exits once; every wait that reaped returned the id and the status of a process
that had exited, and every other one an error; no process is reaped twice; one that has exited and
not been reaped is in its slot with its status; and a `ProcessId::wait` reaps the process it was
called on, or reports an error. -/
structure Accounted (books : Books n) : Prop where
  once : books.exited.Nodup
  honest : ∀ call ∈ books.calls, ∀ identity, call.freed = some identity →
    ∃ status, (identity, status) ∈ books.exits ∧ call.answer = (ofNat identity.1.val, status)
  refused : ∀ call ∈ books.calls, call.freed = none →
    call.answer = (waitTimeout, 0) ∨ call.answer = (waitBadId, 0)
  unique : books.reaped.Nodup
  kept : ∀ identity status, (identity, status) ∈ books.exits → identity ∉ books.reaped →
    books.machine.generation identity.1 = identity.2 ∧
    ∃ process, books.table identity.1 = some process ∧ process.state = .exited ∧
      process.exitStatus = status
  named : ∀ call ∈ books.calls, call.Named

/-- A spawn finds an empty slot before an Exited one, and a `ProcessId::wait` on process 0 finds no
other Exited process first. -/
def Guarded (books : Books n) : Event → Prop
  | .kernel (.spawn _) =>
    (books.table.position isFree).all fun slot => (books.table slot).isNone
  | .kernel .install =>
    (books.table.position isFree).all fun slot => (books.table slot).isNone
  | .processWait id _ =>
    id = 0 → (books.table.position (holds .exited)).all fun slot => slot.val = 0
  | _ => True

instance (books : Books n) : (event : Event) → Decidable (Guarded books event)
  | .kernel event => by
    cases event with
    | spawn | install => exact inferInstanceAs (Decidable (_ = true))
    | _ => exact .isTrue trivial
  | .processWait _ _ => inferInstanceAs (Decidable (_ → _))
  | .waitAny _ => .isTrue trivial

end

/-! ## Processes that rest -/

section

variable {n : Nat}

def Rests (old new : Process) : Prop :=
  old.state = .exited → new.state = .exited ∧ new.exitStatus = old.exitStatus

def Resting (before after : Table n) : Prop := ∀ slot, Option.Rel Rests (before slot) (after slot)

variable {before after : Table n}

lemma resting_of_scheduled (scheduled : Scheduled before after) : Resting before after := by
  intro slot
  have moved := scheduled slot
  generalize before slot = old, after slot = new at moved
  cases moved with
  | none => exact .none
  | some moves => exact .some moves.rests

lemma resting_modify (table : Table n) (id : ProcId) {change : Process → Process}
    (keeps : ∀ process, (change process).state = process.state ∧
      (change process).exitStatus = process.exitStatus) :
    Resting table (table.modify id change) := by
  intro slot
  rw [Table.modify]
  have rests : ∀ process, Rests process (change process) := by
    intro process exited
    rw [(keeps process).1]
    exact ⟨exited, (keeps process).2⟩
  split
  · cases table slot with
    | none => exact .none
    | some process => exact .some (rests process)
  cases table slot with
  | none => exact .none
  | some => exact .some fun exited => ⟨exited, rfl⟩

lemma resting_sysSetprio (table : Table n) (tpidr : Option (Fin n)) (target prio : UInt64) :
    Resting table (table.sysSetprio tpidr target prio).2 := by
  have same : Resting table table := resting_of_scheduled (.refl table)
  unfold Table.sysSetprio
  split
  · exact same
  dsimp only
  split
  · exact same
  split
  · exact resting_modify table _ fun _ => ⟨rfl, rfl⟩
  · exact same

def Quiet : Dispatch.Event → Prop
  | .spawn _ => False
  | .install => False
  | .wait _ => False
  | _ => True

lemma resting_perform (core : Core n) {event : Dispatch.Event} (quiet : Quiet event) :
    Resting core.table (event.perform core).table := by
  cases event with
  | yield => exact resting_of_scheduled (scheduled_resched core)
  | interrupt woken tick => exact resting_of_scheduled (scheduled_interrupt core woken tick)
  | wake id => exact resting_of_scheduled (scheduled_wakes core.table [id])
  | boost id | unboost id | setPriority id => exact resting_modify core.table id fun _ => ⟨rfl, rfl⟩
  | block deadline =>
    cases deadline with
    | none => exact resting_of_scheduled (scheduled_blockCurrent core)
    | some deadline => exact resting_of_scheduled (scheduled_blockAt core deadline)
  | eret => exact resting_of_scheduled (.refl core.table)
  | spawn | wait | install => exact quiet.elim
  | setprio target prio => exact resting_sysSetprio core.table core.tpidr target prio
  | kill pid woken => exact resting_of_scheduled (scheduled_kill core pid woken)
  | exit status woken => exact resting_of_scheduled (scheduled_exitCurrent core status woken)
  | fault woken => exact resting_of_scheduled (scheduled_fault core woken)
  | runAll => exact resting_of_scheduled (scheduled_runAll core)

lemma Resting.trans {middle : Table n} (first : Resting before middle)
    (second : Resting middle after) :
    Resting before after := by
  intro slot
  have one := first slot
  have two := second slot
  generalize before slot = old, middle slot = between at one two
  cases one with
  | none => exact two
  | some early =>
    generalize after slot = new at two
    cases two with
    | some late =>
      exact .some fun exited => (late (early exited).1).imp_right (·.trans (early exited).2)

/-- Between spawns and waits nobody enters or leaves the table, and whoever is woken, killed or put
on the core, an Exited process stays Exited with its status. -/
theorem quiet_rests (start : Dispatch.Machine n) (events : List {event // Quiet event}) :
    Throughout (fun machine event => Dispatch.step machine event.1)
      (fun machine => Resting start.core.table machine.core.table) start events := by
  refine throughout_of_invariant (fun machine event next rested taken => ?_)
    (fun _ rested => rested) ?_ events
  · rw [Dispatch.step, Option.ite_none_right_eq_some] at taken
    cases taken.2
    exact rested.trans (resting_perform machine.core event.2)
  · exact resting_of_scheduled (.refl _)

/-- What an event does to a slot: the process in it goes on, a new one claims it when it is empty,
or it is emptied of an Exited one. -/
inductive Fate : Option Process → Option Process → Prop
  | empty : Fate none none
  | goes {old new : Process} (rests : Rests old new) : Fate (some old) (some new)
  | claimed {new : Process} (alive : new.state ≠ .exited) : Fate none (some new)
  | reaped {old : Process} (exited : old.state = .exited) : Fate (some old) none

lemma Fate.refl (slot : Option Process) : Fate slot slot := by
  cases slot with
  | none => exact .empty
  | some => exact .goes fun exited => ⟨exited, rfl⟩

lemma Resting.fate (resting : Resting before after) (slot : Fin n) :
    Fate (before slot) (after slot) := by
  have rests := resting slot
  generalize before slot = old, after slot = new at rests
  cases rests with
  | none => exact .empty
  | some rests => exact .goes rests

end

/-! ## The invariant -/

section

variable {n : Nat}

/-- What every state of a guarded run has. -/
structure Kept (books : Books n) : Prop where
  accounted : Accounted books
  graves : ∀ slot process, books.table slot = some process → process.state = .exited →
    ((slot, books.machine.generation slot), process.exitStatus) ∈ books.exits ∧
      (slot, books.machine.generation slot) ∉ books.reaped
  living : ∀ slot process, books.table slot = some process → process.state ≠ .exited →
    (slot, books.machine.generation slot) ∉ books.exited
  past : ∀ identity ∈ books.exited, identity.2 ≤ books.machine.generation identity.1

variable {identity : Identity n} {books : Books n} {after : Core n} {machine : Dispatch.Machine n}
  {process : Process} {slot : Fin n}

lemma Accounted.exited_of_reaped (accounted : Accounted books)
    (reaped : identity ∈ books.reaped) : identity ∈ books.exited := by
  obtain ⟨call, made, freed⟩ := List.mem_filterMap.mp reaped
  obtain ⟨status, listed, -⟩ := accounted.honest call made identity freed
  exact mem_map.mpr ⟨(identity, status), listed, rfl⟩

lemma marks_nodup (before after : Dispatch.Machine n) :
    ((marks before after).map Prod.fst).Nodup := by
  rw [marks, List.map_filterMap]
  apply List.Nodup.filterMap
  · intro _ _ _ first second
    simp only [Option.map_map, Option.mem_def, Option.map_eq_some_iff,
      Function.comp_apply] at first second
    obtain ⟨_, -, rfl⟩ := first
    obtain ⟨_, -, same⟩ := second
    exact (Prod.mk.inj same).1.symm
  · exact (List.nodup_finRange n).filter _

section

variable (fates : ∀ slot, Fate (machine.core.table slot) (after.table slot))
include fates

lemma generation_observe (slot : Fin n) : (machine.observe after).generation slot =
    machine.generation slot +
    if (machine.core.table slot).isNone && (after.table slot).isSome then 1 else 0 := by
  change _ + (if claimed machine.core after slot then 1 else 0) = _
  have fate := fates slot
  unfold claimed
  generalize machine.core.table slot = old, after.table slot = new at fate ⊢
  cases fate with
  | goes rests =>
    rename_i one _
    by_cases exited : one.state = .exited
    · have still := (rests exited).1
      simp [isFree, holds, still]
    · simp [isFree, holds, exited]
  | claimed alive => simp [isFree, holds, alive]
  | empty | reaped => simp [isFree]

lemma mem_marks {status : UInt64} : (identity, status) ∈ marks machine (machine.observe after) ↔
    identity.2 = machine.generation identity.1 ∧ ∃ old new, machine.core.table identity.1 =
      some old ∧
      old.state ≠ .exited ∧ after.table identity.1 = some new ∧ new.state = .exited ∧
      new.exitStatus = status := by
  obtain ⟨slot, generation⟩ := identity
  have listed : ((slot, generation), status) ∈ marks machine (machine.observe after) ↔
      Dispatch.marked machine.core after slot = true ∧ generation =
        (machine.observe after).generation slot ∧
        ∃ process, after.table slot = some process ∧ process.exitStatus = status := by
    simp only [marks, List.mem_filterMap, List.mem_filter, List.mem_finRange, true_and,
      Option.map_eq_some_iff, Prod.mk.injEq]
    constructor
    · rintro ⟨_, marked, process, held, ⟨rfl, rfl⟩, rfl⟩
      exact ⟨marked, rfl, process, held, rfl⟩
    · rintro ⟨marked, rfl, process, held, rfl⟩
      exact ⟨slot, marked, process, held, ⟨rfl, rfl⟩, rfl⟩
  rw [listed, generation_observe fates, Dispatch.marked]
  have fate := fates slot
  generalize machine.core.table slot = old, after.table slot = new at fate ⊢
  cases fate with
  | goes => simp [holds, and_assoc, and_left_comm]
  | claimed alive => simp [holds, alive]
  | empty | reaped => simp

end

/-- An event that does to every slot one of these keeps the books, if the calls are those before it
and one that reaped what the event emptied. -/
lemma Kept.turn (kept : Kept books) {calls : List (Call n)}
    (fates : ∀ slot, Fate (books.machine.core.table slot) (after.table slot))
    (honest : ∀ call ∈ calls, ∀ identity, call.freed = some identity →
      ∃ status, (identity, status) ∈ books.exits ∧ call.answer = (ofNat identity.1.val, status))
    (refused : ∀ call ∈ calls, call.freed = none →
      call.answer = (waitTimeout, 0) ∨ call.answer = (waitBadId, 0))
    (unique : (calls.filterMap Call.freed).Nodup) (named : ∀ call ∈ calls, call.Named)
    (reaped : ∀ identity, identity ∈ calls.filterMap Call.freed ↔ identity ∈ books.reaped ∨
      identity.2 = books.machine.generation identity.1 ∧ books.table identity.1 ≠ none ∧
        after.table identity.1 = none) :
    Kept ⟨books.machine.observe after, books.exits ++ marks books.machine
      (books.machine.observe after), calls⟩ := by
  have generation := generation_observe fates
  refine ⟨⟨?_, ?_, refused, unique, ?_, named⟩, ?_, ?_, ?_⟩
  · rw [Books.exited, List.map_append, List.nodup_append]
    refine ⟨kept.accounted.once, marks_nodup _ _, fun one early other late same => ?_⟩
    obtain ⟨⟨identity, _⟩, listed, rfl⟩ := mem_map.mp late
    obtain ⟨current, old, -, held, living, -⟩ := (mem_marks fates).mp listed
    have unlisted := kept.living identity.1 old held living
    rw [← current] at unlisted
    rw [same] at early
    exact unlisted early
  · intro call made identity freed
    obtain ⟨status, listed, answer⟩ := honest call made identity freed
    exact ⟨status, List.mem_append_left _ listed, answer⟩
  · intro identity status listed left
    obtain ⟨early, stays⟩ := not_or.mp fun either => left ((reaped identity).mpr either)
    rw [generation]
    rcases mem_append.mp listed with old | new
    · obtain ⟨current, process, held, exited, recorded⟩ :=
        kept.accounted.kept identity status old early
      change books.machine.core.table identity.1 = some process at held
      have fate := fates identity.1
      rw [held] at fate ⊢
      cases there : after.table identity.1 with
      | none => exact absurd ⟨current.symm, by simp [held], there⟩ stays
      | some new =>
        rw [there] at fate
        cases fate with
        | goes rests =>
          exact ⟨current, new, there, (rests exited).1, (rests exited).2.trans recorded⟩
    obtain ⟨current, _, new, held, -, there, exited, recorded⟩ := (mem_marks fates).mp new
    rw [held]
    exact ⟨current.symm, new, there, exited, recorded⟩
  · intro slot new held exited
    change after.table slot = some new at held
    have fate := fates slot
    rw [generation]
    rw [held] at fate ⊢
    generalize there : books.machine.core.table slot = found at fate
    cases fate with
    | claimed alive => exact absurd exited alive
    | goes rests =>
      rename_i old
      have unreaped : (slot, books.machine.generation slot) ∉ books.reaped →
          (slot, books.machine.generation slot) ∉ calls.filterMap Call.freed := by
        intro left late
        have gone := ((reaped _).mp late).resolve_left left
        simp [held] at gone
      by_cases dead : old.state = .exited
      · obtain ⟨listed, left⟩ := kept.graves slot old there dead
        rw [(rests dead).2]
        exact ⟨List.mem_append_left _ listed, unreaped left⟩
      have unlisted := kept.living slot old there dead
      refine ⟨List.mem_append_right _ ((mem_marks fates).mpr ⟨rfl, old, new, there, dead, held,
        exited, rfl⟩),
        unreaped fun early => unlisted (kept.accounted.exited_of_reaped early)⟩
  · intro slot new held living listed
    change after.table slot = some new at held
    obtain ⟨⟨_, _⟩, either, same⟩ := mem_map.mp listed
    rw [generation] at same
    subst same
    have fate := fates slot
    rw [held] at fate either
    generalize there : books.machine.core.table slot = found at fate either
    rcases mem_append.mp either with early | late
    · cases fate with
      | claimed => exact absurd (kept.past _ (mem_map.mpr ⟨_, early, rfl⟩)) (Nat.not_succ_le_self _)
      | goes rests =>
        have alive := fun exited => living (rests exited).1
        exact kept.living slot _ there alive (mem_map.mpr ⟨_, early, rfl⟩)
    obtain ⟨-, -, _, -, -, held', exited, -⟩ := (mem_marks fates).mp late
    cases held.symm.trans held'
    exact living exited
  · intro _ listed
    obtain ⟨⟨_, _⟩, either, rfl⟩ := mem_map.mp listed
    apply Nat.le_add_right_of_le
    rcases mem_append.mp either with early | late
    · exact kept.past _ (mem_map.mpr ⟨_, early, rfl⟩)
    · exact ((mem_marks fates).mp late).1.le

def Books.marked (books : Books n) (after : Core n) : Books n where
  machine :=
  books.machine.observe after
  exits := books.exits ++ marks books.machine (books.machine.observe after)
  calls := books.calls

/-- An event that empties no slot keeps the books. -/
lemma Kept.marked (kept : Kept books) (fates : ∀ slot, Fate (books.table slot) (after.table slot))
    (stays : ∀ slot, books.table slot ≠ none → after.table slot ≠ none) :
    Kept (books.marked after) := by
  apply kept.turn fates kept.accounted.honest kept.accounted.refused kept.accounted.unique
    kept.accounted.named
  intro _
  exact ⟨.inl, fun either => either.resolve_right fun gone => stays _ gone.2.1 gone.2.2⟩

lemma Kept.rested (kept : Kept books) (resting : Resting books.table after.table) :
    Kept (books.marked after) := by
  refine kept.marked resting.fate fun slot held gone => ?_
  have rests := resting slot
  rw [gone] at rests
  generalize there : books.table slot = old at rests held
  cases rests
  exact held rfl

/-- A new process in an empty slot keeps the books. -/
lemma Kept.claimed (kept : Kept books) (vacant : books.table slot = none)
    (alive : process.state ≠ .exited)
    (table : after.table = update books.table slot (some process)) :
    Kept (books.marked after) := by
  refine kept.marked (fun other => ?_) fun other held => ?_
  · rw [table]
    by_cases same : other = slot
    · rw [same, update_self, vacant]
      exact .claimed alive
    rw [update_of_ne same]
    exact .refl _
  · have different : other ≠ slot := by
      rintro rfl
      exact held vacant
    rwa [table, update_of_ne different]

/-! ## Waiting -/

def Books.waited (books : Books n) (after : Core n) (call : Call n) : Books n where
  machine :=
  books.machine.observe after
  exits := books.exits ++ marks books.machine (books.machine.observe after)
  calls := books.calls ++ [call]

lemma freed_same (table : after.table = machine.core.table) :
    freed machine (machine.observe after) = none := by
  rw [freed, List.find?_eq_none.mpr]
  · rfl
  · intro slot _
    change ¬ ((machine.core.table slot).isSome && (after.table slot).isNone) = true
    rw [table]
    cases machine.core.table slot <;> simp

lemma freed_emptied (held : machine.core.table slot = some process)
    (table : after.table = update machine.core.table slot none) :
    freed machine (machine.observe after) = some (slot, machine.generation slot) := by
  have only : ∀ other, ((machine.core.table other).isSome && (after.table other).isNone) = true ↔
      other = slot := by
    intro other
    rw [table]
    by_cases same : other = slot
    · rw [same, update_self, held]
      simp
    rw [update_of_ne same]
    cases machine.core.table other <;> simp [same]
  have found : (finRange n).find? (fun other =>
      (machine.core.table other).isSome && (after.table other).isNone) = some slot := by
    cases search : (finRange n).find? (fun other =>
        (machine.core.table other).isSome && (after.table other).isNone) with
    | none =>
      have passed := List.find?_eq_none.mp search slot (List.mem_finRange slot)
      exact absurd ((only slot).mpr rfl) passed
    | some other =>
      have passed := List.find?_some search
      rw [(only other).mp passed]
  exact congrArg (Option.map fun slot => (slot, machine.generation slot)) found

/-- What `sys_wait` does: it reaps an Exited process, or returns an error and changes nothing. -/
inductive WaitCase (table : Table n) (child : UInt64) : Prop
  | reaps (slot : Fin n) (process : Process) (held : table slot = some process)
    (exited : process.state = .exited)
    (named : child ≠ 0 → slot.val = child.toNat)
    (first : child = 0 → table.position (holds .exited) = some slot)
    (waits : table.sysWait child = ((ofNat slot.val, process.exitStatus), update table slot none))
  | refuses (code : UInt64) (error : code = waitTimeout ∨ code = waitBadId)
    (none : child = 0 → table.position (holds .exited) = none)
    (waits : table.sysWait child = ((code, 0), table))

lemma sysWait_case (table : Table n) (child : UInt64) : WaitCase table child := by
  cases found : table.sysWaitSlot child with
  | ok slot =>
    obtain ⟨exited, first, named⟩ := Table.sysWaitSlot_ok found
    cases held : table slot with
    | none =>
      rw [held] at exited
      contradiction
    | some process =>
      rw [held] at exited
      refine .reaps slot process held (by simpa [holds] using exited)
        (fun other => (named other).symm) first ?_
      rw [Table.sysWait, found]
      simp [held]
  | error code =>
    have refuses : table.sysWait child = ((code, 0), table) := by rw [Table.sysWait, found]
    unfold sysWaitSlot at found
    split at found
    · split at found
      · cases found
      · rename_i search
        cases found
        exact .refuses _ (.inl rfl) (fun _ => search) refuses
    rename_i named
    refine .refuses _ (.inr ?_) (fun zero => absurd zero named) refuses
    split at found
    · split at found
      · cases found
      · exact (Except.error.inj found).symm
    · exact (Except.error.inj found).symm

/-- A wait that empties the slot of the process it reaps, and nothing else, keeps the books. -/
lemma Kept.waited (kept : Kept books) {call : Call n}
    (fates : ∀ slot, Fate (books.table slot) (after.table slot))
    (emptied : ∀ identity, call.freed = some identity ↔ identity.2 =
      books.machine.generation identity.1 ∧
      books.table identity.1 ≠ none ∧ after.table identity.1 = none)
    (answered : ∀ identity process, call.freed = some identity → books.table identity.1 =
      some process →
      call.answer = (ofNat identity.1.val, process.exitStatus))
    (refused : call.freed = none → call.answer = (waitTimeout, 0) ∨ call.answer = (waitBadId, 0))
    (named : call.Named) : Kept (books.waited after call) := by
  have grave : ∀ identity, call.freed = some identity → identity ∉ books.reaped ∧
      ∃ status, (identity, status) ∈ books.exits ∧ call.answer =
        (ofNat identity.1.val, status) := by
    rintro ⟨slot, _⟩ freed
    obtain ⟨current, held, gone⟩ := (emptied _).mp freed
    dsimp only at current held gone
    subst current
    have fate := fates slot
    rw [gone] at fate
    generalize there : books.table slot = found at fate
    cases fate with
    | empty => exact absurd there held
    | reaped exited =>
      obtain ⟨listed, left⟩ := kept.graves slot _ there exited
      exact ⟨left, _, listed, answered _ _ freed there⟩
  have member : ∀ other, other ∈ books.calls ++ [call] → other ∈ books.calls ∨ other = call := by
    simp
  have reaped : (books.calls ++ [call]).filterMap Call.freed =
    books.reaped ++ call.freed.toList := by
    rw [List.filterMap_append, Books.reaped]
    cases freed : call.freed <;> simp [freed]
  apply kept.turn fates
  · intro other made identity freed
    rcases member other made with early | rfl
    · exact kept.accounted.honest other early identity freed
    · exact (grave identity freed).2
  · intro other made spared
    rcases member other made with early | rfl
    · exact kept.accounted.refused other early spared
    · exact refused spared
  · rw [reaped, List.nodup_append]
    refine ⟨kept.accounted.unique, ?_, fun one early other late same => ?_⟩
    · cases call.freed <;> simp
    · rw [Option.mem_toList] at late
      rw [same] at early
      exact (grave other late).1 early
  · intro other made
    rcases member other made with early | rfl
    · exact kept.accounted.named other early
    · exact named
  · intro _
    rw [reaped, mem_append, Option.mem_toList, emptied]

lemma Kept.wait (kept : Kept books) (child : UInt64)
    (asked : Option (UInt64 × Except WaitError UInt64))
    (named : (Call.mk asked (books.table.sysWait child).1
      (freed books.machine (books.machine.observe (books.machine.core.wait child)))).Named) :
    Kept (books.waited (books.machine.core.wait child) ⟨asked, (books.table.sysWait child).1,
      freed books.machine (books.machine.observe (books.machine.core.wait child))⟩) := by
  cases sysWait_case books.table child with
  | reaps slot _ held exited _ _ waits =>
    have table : (books.machine.core.wait child).table = update books.table slot none :=
      congrArg snd waits
    have emptied := freed_emptied held table
    apply kept.waited
    · intro other
      rw [table]
      by_cases same : other = slot
      · rw [same, update_self, held]
        exact .reaped exited
      rw [update_of_ne same]
      exact .refl _
    · rintro ⟨other, _⟩
      rw [emptied, table]
      by_cases same : other = slot
      · subst same
        simp [held, eq_comm]
      · simp [update_of_ne same, Ne.symm same]
    · intro _ _ freed there
      cases emptied.symm.trans freed
      cases held.symm.trans there
      rw [waits]
    · intro spared
      cases emptied.symm.trans spared
    · exact named
  | refuses _ error _ waits =>
    have table : (books.machine.core.wait child).table = books.table := congrArg snd waits
    have spared := freed_same table
    apply kept.waited
    · intro _
      rw [table]
      exact .refl _
    · simp [spared, table]
    · intro _ _ freed
      cases spared.symm.trans freed
    · intro _
      rw [waits]
      rcases error with rfl | rfl
      · exact .inl rfl
      · exact .inr rfl
    · exact named

lemma processWait_result (id deadline : UInt64) (table : Table n) :
    ∃ result, processWait tableHandlers id deadline table = some (result, (table.sysWait id).2) ∧
      ((∃ err, result = .error err) ↔
        (table.sysWait id).1.1 = Abi.waitBadId ∨ (table.sysWait id).1.1 = Abi.waitTimeout) := by
  rw [processWait, sys_wait]
  simp only [tableHandlers, Option.map_some]
  by_cases bad : (table.sysWait id).1.1 = Abi.waitBadId
  · exact ⟨_, by rw [if_pos bad], by simp [bad]⟩
  by_cases late : (table.sysWait id).1.1 = Abi.waitTimeout
  · exact ⟨_, by rw [if_neg bad, if_pos late], by simp [late]⟩
  · exact ⟨_, by rw [if_neg bad, if_neg late], by simp [bad, late]⟩

lemma named_of_first (small : n ≤ Abi.waitBadId.toNat) {id : UInt64}
    (first : id = 0 → (books.table.position (holds .exited)).all fun slot => slot.val = 0)
    (deadline : UInt64) :
    (Call.mk ((processWait tableHandlers id deadline books.table).map fun (result, _) =>
      (id, result)) (books.table.sysWait id).1
      (freed books.machine (books.machine.observe (books.machine.core.wait id)))).Named := by
  obtain ⟨result, ran, errs⟩ := processWait_result id deadline books.table
  intro other reported asked
  rw [ran] at asked
  obtain ⟨rfl, rfl⟩ : id = other ∧ result = reported := by simpa using asked
  cases sysWait_case books.table id with
  | reaps slot _ held _ matching found waits =>
    have table : (books.machine.core.wait id).table = update books.table slot none :=
      congrArg snd waits
    have emptied := freed_emptied held table
    have known : ¬ ∃ err, result = .error err := by
      rw [errs, waits]
      exact not_or.mpr (Table.slot_code small slot)
    cases result with
    | ok =>
      refine ⟨_, emptied, ?_⟩
      by_cases zero : id = 0
      · have lowest := first zero
        rw [found zero] at lowest
        subst zero
        simpa using lowest
      · exact matching zero
    | error err => exact absurd ⟨err, rfl⟩ known
  | refuses _ error _ waits =>
    have table : (books.machine.core.wait id).table = books.table := congrArg snd waits
    have spared := freed_same table
    have known : ∃ err, result = .error err := by
      rw [errs, waits]
      rcases error with rfl | rfl
      · exact .inr rfl
      · exact .inl rfl
    obtain ⟨_, rfl⟩ := known
    exact spared

variable {prio : Priority}

lemma tryInstall_table {core : Core n} (installed : core.tryInstall prio = some after) :
    ∃ slot, core.table.position isFree = some slot ∧
      after.table = update core.table slot (some (Table.newProcess prio)) := by
  rw [Core.tryInstall, Table.tryInstall, Option.map_map] at installed
  obtain ⟨slot, found, rfl⟩ := Option.map_eq_some_iff.mp installed
  exact ⟨slot, found, rfl⟩

/-- The slot of a new process, if there is one, or the core as it was. -/
lemma Kept.installed (kept : Kept books) {full : Core n} (same : full.table = books.table)
    (vacant : (books.table.position isFree).all fun slot => (books.table slot).isNone) :
    Kept (books.marked ((books.machine.core.tryInstall prio).getD full)) := by
  cases installed : books.machine.core.tryInstall prio with
  | none =>
    apply kept.rested
    rw [Option.getD_none, same]
    exact resting_of_scheduled (.refl books.table)
  | some =>
    obtain ⟨_, found, table⟩ := tryInstall_table installed
    rw [Books.table, found] at vacant
    have alive : (Table.newProcess prio).state ≠ .exited := nofun
    exact kept.claimed (Option.isNone_iff_eq_none.mp vacant) alive table

end

/-! ## Runs -/

variable {n : Nat} {books next : Books n}

lemma step_some {event : Event} (taken : step books event = some next) :
    next = ⟨books.machine.observe (event.onCore.perform books.machine.core),
      books.exits ++ marks books.machine
        (books.machine.observe (event.onCore.perform books.machine.core)),
      books.calls ++ event.calls books.machine
        (books.machine.observe (event.onCore.perform books.machine.core))⟩ := by
  simp only [step, Dispatch.step] at taken
  split at taken
  · exact (Option.some.inj taken).symm
  · cases taken

lemma step_kept (small : n ≤ Abi.waitBadId.toNat) (books : Books n) (event : Event)
    (next : Books n) (kept : Kept books) (guarded : Guarded books event)
    (taken : step books event = some next) : Kept next := by
  rw [step_some taken]
  cases event with
  | processWait id deadline => exact kept.wait id _ (named_of_first small guarded deadline)
  | waitAny => exact kept.wait 0 none nofun
  | kernel event =>
    have unrecorded : ∀ after, Kept (books.marked after) → Kept ⟨books.machine.observe after,
          books.exits ++ marks books.machine (books.machine.observe after), books.calls ++ []⟩ := by
      intro _ same
      rw [List.append_nil]
      exact same
    cases event with
    | wait child => exact kept.wait child none nofun
    | spawn | install => exact unrecorded _ (kept.installed rfl guarded)
    | _ => exact unrecorded _ (kept.rested (resting_perform books.machine.core trivial))

lemma vacant_of_accounted (kept : Kept books) {prio : Priority} {full : Core n}
    (right : Accounted (books.marked ((books.machine.core.tryInstall prio).getD full))) :
    (books.table.position isFree).all fun slot => (books.table slot).isNone := by
  cases installed : books.machine.core.tryInstall prio with
  | none =>
    rw [Core.tryInstall, Table.tryInstall, Option.map_map, Option.map_eq_none_iff] at installed
    rw [installed]
    rfl
  | some after =>
    rw [installed, Option.getD_some] at right
    obtain ⟨slot, found, table⟩ := tryInstall_table installed
    rw [Books.table, found, Option.all_some]
    cases held : books.machine.core.table slot with
    | none => rfl
    | some process =>
      have free := Table.position_test found
      have dead : process.state = .exited := by
        rw [held] at free
        simpa [isFree, holds] using free
      obtain ⟨listed, left⟩ := kept.graves slot process held dead
      obtain ⟨current, -⟩ := right.kept _ _ (List.mem_append_left _ listed) left
      have claims : claimed books.machine.core after slot = true := by
        rw [claimed, free, table, update_self]
        rfl
      change books.machine.generation slot + (if claimed books.machine.core after slot then 1
        else 0) =
        books.machine.generation slot at current
      rw [claims, if_pos rfl] at current
      omega

lemma first_of_accounted {deadline : UInt64}
    (taken : step books (.processWait 0 deadline) = some next) (right : Accounted next) :
    (books.table.position (holds .exited)).all fun slot => slot.val = 0 := by
  rw [step_some taken] at right
  obtain ⟨result, ran, -⟩ := processWait_result 0 deadline books.table
  have asked : (processWait tableHandlers 0 deadline books.table).map
      (fun (result, _) => ((0 : UInt64), result)) = some (0, result) := by
    rw [ran]
    rfl
  have named := right.named _ (List.mem_append_right _ (List.mem_singleton.mpr rfl)) 0 result asked
  cases sysWait_case books.table 0 with
  | reaps slot _ held _ _ found waits =>
    have table : (books.machine.core.wait 0).table = update books.table slot none :=
      congrArg snd waits
    have emptied := freed_emptied held table
    rw [found rfl, Option.all_some]
    cases result with
    | ok =>
      obtain ⟨_, freed, zero⟩ := named
      cases emptied.symm.trans freed
      exact decide_eq_true zero
    | error => cases emptied.symm.trans named
  | refuses _ _ none =>
    rw [none rfl]
    rfl

lemma guarded_of_accounted (books : Books n) (event : Event) (next : Books n) (kept : Kept books)
    (taken : step books event = some next) (right : Accounted next) : Guarded books event := by
  have unrecorded : ∀ after, Accounted (n := n) ⟨books.machine.observe after,
      books.exits ++ marks books.machine (books.machine.observe after), books.calls ++ []⟩ →
      Accounted (books.marked after) := by
    intro _ same
    rw [List.append_nil] at same
    exact same
  cases event with
  | processWait =>
    rintro rfl
    exact first_of_accounted taken right
  | waitAny => trivial
  | kernel event =>
    rw [step_some taken] at right
    cases event with
    | spawn | install => exact vacant_of_accounted kept (unrecorded _ right)
    | _ => trivial

lemma boot_kept : Kept (boot : Books n) where
  accounted := {
    once := List.nodup_nil
    honest := nofun
    refused := nofun
    unique := List.nodup_nil
    kept := nofun
    named := nofun }
  graves _ _ held := nomatch held
  living _ _ held := nomatch held
  past := nofun

/-- In every run from the start of the kernel the books are right in every state, if and only if
every spawn of the run finds an empty slot before an Exited one, and every `ProcessId::wait` on
process 0 finds no other Exited process first. -/
theorem reaped_once_iff (small : n ≤ Abi.waitBadId.toNat) (events : List Event) :
    Throughout step Accounted (boot : Books n) events ↔
      Along step Guarded (boot : Books n) events :=
  throughout_iff_along (step_kept small) (fun _ kept => kept.accounted) guarded_of_accounted
    boot_kept

def waitById : List Event :=
  [.kernel .install, .kernel .install, .kernel .runAll, .kernel .yield, .kernel (.exit 7 []),
    .processWait 1 0]

/-- The books of that run are right throughout. -/
theorem reaped_once_iff_by_id : Throughout step Accounted (boot : Books 2) waitById :=
  (reaped_once_iff (by decide) waitById).mpr (by decide)

def spawnOverExited : List Event :=
  [.kernel .install, .kernel .install, .kernel .runAll, .kernel .yield, .kernel (.exit 7 []),
    .kernel (.spawn defaultPriority)]

def waitForZero : List Event :=
  [.kernel .install, .kernel .install, .kernel .runAll, .kernel .yield, .kernel (.exit 7 []),
    .processWait 0 0]

/-- The spawn claims the slot of the process that has exited, whose status nobody can get any more;
and the wait for process 0 reaps process 1. -/
theorem status_lost_and_wrong_reaped :
    (∃ final, run step (boot : Books 2) spawnOverExited = some final ∧ ¬ Accounted final) ∧
      ∃ final, run step (boot : Books 2) waitForZero = some final ∧ ¬ Accounted final := by
  constructor
  · refine ⟨_, rfl, fun right => ?_⟩
    have current := (right.kept (1, 1) 7 (by decide) (by decide)).1
    exact absurd current (by decide)
  · refine ⟨_, rfl, fun right => ?_⟩
    have named := right.named _ (List.mem_cons_self ..) 0 (.ok 0) rfl
    obtain ⟨identity, freed, zero⟩ := named
    have reaped : identity = (1, 1) := (Option.some.inj freed).symm
    rw [reaped] at zero
    contradiction

end R9x.Verif.Reaping
