import R9x.Aarch64.Timer
import R9x.Lib.Run

/-!
# Timers over whole runs

Threads start and cancel timers, interrupts land between the stores of a start, and callbacks start
and cancel timers while the handler works on its copy of the table.
-/

namespace R9x.Verif.Timers

open Lib Aarch64.Timer
open Machine (initial returned step)
open Function (update_self update_of_ne)
open Option (map_eq_some_iff some.inj)

variable {ι τ : Type} {core : Core ι}

/-! ## What holds in the states of a run -/

def Active (core : Core ι) (timer : ι) : Prop := (core.cells timer).active = true

/-- The timer is in the table. -/
def Registered (core : Core ι) (timer : ι) : Prop := some timer ∈ core.table.slots

instance (core : Core ι) (timer : ι) : Decidable (Active core timer) :=
    inferInstanceAs (Decidable (_ = _))

instance [DecidableEq ι] (core : Core ι) (timer : ι) : Decidable (Registered core timer) :=
  inferInstanceAs (Decidable (_ ∈ _))

def Armed (core : Core ι) (timer : ι) : Prop :=
  core.enabled = true ∧ core.cval ≤ (core.cells timer).deadlineTicks

/-- No active timer of the table counts, or the hardware timer is enabled, not later than the
deadline of each one that counts. -/
def Covers (core : Core ι) (counts : ι → Prop) : Prop :=
  (∀ timer, Registered core timer → Active core timer → ¬ counts timer) ∨
    core.enabled = true ∧ ∀ timer, Registered core timer → Active core timer → counts timer →
      core.cval ≤ (core.cells timer).deadlineTicks

/-- The stage is behind the store of the deadline. -/
def Late : Stage → Prop
  | .computed _ => False
  | .period _ => False
  | .deadline => True
  | .active => True

/-- A thread has stored the deadline of the timer and has not masked interrupts yet. -/
def Underway (machine : Machine ι τ) (timer : ι) : Prop :=
  ∃ thread stage, machine.pending thread = some ⟨timer, stage⟩ ∧ Late stage

/-- A start has returned without an error, or the handler has returned. -/
def Arms : Event ι → Prop
  | .started _ => True
  | .refused _ => False
  | .handled => True

lemma covers_of_armed {counts : ι → Prop}
    (armed : ∀ timer, Registered core timer → Active core timer → counts timer → Armed core timer) :
    Covers core counts := by
  by_cases idle : ∀ timer, Registered core timer → Active core timer → ¬ counts timer
  · exact .inl idle
  push Not at idle
  obtain ⟨timer, registered, active, counted⟩ := idle
  have enabled := (armed timer registered active counted).1
  exact .inr ⟨enabled, fun other inTable on counted => (armed other inTable on counted).2⟩

section

variable {after : Core ι} {timer other : ι}

/-! ## The hardware -/

lemma armHardware_cells (core : Core ι) : core.armHardware.cells = core.cells := by
  unfold Core.armHardware
  dsimp only
  split <;> rfl

lemma armHardware_table (core : Core ι) : core.armHardware.table = core.table := by
  unfold Core.armHardware
  dsimp only
  split <;> rfl

lemma armHardware_armed (registered : Registered core timer) (active : Active core timer) :
    Armed core.armHardware timer := by
  have listed : timer ∈ core.registered := List.mem_filterMap.mpr ⟨some timer, registered, rfl⟩
  have deadline : (core.cells timer).deadlineTicks ∈
      (core.registered.filter fun timer => (core.cells timer).active).map fun timer =>
        (core.cells timer).deadlineTicks :=
    List.mem_map.mpr ⟨timer, List.mem_filter.mpr ⟨listed, active⟩, rfl⟩
  unfold Core.armHardware
  dsimp only
  split
  · rename_i minimum
    exact ⟨rfl, (List.min?_eq_some_iff.mp minimum).2 _ deadline⟩
  rename_i empty
  rw [List.min?_eq_none_iff.mp empty] at deadline
  cases deadline

lemma armHardware_all (core : Core ι) (timer : ι)
    (registered : Registered core.armHardware timer) (active : Active core.armHardware timer) :
    Armed core.armHardware timer := by
  rw [Registered, armHardware_table] at registered
  rw [Active, armHardware_cells] at active
  exact armHardware_armed registered active

/-! ## The table -/

/-- What `register` does without an error: the timer is in the table, or it takes the first free
slot. -/
inductive Registers (core : Core ι) (timer : ι) : Core ι → Prop
  | there (registered : Registered core timer) : Registers core timer core
  | takes (missing : ¬ Registered core timer) (table : Table ι)
    (updated : Updated core.free (fun _ => some timer) core.table.slots table.slots) :
    Registers core timer { core with table }

section

variable (done : Registers core timer after)
include done

lemma Registers.registered : Registered after timer := by
  cases done with
  | there registered => exact registered
  | takes _ _ updated => exact updated.mem

lemma Registers.keeps (registered : Registered core other)
    (wanted : other = timer ∨ Active core other) : Registered after other := by
  cases done with
  | there => exact registered
  | takes missing _ updated =>
    have active : Active core other := by
      apply wanted.resolve_left
      intro same
      rw [same] at registered
      exact missing registered
    have occupied : core.free (some other) = false := by
      change (!(core.cells other).active) = false
      rw [show (core.cells other).active = true from active]
      rfl
    exact updated.mem_of_mem registered occupied

lemma Registers.cells : after.cells = core.cells := by
  cases done <;> rfl

end

variable [DecidableEq ι] {cells : Cells}

lemma Registers.once (done : Registers core timer after)
    (once : core.table.slots.count (some other) ≤ 1) :
    after.table.slots.count (some other) ≤ 1 := by
  cases done with
  | there => exact once
  | takes missing _ updated => exact updated.count_le_one missing once

lemma register_some (done : core.register timer = some after) : Registers core timer after := by
  unfold Core.register at done
  by_cases registered : some timer ∈ core.table.slots
  · rw [if_pos registered] at done
    rw [← some.inj done]
    exact .there registered
  rw [if_neg registered] at done
  split at done
  · rename_i taken
    rw [← some.inj done]
    exact .takes registered _ (updateFirst_some taken)
  · cases done

lemma register_none (failed : core.register timer = none) : ¬ Registered core timer := by
  intro registered
  change some timer ∈ core.table.slots at registered
  rw [Core.register, if_pos registered] at failed
  cases failed

/-! ## Stores -/

lemma write_same (core : Core ι) (timer : ι) (cells : Cells) :
    (core.write timer cells).cells timer = cells := update_self ..

lemma write_other (different : other ≠ timer) :
    (core.write timer cells).cells other = core.cells other := update_of_ne different ..

/-! ## Consistent timers -/

/-- No timer is in two slots, the hardware timer is armed for the active timers of the table, and
every active timer is in the table; those whose start is underway apart. -/
structure Consistent (core : Core ι) (underway : ι → Prop) : Prop where
  once : ∀ timer, core.table.slots.count (some timer) ≤ 1
  armed : ∀ timer, Registered core timer → Active core timer → ¬ underway timer → Armed core timer
  held : ∀ timer, Active core timer → Registered core timer ∨ underway timer

variable {underway : ι → Prop} {spec : Spec}

lemma Consistent.mono {more : ι → Prop} (consistent : Consistent core underway)
    (includes : ∀ timer, underway timer → more timer) : Consistent core more where
  once := consistent.once
  armed timer registered active idle :=
    consistent.armed timer registered active fun started => idle (includes timer started)
  held timer active := (consistent.held timer active).imp_right (includes timer)

def Eases (core : Core ι) (timer : ι) (cells : Cells) : Prop :=
  cells.active = true → Active core timer ∧ (core.cells timer).deadlineTicks ≤ cells.deadlineTicks

lemma Consistent.write (consistent : Consistent core underway)
    (safe : underway timer ∨ Eases core timer cells) :
    Consistent (core.write timer cells) underway where
  once := consistent.once
  armed other registered active idle := by
    by_cases same : other = timer
    · subst same
      rw [Active, write_same] at active
      obtain ⟨before, later⟩ := safe.resolve_left idle active
      have armed := consistent.armed other registered before idle
      rw [Armed, write_same]
      exact ⟨armed.1, Nat.le_trans armed.2 later⟩
    rw [Active, write_other same] at active
    rw [Armed, write_other same]
    exact consistent.armed other registered active idle
  held other active := by
    by_cases same : other = timer
    · subst same
      rw [Active, write_same] at active
      cases safe with
      | inl started => exact .inr started
      | inr kept => exact consistent.held other (kept active).1
    rw [Active, write_other same] at active
    exact consistent.held other active

lemma consistent_armHardware (once : ∀ timer, core.table.slots.count (some timer) ≤ 1)
    (held : ∀ timer, Active core timer → Registered core timer ∨ underway timer) :
    Consistent core.armHardware underway where
  once timer := by
    rw [armHardware_table]
    exact once timer
  armed timer registered active _ := armHardware_all core timer registered active
  held timer active := by
    rw [Active, armHardware_cells] at active
    rw [Registered, armHardware_table]
    exact held timer active

lemma Consistent.register (consistent : Consistent core fun other => underway other ∨ other = timer)
    (done : Registers core timer after) : Consistent after.armHardware underway := by
  refine consistent_armHardware (fun other => done.once (consistent.once other)) fun other active =>
    ?_
  rw [Active, done.cells] at active
  rcases consistent.held other active with registered | started | same
  · exact .inl (done.keeps registered (.inr active))
  · exact .inr started
  rw [same]
  exact .inl done.registered

lemma finishStart_cases (core : Core ι) (timer : ι) :
    (∃ after, Registers core timer after ∧ core.finishStart timer = (true, after.armHardware)) ∨
      ¬ Registered core timer ∧ core.finishStart timer = (false, core.storeActive timer false) := by
  unfold Core.finishStart
  cases result : core.register timer with
  | some after => exact .inl ⟨after, register_some result, rfl⟩
  | none => exact .inr ⟨register_none result, rfl⟩

lemma Consistent.finishStart (consistent : Consistent core fun other => underway other ∨
    other = timer) :
    Consistent (core.finishStart timer).2 underway := by
  rcases finishStart_cases core timer with ⟨_, done, result⟩ | ⟨missing, result⟩
  · rw [result]
    exact consistent.register done
  have stopped : Consistent (core.storeActive timer false)
      fun other => underway other ∨ other = timer := consistent.write (.inr nofun)
  rw [result]
  constructor
  · exact stopped.once
  · intro other registered active idle
    apply stopped.armed other registered active
    rintro (started | same)
    · exact idle started
    · rw [same] at registered
      exact missing registered
  · intro other active
    rcases stopped.held other active with registered | started | same
    · exact .inl registered
    · exact .inr started
    rw [Active, same, Core.storeActive, write_same] at active
    cases active

/-! ## The operations -/

lemma write_self (core : Core ι) (timer : ι) : core.write timer (core.cells timer) = core := by
  unfold Core.write
  rw [Function.update_eq_self]

lemma write_write (core : Core ι) (timer : ι) (first second : Cells) :
    (core.write timer first).write timer second = core.write timer second := by
  unfold Core.write
  rw [Function.update_idem]

lemma start_eq {freq : Nat} {now : UInt64} {result : Bool × Core ι}
    (started : core.start freq spec timer now = some result) :
    ∃ cells, result = (core.write timer cells).finishStart timer := by
  obtain ⟨_, -, started⟩ := Option.bind_eq_some_iff.mp started
  obtain ⟨_, -, started⟩ := map_eq_some_iff.mp started
  rw [Core.storeActive, Core.storeDeadline, Core.storePeriod, write_write, write_write] at started
  exact ⟨_, started.symm⟩

lemma nextDeadline_le {now next : Nat}
    (moved : Core.nextDeadline cells now = some next) : cells.deadlineTicks ≤ next := by
  unfold Core.nextDeadline at moved
  split at moved
  · cases moved
  obtain ⟨product, -, added⟩ := Option.bind_eq_some_iff.mp moved
  have sum := (checkedAdd_some added).1
  omega

lemma claim_eases {now : Nat} {fires : Bool}
    (claimed : core.claim spec timer now = some (fires, after)) :
    after = core ∨ ∃ cells, after = core.write timer cells ∧ Eases core timer cells := by
  unfold Core.claim at claimed
  dsimp only at claimed
  split at claimed
  · cases claimed
    exact .inl rfl
  split at claimed
  · cases claimed
    exact .inl rfl
  split at claimed
  · cases claimed
    exact .inr ⟨_, rfl, nofun⟩
  obtain ⟨_, moved, same⟩ := map_eq_some_iff.mp claimed
  cases same
  have later := nextDeadline_le moved
  exact .inr ⟨_, rfl, fun on => ⟨on, later⟩⟩

lemma fired_eases (spec : Spec) (core : Core ι) (timer : ι) (keep : Bool) :
    core.fired spec timer keep = core ∨
      ∃ cells, core.fired spec timer keep = core.write timer cells ∧ Eases core timer cells := by
  unfold Core.fired
  split
  · exact .inr ⟨_, rfl, nofun⟩
  · exact .inl rfl

end

/-! ## The invariant -/

section

variable [DecidableEq ι] {machine : Machine ι τ}

/-- What every run keeps. -/
structure Inv (machine : Machine ι τ) : Prop where
  consistent : Consistent machine.core (Underway machine)
  armed : ∀ event, machine.event = some event → Arms event → ∀ timer,
    Registered machine.core timer → Active machine.core timer → Armed machine.core timer
  started : ∀ timer, machine.event = some (.started timer) → Registered machine.core timer

lemma Inv.of_consistent (consistent : Consistent machine.core (Underway machine))
    (quiet : machine.event = none) : Inv machine where
  consistent := consistent
  armed _ same := nomatch quiet.symm.trans same
  started _ same := nomatch quiet.symm.trans same

lemma inv_initial (cval : Nat) : Inv (initial cval : Machine ι τ) := by
  refine Inv.of_consistent ⟨?_, nofun, nofun⟩ rfl
  intro timer
  change (List.replicate maxTimers none).count (some timer) ≤ 1
  rw [List.count_replicate]
  simp

end

/-! ## Steps -/

section

variable [DecidableEq τ] {machine next : Machine ι τ} {timer : ι} {stage : Stage} {thread : τ}

lemma underway_stored
    (before : ∀ other old, machine.pending thread = some ⟨other, old⟩ → Late old → other = timer ∧
      Late stage)
    (other : ι) (underway : Underway machine other) :
    Underway (machine.stored thread timer stage core) other := by
  obtain ⟨owner, old, pending, late⟩ := underway
  by_cases same : owner = thread
  · subst same
    obtain ⟨rfl, now⟩ := before other old pending late
    exact ⟨owner, stage, update_self .., now⟩
  · exact ⟨owner, old, (update_of_ne same ..).trans pending, late⟩

variable [DecidableEq ι] {specs : ι → Spec} {label : Label ι τ} {freq : Nat}

/-- What a step can do. -/
inductive Effect (machine next : Machine ι τ) : Prop
  | keep (core : next.core = machine.core) (event : next.event = none)
    (pending : ∀ timer, Underway machine timer → Underway next timer)
  | store (timer : ι) (cells : Cells) (core : next.core = machine.core.write timer cells)
    (event : next.event = none) (pending : ∀ timer, Underway machine timer → Underway next timer)
    (safe : Underway next timer ∨ Eases machine.core timer cells)
  | finish (timer : ι) (cells : Cells)
    (core : next.core = ((machine.core.write timer cells).finishStart timer).2)
    (event : next.event =
      some (returned timer ((machine.core.write timer cells).finishStart timer).1))
    (pending : ∀ other, Underway machine other → Underway next other ∨ other = timer)
  | arm (core : next.core = machine.core.armHardware) (event : next.event = some .handled)
    (pending : ∀ timer, Underway machine timer → Underway next timer)

lemma advance_effect {now : UInt64} (pending : machine.pending thread = some ⟨timer, stage⟩)
    (taken : machine.advance thread timer now stage = some next) : Effect machine next := by
  have unique : ∀ other old, machine.pending thread = some ⟨other, old⟩ → other = timer ∧
    old = stage := by
    intro _ _ found
    cases pending.symm.trans found
    exact ⟨rfl, rfl⟩
  have early : ∀ reached, ¬ Late stage → ∀ other old, machine.pending thread = some ⟨other, old⟩ →
      Late old → other = timer ∧ Late reached := by
    intro _ before other old found late
    rw [(unique other old found).2] at late
    exact absurd late before
  cases stage with
  | computed ticks =>
    have eases : Eases machine.core timer { machine.core.cells timer with periodTicks := ticks } :=
      fun active => ⟨active, Nat.le_refl _⟩
    cases taken
    exact .store timer _ rfl rfl (underway_stored (early _ id)) (.inr eases)
  | period =>
    obtain ⟨deadline, -, same⟩ := map_eq_some_iff.mp taken
    cases same
    exact .store timer _ rfl rfl (underway_stored (early _ id))
      (.inl ⟨thread, .deadline, update_self .., trivial⟩)
  | deadline =>
    have same : ∀ other old, machine.pending thread = some ⟨other, old⟩ → Late old →
        other = timer ∧ Late .active :=
      fun other old found _ => ⟨(unique other old found).1, trivial⟩
    cases taken
    exact .store timer _ rfl rfl (underway_stored same)
      (.inl ⟨thread, .active, update_self .., trivial⟩)
  | active =>
    have result : next = { machine with
        core := (machine.core.finishStart timer).2
        pending := Function.update machine.pending thread none
        event := some (returned timer (machine.core.finishStart timer).1) } :=
      (some.inj taken).symm
    subst result
    apply Effect.finish timer (machine.core.cells timer)
    · rw [write_self]
    · rw [write_self]
    · intro other underway
      obtain ⟨owner, old, found, late⟩ := underway
      by_cases same : owner = thread
      · subst same
        exact .inr (unique other old found).1
      · exact .inl ⟨owner, old, (update_of_ne same ..).trans found, late⟩

/-- Every step is one of these. -/
lemma step_effect (taken : machine.step freq specs label = some next) : Effect machine next := by
  cases label with
  | call thread timer =>
    simp only [step] at taken
    split at taken
    · rename_i idle
      obtain ⟨ticks, -, same⟩ := map_eq_some_iff.mp taken
      have pending : ∀ other, Underway machine other →
          Underway (machine.stored thread timer (.computed ticks) machine.core) other :=
        underway_stored fun other old found => nomatch idle.symm.trans found
      cases same
      exact .keep rfl rfl pending
    · cases taken
  | resume =>
    simp only [step] at taken
    split at taken
    · rename_i pending
      exact advance_effect pending taken
    · cases taken
  | cancel timer =>
    simp only [step] at taken
    split at taken
    · cases taken
    cases taken
    exact .store timer _ rfl rfl (fun _ underway => underway) (.inr nofun)
  | interrupt =>
    simp only [step] at taken
    split at taken
    · cases taken
      exact .keep rfl rfl fun _ underway => underway
    · cases taken
  | turn =>
    simp only [step] at taken
    split at taken
    · cases taken
      exact .arm rfl rfl fun _ underway => underway
    · obtain ⟨⟨_, _⟩, claimed, same⟩ := map_eq_some_iff.mp taken
      cases same
      rcases claim_eases claimed with same | ⟨cells, same, eases⟩
      · exact .keep same rfl fun _ underway => underway
      · exact .store _ cells same rfl (fun _ underway => underway) (.inr eases)
    · cases taken
  | start timer =>
    simp only [step] at taken
    split at taken
    · obtain ⟨⟨_, _⟩, started, same⟩ := map_eq_some_iff.mp taken
      cases same
      obtain ⟨cells, result⟩ := start_eq started
      apply Effect.finish timer cells
      · rw [← result]
      · rw [← result]
      · exact fun other underway => .inl underway
    · cases taken
  | fired keep =>
    simp only [step] at taken
    split at taken
    · rename_i timer _ _
      cases taken
      rcases fired_eases (specs timer) machine.core timer keep with same | ⟨cells, same, eases⟩
      · exact .keep same rfl fun _ underway => underway
      · exact .store timer cells same rfl (fun _ underway => underway) (.inr eases)
    · cases taken

lemma Inv.step (inv : Inv machine) (taken : machine.step freq specs label = some next) :
    Inv next := by
  cases step_effect taken with
  | keep core event pending =>
    refine Inv.of_consistent ?_ event
    rw [core]
    exact inv.consistent.mono pending
  | store _ _ core event pending safe =>
    refine Inv.of_consistent ?_ event
    rw [core]
    exact (inv.consistent.mono pending).write safe
  | finish timer cells core event pending =>
    have consistent : Consistent next.core (Underway next) := by
      rw [core]
      exact ((inv.consistent.mono pending).write (.inl (.inr rfl))).finishStart
    rcases finishStart_cases (machine.core.write timer cells) timer with
      ⟨after, done, result⟩ | ⟨missing, result⟩
    · rw [result] at core event
      refine ⟨consistent, fun _ _ _ => ?_, fun other same => ?_⟩
      · rw [core]
        exact armHardware_all after
      · cases event.symm.trans same
        rw [core, Registered, armHardware_table]
        exact done.registered
    rw [result] at event
    refine ⟨consistent, fun happened same arms => ?_, fun other same => ?_⟩
    · cases event.symm.trans same
      exact absurd arms id
    · cases event.symm.trans same
  | arm core event pending =>
    refine ⟨?_, fun _ _ _ => ?_, fun timer same => nomatch event.symm.trans same⟩
    · have consistent := inv.consistent.mono pending
      rw [core]
      exact consistent_armHardware consistent.once consistent.held
    · rw [core]
      exact armHardware_all machine.core

lemma finishStart_keeps {other : ι} (registered : Registered core other)
    (wanted : other = timer ∨ Active core other) : Registered (core.finishStart timer).2 other := by
  rcases finishStart_cases core timer with ⟨_, done, result⟩ | ⟨_, result⟩
  · rw [result, Registered, armHardware_table]
    exact done.keeps registered wanted
  rw [result]
  exact registered

lemma step_registered (registered : Registered machine.core timer)
    (active : Active machine.core timer)
    (taken : machine.step freq specs label = some next) : Registered next.core timer := by
  cases step_effect taken with
  | keep core | store other cells core =>
    rw [core]
    exact registered
  | finish other cells core =>
    have stored : Registered (machine.core.write other cells) timer := registered
    have wanted : timer = other ∨ Active (machine.core.write other cells) timer := by
      by_cases same : timer = other
      · exact .inl same
      rw [Active, write_other same]
      exact .inr active
    rw [core]
    exact finishStart_keeps stored wanted
  | arm core =>
    rw [core, Registered, armHardware_table]
    exact registered

lemma run_registered {labels : List (Label ι τ)} (registered : Registered machine.core timer)
    (active : Throughout (step freq specs) (fun state => Active state.core timer) machine labels)
    (reached : run (step freq specs) machine labels = some next) :
    Registered next.core timer := by
  induction labels generalizing machine with
  | nil =>
    rw [← some.inj reached]
    exact registered
  | cons _ _ ih =>
    obtain ⟨middle, taken, rest⟩ := Option.bind_eq_some_iff.mp reached
    exact ih (step_registered registered active.1 taken) (active.2 middle taken) rest

/-! ## Runs -/

/-- What holds in every state of a run. -/
structure TimersKept (freq : Nat) (specs : ι → Spec) (machine : Machine ι τ) : Prop where
  once : ∀ timer, machine.core.table.slots.count (some timer) ≤ 1
  held : ∀ timer, Active machine.core timer → Registered machine.core timer ∨ Underway machine timer
  stays : ∀ timer, machine.event = some (.started timer) → ∀ later final,
    Throughout (step freq specs) (fun state => Active state.core timer) machine later →
    run (step freq specs) machine later = some final → Registered final.core timer
  armed : ∀ event, machine.event = some event → Arms event → Covers machine.core fun _ => True
  refused : ∀ timer, machine.event = some (.refused timer) →
    Covers machine.core fun other => ¬ Underway machine other

/-- A step in which no start returns without an error leaves the table, and one in which a start
returns with an error leaves its timer inactive. -/
def Refuses (freq : Nat) (specs : ι → Spec) (machine : Machine ι τ) (label : Label ι τ) : Prop :=
  ∀ next, machine.step freq specs label = some next →
    ((∀ timer, next.event ≠ some (.started timer)) → next.core.table = machine.core.table) ∧
      ∀ timer, next.event = some (.refused timer) → ¬ Active next.core timer

lemma Inv.sound (inv : Inv machine) (freq : Nat) (specs : ι → Spec) :
    TimersKept freq specs machine where
  once := inv.consistent.once
  held := inv.consistent.held
  stays timer started _ _ active reached :=
    run_registered (inv.started timer started) active reached
  armed event happened arms :=
    covers_of_armed fun timer registered active _ =>
      inv.armed event happened arms timer registered active
  refused _ _ := covers_of_armed inv.consistent.armed

lemma refuses (freq : Nat) (specs : ι → Spec) (machine : Machine ι τ) (label : Label ι τ) :
    Refuses freq specs machine label := by
  intro _ taken
  cases step_effect taken with
  | keep core event _ | store timer cells core event _ _ =>
    rw [core]
    exact ⟨fun _ => rfl, fun timer same => nomatch event.symm.trans same⟩
  | finish timer cells core event =>
    rcases finishStart_cases (machine.core.write timer cells) timer with
      ⟨after, done, result⟩ | ⟨missing, result⟩
    · rw [result] at event
      exact ⟨fun other => absurd event (other timer), fun other same =>
        nomatch event.symm.trans same⟩
    rw [result] at core event
    constructor
    · intro _
      rw [core]
      rfl
    · intro _ same active
      cases event.symm.trans same
      rw [core, Active, Core.storeActive, write_same] at active
      cases active
  | arm core event =>
    rw [core]
    exact ⟨fun _ => armHardware_table _, fun timer same => nomatch event.symm.trans same⟩

/-- In every run of any threads and any timers: no timer is in two slots; a timer whose start has
returned without an error is in the table as long as it is active; a start that returns with an
error leaves the table and an inactive timer; every active timer is in the table or its start is
underway; and when a start or the handler has returned, the hardware timer is enabled not later than
the deadline of any active timer of the table, after an error only for those not underway. -/
theorem timers_sound (freq : Nat) (specs : ι → Spec) (cval : Nat) (labels : List (Label ι τ)) :
    Throughout (Machine.step freq specs) (TimersKept freq specs) (initial cval) labels ∧
      Along (Machine.step freq specs) (Refuses freq specs) (initial cval) labels := by
  constructor
  · exact throughout_of_invariant (fun _ _ _ inv taken => inv.step taken)
      (fun _ inv => inv.sound freq specs) (inv_initial cval) labels
  · exact along_of_forall (refuses freq specs) (initial cval) labels

end

/-! ## Starts that are interrupted -/

def nineSpecs : Fin 9 → Spec
  | 0 => ⟨10, true⟩
  | 1 => ⟨0, false⟩
  | _ => ⟨1000, false⟩

def whole (timer : Fin 9) (now : UInt64) : List (Label (Fin 9) Unit) :=
  .call () timer :: List.replicate 4 (.resume () now)

def interrupted : List (Label (Fin 9) Unit) :=
  ([0, 1, 2, 3, 4, 5, 6, 7] : List (Fin 9)).flatMap (fun timer => whole timer 90) ++
    [.interrupt 90, .turn, .turn, .fired true] ++ List.replicate 7 .turn ++
    [.call () 1, .resume () 99, .resume () 99, .resume () 99, .interrupt 100, .turn, .start 8 100]

def unregistered : List (Label (Fin 9) Unit) :=
  whole 0 90 ++ [.call () 1, .resume () 95, .resume () 95, .resume () 95, .interrupt 100, .turn,
    .fired true, .turn]

lemma not_covers {timer : ι} (registered : Registered core timer)
    (active : Active core timer) (early : (core.cells timer).deadlineTicks < core.cval) :
    ¬ Covers core fun _ => True := by
  intro covers
  rcases covers with idle | ⟨_, before⟩
  · exact idle timer registered active trivial
  have late := before timer registered active trivial
  omega

/-- A callback's start that fails inside an interrupted start of another timer returns while that
timer is active in the table and due before the hardware timer. The handler that interrupts a start
returns while its timer is active, not in the table, and due before the hardware timer. -/
theorem interrupted_start_not_covered :
    (∃ machine, run (Machine.step 1000000000 nineSpecs) (initial 0) interrupted = some machine ∧
      machine.event = some (.refused 8) ∧ ¬ Covers machine.core fun _ => True) ∧
    ∃ machine, run (Machine.step 1000000000 nineSpecs) (initial 0) unregistered = some machine ∧
      machine.event = some .handled ∧ Registered machine.core 0 ∧ Active machine.core 0 ∧
      Active machine.core 1 ∧ (machine.core.cells 1).deadlineTicks < machine.core.cval := by
  constructor
  · have seen : (run (Machine.step 1000000000 nineSpecs) (initial 0) interrupted).any
        (fun machine => machine.event = some (.refused 8) ∧ Registered machine.core 1 ∧
          Active machine.core 1 ∧ (machine.core.cells 1).deadlineTicks < machine.core.cval) =
            true := by
      decide +kernel
    obtain ⟨machine, reached, facts⟩ := Option.any_eq_true _ _ |>.mp seen
    obtain ⟨refused, registered, active, early⟩ := of_decide_eq_true facts
    exact ⟨machine, reached, refused, not_covers registered active early⟩
  · have seen : (run (Machine.step 1000000000 nineSpecs) (initial 0) unregistered).any
        (fun machine => machine.event = some .handled ∧ Registered machine.core 0 ∧
          Active machine.core 0 ∧ Active machine.core 1 ∧
          (machine.core.cells 1).deadlineTicks < machine.core.cval) = true := by
      decide +kernel
    obtain ⟨machine, reached, facts⟩ := Option.any_eq_true _ _ |>.mp seen
    exact ⟨machine, reached, of_decide_eq_true facts⟩

end R9x.Verif.Timers
