import R9x.Aarch64.Switching
import R9x.Verif.Dispatch

/-!
# Switching over whole runs of several cores

The critical section of `switch_out` makes the process that is left Runnable, and its context is
stored only after the lock is dropped.
-/

namespace R9x.Verif.SwitchRuns

open Lib Aarch64 Aarch64.Switching Port.Ipc
open Function (update update_self update_of_ne)
open Machine (move boot store)
open Option (some.inj)

variable {n m : Nat}

/-- The scheduling states of the table. -/
abbrev states (machine : Machine n m) : ProcId → Option State := machine.table.stateOf

def Uses (phase : Phase n) (slot : Fin n) : Prop :=
    phase.stack = some slot ∨ phase.claim = some slot

def Clear (phase : Phase n) (slot : Fin n) : Prop :=
  phase.stack ≠ some slot ∧ ∀ source context, phase ≠ .loaded source slot context

/-- No Runnable process is still on the kernel stack of a core. -/
def Stored (machine : Machine n m) : Prop :=
  ∀ core slot, (machine.cores core).stack = some slot → states machine slot ≠ some .runnable

instance (machine : Machine n m) : Decidable (Stored machine) :=
  inferInstanceAs (Decidable (∀ core slot, (machine.cores core).stack = some slot →
    states machine slot ≠ some .runnable))

/-- What every run keeps. -/
structure Inv (machine : Machine n m) : Prop where
  claimed : ∀ core slot, (machine.cores core).claim = some slot → states machine slot =
    some .running
  left : ∀ core slot, (machine.cores core).stack = some slot → (machine.cores core).settled =
    false →
    states machine slot = some .runnable ∨ states machine slot = some .blocked
  apart : ∀ core other slot, Uses (machine.cores core) slot → Uses (machine.cores other) slot →
    core = other
  ready : ∀ slot : Fin n, states machine slot ≠ none → (∀ core, Clear (machine.cores core) slot) →
    (machine.contexts slot).entered = false
  valid : ∀ core source next context, machine.cores core = .loaded source next context →
    context.entered = false

def Calm (before after : ProcId → Option State) : Prop :=
  ∀ id, after id = before id ∨ before id = some .blocked ∧ after id = some .runnable

/-! ## Critical sections that choose no process -/

section

variable {machine : Machine n m}

lemma Inv.calm (inv : Inv machine) {table : Table n} (cursor : Nat)
    (calm : Calm (states machine) table.stateOf) :
    Inv { machine with table := table, cursor := cursor } := by
  constructor
  case claimed =>
    intro core slot claims
    have running := inv.claimed core slot claims
    rcases calm slot with same | ⟨blocked, -⟩
    · exact same.trans running
    · cases running.symm.trans blocked
  case left =>
    intro core slot stack leaves
    rcases calm slot with same | ⟨-, woken⟩
    · have before := inv.left core slot stack leaves
      rw [← same] at before
      exact before
    · exact .inl woken
  case apart => exact inv.apart
  case ready =>
    intro slot present
    apply inv.ready slot
    rcases calm slot with same | ⟨blocked, -⟩
    · rw [← same]
      exact present
    rw [blocked]
    exact nofun
  case valid => exact inv.valid

lemma calm_wake (table : Table n) (id : ProcId) : Calm table.stateOf (table.wake id).stateOf :=
  fun other => Dispatch.stateOf_wakes table [id] other

lemma calm_checkDeadlines (table : Table n) (now : UInt64) :
    Calm table.stateOf (table.checkDeadlines now).stateOf :=
  fun other => Dispatch.stateOf_checkDeadlines table now other

lemma calm_setDeadline (table : Table n) (id : ProcId) (deadline : UInt64) :
    Calm table.stateOf (table.setDeadline id deadline).stateOf := by
  intro other
  left
  have same := stateOf_modify_same table id
    (fun process => { process with deadline := some deadline }) fun _ => rfl
  exact congrFun same other

end

/-! ## The critical section of `switch_out` -/

section

variable {machine : Machine n m} {core : Fin m} {current : Fin n}

lemma switchSection_cases (running : states machine current = some .running) (demoteTo : State) :
    ∃ next table cursor, switchSection machine current demoteTo = some (next, table, cursor) ∧
      match next with
      | none => table.stateOf = if demoteTo = .runnable then states machine else
          update (states machine) current (some demoteTo)
      | some next => next ≠ current ∧ states machine next = some .runnable ∧
          table.stateOf = update (update (states machine) current (some demoteTo)) next
            (some .running) := by
  let single : Core n := ⟨machine.table, some current, machine.cursor, .process .el0, fun _ => .el0⟩
  have present : single.states current ≠ none := by
    change states machine current ≠ none
    rw [running]
    intro missing
    cases missing
  have demoted : demotedStates single current demoteTo =
      update (states machine) current (some demoteTo) := if_pos running
  obtain ⟨⟨switched, after⟩, result, outcome⟩ := switchOut_case single demoteTo rfl present
  have section_eq : switchSection machine current demoteTo =
      some (if switched then after.tpidr else none, after.table, after.cursor) := by
    unfold switchSection
    rw [result]
  cases outcome with
  | stayed after _ _ after_states =>
    refine ⟨none, after.table, after.cursor, section_eq, ?_⟩
    rw [← demoted]
    exact after_states
  | switched next after apart runnable tpidr _ after_states =>
    refine ⟨some next, after.table, after.cursor, ?_, apart, runnable, ?_⟩
    · rw [section_eq, if_pos rfl, tpidr]
    · rw [← demoted]
      exact after_states

variable {next : Fin n}

lemma Inv.unused (inv : Inv machine) (runnable : states machine next = some .runnable)
    (stored : Stored machine) (other : Fin m) : ¬ Uses (machine.cores other) next := by
  rintro (stack | claims)
  · exact stored other next stack runnable
  · cases runnable.symm.trans (inv.claimed other next claims)

variable {phase : Phase n} {table : Table n} {contexts : Fin n → Saved}

/-- One core takes a step. It may use processes that it used before or that no core uses, and the
states of those that other cores use stay. -/
lemma Inv.moved (inv : Inv machine) (cursor : Nat)
    (claimed : ∀ slot, phase.claim = some slot → table.stateOf slot = some .running)
    (left : ∀ slot, phase.stack = some slot → phase.settled = false →
      table.stateOf slot = some .runnable ∨ table.stateOf slot = some .blocked)
    (fresh : ∀ slot, Uses phase slot →
      Uses (machine.cores core) slot ∨ ∀ other, ¬ Uses (machine.cores other) slot)
    (kept : ∀ other slot, other ≠ core → Uses (machine.cores other) slot →
      table.stateOf slot = states machine slot)
    (ready : ∀ slot : Fin n, table.stateOf slot ≠ none → Clear phase slot →
      (∀ other, other ≠ core → Clear (machine.cores other) slot) → (contexts slot).entered = false)
    (valid : ∀ source next context, phase = .loaded source next context → context.entered = false) :
    Inv ⟨table, cursor, contexts, update machine.cores core phase⟩ := by
  constructor
  case claimed =>
    intro other slot claims
    by_cases same : other = core
    · subst same
      simp only [update_self] at claims
      exact claimed slot claims
    simp only [update_of_ne same] at claims
    exact (kept other slot same (.inr claims)).trans (inv.claimed other slot claims)
  case left =>
    intro other slot stack leaves
    by_cases same : other = core
    · subst same
      simp only [update_self] at stack leaves
      exact left slot stack leaves
    simp only [update_of_ne same] at stack leaves
    have unchanged := kept other slot same (.inl stack)
    have before := inv.left other slot stack leaves
    rw [← unchanged] at before
    exact before
  case apart =>
    have joined : ∀ other slot, other ≠ core → Uses phase slot →
      ¬ Uses (machine.cores other) slot := by
      intro other slot distinct mine theirs
      rcases fresh slot mine with old | unused
      · exact distinct (inv.apart other core slot theirs old)
      · exact unused other theirs
    intro first second slot one two
    by_cases same : first = core
    · by_cases same' : second = core
      · exact same.trans same'.symm
      · subst same
        simp only [update_self, update_of_ne same'] at one two
        exact absurd two (joined second slot same' one)
    by_cases same' : second = core
    · subst same'
      simp only [update_self, update_of_ne same] at one two
      exact absurd one (joined first slot same two)
    simp only [update_of_ne same, update_of_ne same'] at one two
    exact inv.apart first second slot one two
  case ready =>
    intro slot present clear
    have mine := clear core
    simp only [update_self] at mine
    apply ready slot present mine
    intro other distinct
    have here := clear other
    simp only [update_of_ne distinct] at here
    exact here
  case valid =>
    intro other source next context loaded
    by_cases same : other = core
    · subst same
      simp only [update_self] at loaded
      exact valid source next context loaded
    simp only [update_of_ne same] at loaded
    exact inv.valid other source next context loaded

variable {slot : Fin n}

lemma clear_settled (settled : phase.settled = true) (stack : phase.stack ≠ some slot) :
    Clear phase slot := by
  refine ⟨stack, ?_⟩
  rintro _ _ rfl
  cases settled

variable {source : Option (Fin n)}

lemma Inv.choose (inv : Inv machine) (cursor : Nat)
    (settled : (machine.cores core).settled = true) (stack : (machine.cores core).stack = source)
    (unused : ∀ other, ¬ Uses (machine.cores other) next) (present : states machine next ≠ none)
    (running : table.stateOf next = some .running) (demoted : ∀ slot, source = some slot →
      table.stateOf slot = some .runnable ∨ table.stateOf slot = some .blocked)
    (kept : ∀ slot : Fin n, slot ≠ next → source ≠ some slot → table.stateOf slot =
      states machine slot) :
    Inv (move { machine with table := table, cursor := cursor } core (.leaving source next)) := by
  apply inv.moved cursor
  case claimed =>
    intro _ claims
    rw [← some.inj claims]
    exact running
  case left => exact fun slot here _ => demoted slot here
  case fresh =>
    rintro slot (here | here)
    · exact .inl (.inl (stack.trans here))
    · rw [← some.inj here]
      exact .inr unused
  case kept =>
    intro other slot distinct uses
    apply kept slot
    · rintro rfl
      exact unused other uses
    · intro same
      exact distinct (inv.apart other core slot uses (.inl (stack.trans same)))
  case ready =>
    intro slot present' mine clear
    have before : states machine slot ≠ none := by
      by_cases same : slot = next
      · rw [same]
        exact present
      rw [← kept slot same mine.1]
      exact present'
    apply inv.ready slot before
    intro other
    by_cases same : other = core
    · subst same
      apply clear_settled settled
      rw [stack]
      exact mine.1
    · exact clear other same
  case valid => exact nofun

lemma Inv.not_running (inv : Inv machine) (stack : (machine.cores core).stack = some slot)
    (leaves : (machine.cores core).settled = false) : states machine slot ≠ some .running := by
  rcases inv.left core slot stack leaves with here | here <;> rw [here] <;> exact nofun

/-- A core reads the context pointer of the process it has chosen. -/
lemma Inv.load (inv : Inv machine) (leaving : machine.cores core = .leaving source next) :
    Inv (move { machine with
        contexts := update machine.contexts next { machine.contexts next with entered := true } }
          core
        (.loaded source next (machine.contexts next))) := by
  have claims : (machine.cores core).claim = some next := by
    rw [leaving]
    rfl
  have leaves : (machine.cores core).settled = false := by
    rw [leaving]
    rfl
  have running := inv.claimed core next claims
  have clear : ∀ other, Clear (machine.cores other) next := by
    intro other
    by_cases same : other = core
    · subst same
      constructor
      · exact fun stack => inv.not_running stack leaves running
      · rw [leaving]
        exact nofun
    constructor
    · exact fun stack => same (inv.apart other core next (.inl stack) (.inr claims))
    · intro _ _ loaded
      have theirs : (machine.cores other).claim = some next := by
        rw [loaded]
        rfl
      exact same (inv.apart other core next (.inr theirs) (.inr claims))
  have entering : (machine.contexts next).entered = false := by
    apply inv.ready next _ clear
    rw [running]
    exact nofun
  have same_uses : ∀ slot, Uses (.loaded source next (machine.contexts next)) slot →
      Uses (machine.cores core) slot := by
    rw [leaving]
    exact fun slot uses => uses
  apply inv.moved machine.cursor
  case claimed =>
    intro _ here
    rw [← some.inj here]
    exact running
  case left =>
    intro slot stack _
    apply inv.left core slot _ leaves
    rw [leaving]
    exact stack
  case fresh => exact fun slot uses => .inl (same_uses slot uses)
  case kept => exact fun _ _ _ _ => rfl
  case ready =>
    intro slot present mine others
    by_cases same : slot = next
    · subst same
      exact absurd rfl (mine.2 source _)
    simp only [update_of_ne same]
    apply inv.ready slot present
    intro other
    by_cases here : other = core
    · subst here
      rw [leaving]
      exact ⟨mine.1, nofun⟩
    · exact others other here
  case valid =>
    rintro _ _ _ ⟨⟩
    exact entering

lemma stack_settled (settled : phase.settled = true) : phase.stack = phase.claim := by
  cases phase with
  | kernel | running => rfl
  | leaving | loaded | parking => cases settled

variable (inv : Inv machine)
include inv

lemma Inv.save (settled : phase.settled = true) (claim : phase.claim = (machine.cores core).claim)
    (stored : ∀ slot, (machine.cores core).stack = some slot → (contexts slot).entered = false)
    (others : ∀ slot, (machine.cores core).stack ≠ some slot → contexts slot =
      machine.contexts slot) :
    Inv ⟨machine.table, machine.cursor, contexts, update machine.cores core phase⟩ := by
  have stack := stack_settled settled
  apply inv.moved machine.cursor
  case claimed => exact fun slot here => inv.claimed core slot (claim.symm.trans here)
  case left => exact fun slot _ leaves => nomatch settled.symm.trans leaves
  case fresh =>
    rintro slot (here | here)
    · exact .inl (.inr (claim.symm.trans (stack.symm.trans here)))
    · exact .inl (.inr (claim.symm.trans here))
  case kept => exact fun _ _ _ _ => rfl
  case ready =>
    intro slot present mine clear
    by_cases left : (machine.cores core).stack = some slot
    · exact stored slot left
    rw [others slot left]
    apply inv.ready slot present
    intro other
    by_cases same : other = core
    · subst same
      refine ⟨left, ?_⟩
      intro _ _ loaded
      apply mine.1
      rw [stack, claim, loaded]
      rfl
    · exact clear other same
  case valid =>
    rintro _ _ _ rfl
    cases settled

lemma Inv.stored {source : Fin n} (settled : phase.settled = true)
    (claim : (machine.cores core).claim = phase.claim)
    (stack : (machine.cores core).stack = some source) :
    Inv ((machine.store source).move core phase) := by
  apply inv.save settled claim.symm
  · intro _ here
    have same := some.inj (here.symm.trans stack)
    simp only [store, same, update_self]
  · intro slot away
    have distinct : slot ≠ source := fun same => away (stack.trans (congrArg some same.symm))
    simp only [store, update_of_ne distinct]

lemma Inv.runAll (kernel : machine.cores core = .kernel) {first : Fin n}
    (runnable : states machine first = some .runnable) (stored : Stored machine) :
    Inv (move { machine with table := machine.table.setState first .running } core
      (.leaving none first)) := by
  have after := stateOf_setState runnable .running
  apply inv.choose machine.cursor
  case settled => rw [kernel]; rfl
  case stack => rw [kernel]; rfl
  case unused => exact inv.unused runnable stored
  case present => rw [runnable]; exact nofun
  case running => rw [after, update_self]
  case demoted => exact nofun
  case kept =>
    intro _ distinct _
    rw [after, update_of_ne (Fin.val_ne_of_ne distinct)]

lemma Inv.switched (running : machine.cores core = .running current)
    {demoteTo : State} (demotes : demoteTo = .runnable ∨ demoteTo = .blocked) (cursor : Nat)
    (apart : next ≠ current) (runnable : states machine next = some .runnable)
    (after : table.stateOf = update (update (states machine) current (some demoteTo)) next
      (some .running)) (stored : Stored machine) :
    Inv (move { machine with table := table, cursor := cursor } core
      (.leaving (some current) next)) := by
  apply inv.choose cursor
  case settled => rw [running]; rfl
  case stack => rw [running]; rfl
  case unused => exact inv.unused runnable stored
  case present => rw [runnable]; exact nofun
  case running => rw [after, update_self]
  case demoted =>
    intro _ same
    cases same
    rw [after, update_of_ne (Fin.val_ne_of_ne apart.symm), update_self]
    rcases demotes with rfl | rfl
    · exact .inl rfl
    · exact .inr rfl
  case kept =>
    intro slot distinct other
    have away : slot ≠ current := fun same => other (congrArg some same.symm)
    rw [after, update_of_ne (Fin.val_ne_of_ne distinct), update_of_ne (Fin.val_ne_of_ne away)]

lemma Inv.parked (running : machine.cores core = .running current) (cursor : Nat)
    (after : table.stateOf = update (states machine) current (some .blocked)) :
    Inv (move { machine with table := table, cursor := cursor } core (.parking current)) := by
  have stack : (machine.cores core).stack = some current := by
    rw [running]
    rfl
  have others : ∀ slot : Fin n, slot ≠ current → table.stateOf slot = states machine slot := by
    intro _ distinct
    rw [after, update_of_ne (Fin.val_ne_of_ne distinct)]
  apply inv.moved cursor
  case claimed => exact nofun
  case left =>
    intro _ here _
    rw [← some.inj here, after, update_self]
    exact .inr rfl
  case fresh =>
    rintro slot (here | here)
    · exact .inl (.inl (stack.trans here))
    · cases here
  case kept =>
    intro other slot distinct uses
    apply others slot
    rintro rfl
    exact distinct (inv.apart other core slot uses (.inl stack))
  case ready =>
    intro slot present mine clear
    have distinct : slot ≠ current := fun same => mine.1 (congrArg some same.symm)
    apply inv.ready slot
    · rw [← others slot distinct]
      exact present
    · intro other
      by_cases same : other = core
      · rw [same]
        apply clear_settled
        · rw [running]
          rfl
        · rw [stack]
          exact mine.1
      · exact clear other same
  case valid => exact nofun

end

/-! ## Runs -/

variable {machine : Machine n m} {slot : Fin n}

lemma Inv.occupied (inv : Inv machine) {core : Fin m} (uses : Uses (machine.cores core) slot) :
    states machine slot ≠ none ∧ states machine slot ≠ some .exited := by
  have held : states machine slot = some .running ∨ states machine slot = some .runnable ∨
      states machine slot = some .blocked := by
    rcases uses with stack | claims
    · cases settled : (machine.cores core).settled with
      | true => exact .inl (inv.claimed core slot ((stack_settled settled).symm.trans stack))
      | false => exact .inr (inv.left core slot stack settled)
    · exact .inl (inv.claimed core slot claims)
  rcases held with here | here | here <;> rw [here] <;> exact ⟨nofun, nofun⟩

lemma Inv.spawn (inv : Inv machine) {prio : Priority} {table : Table n}
    (installed : machine.table.tryInstall (Table.newProcess prio) = some (slot, table)) :
    Inv { machine with
      table := table, contexts := update machine.contexts slot ⟨.forkret, false⟩ } := by
  obtain ⟨rfl, free⟩ := Table.tryInstall_slot installed
  have others : ∀ other : Fin n, other ≠ slot →
      Table.stateOf (update machine.table slot (some (Table.newProcess prio))) other =
        states machine other := by
    intro _ distinct
    rw [Table.stateOf_update, if_neg (Fin.val_ne_of_ne distinct)]
  have kept : ∀ core other, Uses (machine.cores core) other →
      Table.stateOf (update machine.table slot (some (Table.newProcess prio))) other =
        states machine other := by
    intro _ _ uses
    apply others
    rintro rfl
    have held := inv.occupied uses
    exact free.elim held.1 held.2
  constructor
  case claimed =>
    intro core other claims
    exact (kept core other (.inr claims)).trans (inv.claimed core other claims)
  case left =>
    intro core other stack leaves
    have before := inv.left core other stack leaves
    rw [← kept core other (.inl stack)] at before
    exact before
  case apart => exact inv.apart
  case ready =>
    intro other present clear
    by_cases same : other = slot
    · simp only [same, update_self]
    simp only [update_of_ne same]
    apply inv.ready other _ clear
    rw [← others other same]
    exact present
  case valid => exact inv.valid

lemma Inv.boot : Inv (boot : Machine n m) where
  claimed := nofun
  left := nofun
  apart := by
    rintro core other slot (here | here)
    · cases here
    · cases here
  ready := fun _ _ _ => rfl
  valid := nofun

/-- No core chooses a process while a Runnable one is still on the kernel stack of a core. -/
def Admitted (machine : Machine n m) (label : Fin m × Action) : Prop :=
  match label.2 with
  | .runAll | .resched | .block => Stored machine
  | _ => True

instance (machine : Machine n m) : (label : Fin m × Action) → Decidable (Admitted machine label)
  | (_, .runAll) | (_, .resched) | (_, .block) => inferInstanceAs (Decidable (Stored machine))
  | (_, .checkDeadlines _) | (_, .setDeadline _) | (_, .wake _) | (_, .spawn _) | (_, .load)
  | (_, .save) => .isTrue trivial

/-- Every admitted step keeps the invariant. -/
lemma Inv.keeps (machine : Machine n m) (label : Fin m × Action) (next : Machine n m)
    (inv : Inv machine) (admitted : Admitted machine label)
    (taken : step machine label = some next) :
    Inv next := by
  obtain ⟨core, action⟩ := label
  cases action with
  | runAll =>
    simp only [step] at taken
    split at taken
    · rename_i kernel
      obtain ⟨first, found, rfl⟩ := Option.map_eq_some_iff.mp taken
      have runnable := (Table.holds_iff machine.table .runnable first).mp
        (Table.position_test found)
      exact inv.runAll kernel runnable admitted
    · cases taken
  | resched =>
    simp only [step] at taken
    split at taken
    · rename_i current running
      have here : states machine current = some .running :=
        inv.claimed core current (by rw [running]; rfl)
      obtain ⟨chosen, _, cursor, result, outcome⟩ := switchSection_cases here .runnable
      rw [result] at taken
      cases taken
      cases chosen with
      | none =>
        apply inv.calm cursor
        intro _
        rw [outcome]
        exact .inl rfl
      | some =>
        exact inv.switched running (.inl rfl) cursor outcome.1 outcome.2.1 outcome.2.2 admitted
    · cases taken
  | block =>
    simp only [step] at taken
    split at taken
    · rename_i current running
      have here : states machine current = some .running :=
        inv.claimed core current (by rw [running]; rfl)
      obtain ⟨chosen, _, cursor, result, outcome⟩ := switchSection_cases here .blocked
      rw [result] at taken
      cases taken
      cases chosen with
      | none => exact inv.parked running cursor outcome
      | some =>
        exact inv.switched running (.inr rfl) cursor outcome.1 outcome.2.1 outcome.2.2 admitted
    · cases taken
  | setDeadline deadline =>
    simp only [step] at taken
    split at taken
    · rename_i current _
      cases taken
      exact inv.calm machine.cursor (calm_setDeadline machine.table current deadline)
    · cases taken
  | checkDeadlines now =>
    obtain ⟨-, same⟩ := Option.ite_none_right_eq_some.mp taken
    cases same
    exact inv.calm machine.cursor (calm_checkDeadlines machine.table now)
  | wake id =>
    obtain ⟨-, same⟩ := Option.ite_none_right_eq_some.mp taken
    cases same
    exact inv.calm machine.cursor (calm_wake machine.table id)
  | spawn =>
    obtain ⟨-, made⟩ := Option.ite_none_right_eq_some.mp taken
    obtain ⟨⟨_, _⟩, installed, rfl⟩ := Option.map_eq_some_iff.mp made
    exact inv.spawn installed
  | load =>
    simp only [step] at taken
    split at taken
    · rename_i leaving
      cases taken
      exact inv.load leaving
    · cases taken
  | save =>
    simp only [step] at taken
    split at taken
    · rename_i loaded
      cases taken
      apply inv.save rfl
      · rw [loaded]
        rfl
      · rw [loaded]
        exact nofun
      · exact fun _ _ => rfl
    · rename_i loaded
      cases taken
      exact inv.stored rfl (by rw [loaded]; rfl) (by rw [loaded]; rfl)
    · rename_i parking
      cases taken
      exact inv.stored rfl (by rw [parking]; rfl) (by rw [parking]; rfl)
    · cases taken

/-! ## The result -/

/-- Each context pointer that was read for a switch-in shows a context that was stored since the
process was last switched in, or its first one, and no two cores are on one kernel stack. -/
structure Safe (machine : Machine n m) : Prop where
  contexts : ∀ core source next context, machine.cores core = .loaded source next context →
    context.entered = false
  apart : ∀ core other slot, (machine.cores core).stack = some slot →
    (machine.cores other).stack = some slot → core = other

lemma Inv.safe (machine : Machine n m) (inv : Inv machine) : Safe machine :=
  ⟨inv.valid, fun core other slot one two => inv.apart core other slot (.inl one) (.inl two)⟩

/-- Over every run of any number of cores in which no core chooses a process while a Runnable one is
still on the kernel stack of a core, the context pointers that are read can be entered and the
kernel stacks in use are apart. -/
theorem switch_contexts_valid (labels : List (Fin m × Action))
    (admitted : Along step Admitted (Machine.boot : Machine n m) labels) :
    Throughout step Safe (Machine.boot : Machine n m) labels :=
  throughout_of_along Inv.keeps Inv.safe Inv.boot admitted

def handedOver : List (Fin 2 × Action) :=
  [(0, .spawn 128), (0, .spawn 128), (0, .runAll), (0, .load), (0, .save), (0, .block), (0, .load),
    (0, .save), (1, .wake 0), (1, .runAll), (1, .load), (1, .save), (0, .resched)]

/-- The run in which a process moves to another core after its context is stored. -/
theorem switch_contexts_valid_handedOver :
    (run step (Machine.boot : Machine 2 2) handedOver).isSome = true ∧
      Throughout step Safe (Machine.boot : Machine 2 2) handedOver :=
  ⟨by decide +kernel, switch_contexts_valid handedOver (by decide +kernel)⟩

def chosenEarly : List (Fin 2 × Action) :=
  [(0, .spawn 128), (0, .spawn 128), (0, .runAll), (0, .load), (0, .save), (0, .resched),
    (1, .runAll),
    (1, .load)]

/-- The other core reads the context with which the process was first switched in, and then runs on
the kernel stack that the first core is on. -/
theorem context_read_early :
    (∃ machine, run step (Machine.boot : Machine 2 2) chosenEarly = some machine ∧
      machine.cores 1 = .loaded none 0 ⟨.forkret, true⟩) ∧
    (∃ machine, run step (Machine.boot : Machine 2 2) (chosenEarly ++ [(1, .save)]) = some machine ∧
      machine.cores 0 = .leaving (some 0) 1 ∧ machine.cores 1 = .running 0) ∧
    ¬ Throughout step Safe (Machine.boot : Machine 2 2) chosenEarly := by
  have first : (run step (Machine.boot : Machine 2 2) chosenEarly).any
      (fun machine => machine.cores 1 = .loaded none 0 ⟨.forkret, true⟩) = true := by decide +kernel
  have second : (run step (Machine.boot : Machine 2 2) (chosenEarly ++ [(1, .save)])).any
      (fun machine => machine.cores 0 = .leaving (some 0) 1 ∧ machine.cores 1 = .running 0) =
      true := by
    decide +kernel
  obtain ⟨machine, reached, read⟩ := (Option.any_eq_true _ _).mp first
  obtain ⟨later, reached', both⟩ := (Option.any_eq_true _ _).mp second
  have loaded := of_decide_eq_true read
  refine ⟨⟨machine, reached, loaded⟩, ⟨later, reached', of_decide_eq_true both⟩, ?_⟩
  intro safe
  cases (safe.reached reached).contexts 1 none 0 _ loaded

/-! ## One core -/

lemma Inv.single {machine : Machine n 1} (inv : Inv machine) {core : Fin 1}
    (settled : (machine.cores core).settled = true) : Stored machine := by
  intro other slot stack runnable
  rw [Subsingleton.elim other core] at stack
  have running := inv.claimed core slot ((stack_settled settled).symm.trans stack)
  cases running.symm.trans runnable

lemma Inv.single_admitted {machine next : Machine n 1} (inv : Inv machine) (label : Fin 1 × Action)
    (taken : step machine label = some next) : Admitted machine label := by
  obtain ⟨core, action⟩ := label
  cases action with
  | runAll =>
    simp only [step] at taken
    split at taken
    · rename_i kernel
      apply inv.single
      rw [kernel]
      rfl
    · cases taken
  | resched | block =>
    simp only [step] at taken
    split at taken
    · rename_i running
      apply inv.single
      rw [running]
      rfl
    · cases taken
  | checkDeadlines | setDeadline | wake | spawn | load | save => exact trivial

/-- On one core every run is safe, whenever wakes and ticks come. -/
theorem single_core_safe (labels : List (Fin 1 × Action)) :
    Throughout step Safe (boot : Machine n 1) labels := throughout_of_invariant
    (fun machine label next inv taken =>
      Inv.keeps machine label next inv (inv.single_admitted label taken) taken)
    Inv.safe Inv.boot labels

end R9x.Verif.SwitchRuns
