import R9x.Lib.Run
import R9x.Verif.Selection

/-!
# Turns among equals

Processes of one level that are ready together get the core in turn, in the order of their slots, as
long as nobody else becomes ready: after every `switch_out` the cursor is the current slot.
-/

namespace R9x.Verif.Turns

open Lib Aarch64 Selection

variable {n : Nat}

/-- What may happen: the current process yields, or a tick comes with a counter value. -/
inductive Turn where
  | yield
  | tick (now : UInt64)
  deriving DecidableEq

/-- The core after a turn. -/
def Turn.perform : Turn → Core n → Core n
  | .yield, core => core.resched
  | .tick now, core => irqResched core now

def turnStep (core : Core n) (turn : Turn) : Option (Core n) := some (turn.perform core)

/-- The slot that has the core after some of the turns. -/
def onCore : Core n → List Turn → Nat → Option (Fin n)
  | core, _, 0 => core.tpidr
  | _, [], _ + 1 => none
  | core, turn :: turns, count + 1 => onCore (turn.perform core) turns count

/-- The turn leaves the set of ready processes as it is. -/
def KeepsReady (core : Core n) (turn : Turn) : Prop :=
  ∀ slot, ((turn.perform core).table slot).any isReady = (core.table slot).any isReady

/-- The slots that are ready at a level, in order. -/
def ties (table : Table n) (level : Priority) : List (Fin n) :=
  (List.finRange n).filter fun slot => face (table slot) = some (true, level)

/-- Several processes are ready at one level, one of them has the core, and none is more urgent. -/
structure Tied (core : Core n) (current : Fin n) (level : Priority) : Prop where
  on : core.tpidr = some current
  running : ∀ slot, Table.holds .running (core.table slot) = true ↔ slot = current
  member : current ∈ ties core.table level
  best : ∀ slot other, face (core.table slot) = some (true, other) → level ≤ other
  many : 2 ≤ (ties core.table level).length

variable {core : Core n} {current slot : Fin n} {level : Priority} {turn : Turn}

lemma mem_ties {table : Table n} : slot ∈ ties table level ↔ face (table slot) = some
    (true, level) := by
  simp [ties]

lemma ties_sorted (table : Table n) (level : Priority) : (ties table level).Pairwise (· < ·) :=
  (List.pairwise_lt_finRange n).filter _

lemma ties_congr {before after : Table n} (same : ∀ slot, face (after slot) = face (before slot)) :
    ties after level = ties before level := by
  simp only [ties, same]

lemma Tied.held (tied : Tied core current level) :
    ∃ process, core.table current = some process ∧ process.state = .running := by
  have holds := (tied.running current).mpr rfl
  obtain ⟨process, held, running⟩ := (Option.any_eq_true _ _).mp holds
  exact ⟨process, held, of_decide_eq_true running⟩

lemma Tied.runnable (tied : Tied core current level) {process : Process} (apart : slot ≠ current)
    (held : core.table slot = some process) (could : isReady process = true) :
    process.state = .runnable := by
  rw [isReady, Bool.or_eq_true, decide_eq_true_eq, decide_eq_true_eq] at could
  rcases could with running | runnable
  · have holds : Table.holds .running (core.table slot) = true := by
      rw [held]
      exact decide_eq_true running
    exact absurd ((tied.running slot).mp holds) apart
  · exact runnable

def demotedTable (core : Core n) (current : Fin n) : Table n :=
    core.table.setState current.val .runnable

section

variable (tied : Tied core current level)
include tied

lemma Tied.face_demoted (slot : Fin n) : face (demotedTable core current slot) = face
    (core.table slot) := by
  obtain ⟨process, held, running⟩ := tied.held
  have could : isReady process = true := by
    rw [isReady, running]
    rfl
  exact face_setState held could (.inr rfl)

lemma Tied.candidates (slot : Fin n) : (ready (demotedTable core current).view current slot &&
        decide (((demotedTable core current).view slot).2 = level)) = true ↔
      slot ∈ ties core.table level ∧ slot ≠ current := by
  rw [Bool.and_eq_true, decide_eq_true_eq, ready_iff, mem_ties, ← tied.face_demoted slot]
  constructor
  · rintro ⟨⟨apart, _, held, runnable⟩, same⟩
    rw [view_held held] at same
    dsimp only at same
    refine ⟨?_, apart⟩
    rw [held, face, Option.map_some, same, isReady, runnable]
    rfl
  · rintro ⟨seen, apart⟩
    obtain ⟨process, held, could, same⟩ := face_ready seen
    have before : core.table slot = some process := by
      rw [demotedTable, setState_apply, if_neg apart] at held
      exact held
    refine ⟨⟨apart, process, held, tied.runnable apart before could⟩, ?_⟩
    rw [view_held held]
    exact same

lemma Tied.least : (levels (demotedTable core current).view current).min? = some level := by
  apply List.min?_eq_some_iff.mpr
  constructor
  · have second : ∃ slot ∈ ties core.table level, slot ≠ current := by
      by_contra alone
      simp only [not_exists, not_and, not_not] at alone
      have sorted := ties_sorted core.table level
      have many := tied.many
      match order : ties core.table level with
      | [] => simp [order] at many
      | [single] => simp [order] at many
      | first :: second :: rest =>
        rw [order] at sorted alone
        have less := (List.pairwise_cons.mp sorted).1 second List.mem_cons_self
        rw [alone first List.mem_cons_self,
          alone second (List.mem_cons_of_mem _ List.mem_cons_self)] at less
        exact Fin.lt_irrefl _ less
    obtain ⟨slot, member, apart⟩ := second
    have could := (tied.candidates slot).mpr ⟨member, apart⟩
    rw [Bool.and_eq_true, decide_eq_true_eq] at could
    exact mem_levels.mpr ⟨slot, could⟩
  · intro _ among
    obtain ⟨slot, could, rfl⟩ := mem_levels.mp among
    obtain ⟨-, _, held, runnable⟩ := ready_iff.mp could
    rw [view_held held]
    apply tied.best slot
    rw [← tied.face_demoted slot, held, face, Option.map_some, isReady, runnable]
    rfl

variable {index : Nat} (cursor : core.cursor = current.val)
  (place : (ties core.table level)[index]? = some current)
include cursor place

lemma Tied.pick : pickNext (demotedTable core current).view current core.cursor =
      (ties core.table level)[(index + 1) % (ties core.table level).length]? := by
  rw [pickNext_level tied.least, cursor]
  exact Cycle.firstAround_sorted (ties_sorted core.table level) tied.many place tied.candidates

lemma Tied.resched :
    ∃ next, (ties core.table level)[(index + 1) % (ties core.table level).length]? = some next ∧
      Tied core.resched next level ∧ core.resched.cursor = next.val := by
  have positive : 0 < (ties core.table level).length := Nat.lt_of_lt_of_le Nat.zero_lt_two tied.many
  obtain ⟨next, following⟩ : ∃ next,
      (ties core.table level)[(index + 1) % (ties core.table level).length]? = some next :=
    ⟨_, List.getElem?_eq_getElem (Nat.mod_lt _ positive)⟩
  have picked := (tied.pick cursor place).trans following
  obtain ⟨_, held, _⟩ := tied.held
  have holds : Table.holds .running (core.table current) = true := (tied.running current).mpr rfl
  have present : (core.table current).isNone = false := by
    rw [held]
    rfl
  have after : core.resched = { core with
      table := (demotedTable core current).setState next.val .running
      cursor := next.val
      tpidr := some next
      mode := .process (core.resume next)
      resume := Function.update core.resume current .el0 } := by
    have chosen : pickNext (core.table.setState current.val .runnable).view current core.cursor =
      some next := picked
    rw [Core.resched]
    simp only [Core.switchOut, tied.on, present, Bool.false_eq_true, if_false, holds,
      if_true, chosen]
    rfl
  obtain ⟨_, _, found, _⟩ := ready_iff.mp (pickNext_best picked).1
  have same : ties core.resched.table level = ties core.table level :=
    ties_congr (face_resched core)
  refine ⟨next, following, ⟨by rw [after], ?_, ?_, ?_, ?_⟩, by rw [after]⟩
  · intro slot
    rw [after]
    dsimp only
    rw [setState_apply]
    by_cases chosenSlot : slot = next
    · subst chosenSlot
      rw [if_pos rfl, found]
      exact ⟨fun _ => rfl, fun _ => rfl⟩
    rw [if_neg chosenSlot, demotedTable, setState_apply]
    refine ⟨?_, fun equal => absurd equal chosenSlot⟩
    by_cases old : slot = current
    · subst old
      rw [if_pos rfl, held]
      intro impossible
      cases impossible
    rw [if_neg old]
    intro contrary
    exact absurd ((tied.running slot).mp contrary) old
  · rw [same]
    exact List.mem_of_getElem? following
  · intro slot other seen
    exact tied.best slot other ((face_resched core slot).symm.trans seen)
  · rw [same]
    exact tied.many

end

lemma perform_steady (steady : KeepsReady core turn) (on : core.tpidr = some current) :
    turn.perform core = core.resched := by
  cases turn with
  | yield => rfl
  | tick now =>
    let checked : Core n := { core with table := core.table.checkDeadlines now }
    have performed : Turn.perform (.tick now) core = checked.resched := by
      have current : (core.wakeAll []).tpidr = _ := on
      unfold Turn.perform irqResched Core.interrupt
      simp only [current]
      rw [← on]
      rfl
    have asleep : ∀ slot process, core.table slot = some process → Table.expired now process =
      false := by
      intro slot process held
      apply Bool.eq_false_iff.mpr
      intro expired
      have before : (core.table slot).any isReady = false := by
        have blocked : process.state = .blocked := (of_decide_eq_true expired).1
        rw [held]
        change isReady process = false
        rw [isReady, blocked]
        rfl
      have woken : checked.table slot = some { process with state := .runnable, deadline :=
        none } := by
        change (core.table slot).map _ = _
        rw [held, Option.map_some, if_pos expired]
      have after : ((Turn.perform (.tick now) core).table slot).any isReady = true := by
        have seen := face_resched checked slot
        rw [woken] at seen
        obtain ⟨_, found, could, -⟩ := face_ready seen
        rw [performed, found]
        exact could
      exact Bool.false_ne_true (before.symm.trans ((steady slot).symm.trans after))
    have unchanged : core.table.checkDeadlines now = core.table := by
      funext slot
      rw [Table.checkDeadlines]
      cases held : core.table slot with
      | none => rfl
      | some process =>
        rw [Option.map_some, if_neg (Bool.eq_false_iff.mp (asleep slot process held))]
    rw [performed]
    change ({ core with table := core.table.checkDeadlines now } : Core n).resched = core.resched
    rw [unchanged]

lemma Tied.goes_around (tied : Tied core current level) (cursor : core.cursor = current.val)
    {start : Nat}
    (place : (ties core.table level)[start % (ties core.table level).length]? = some current)
    {turns : List Turn}
    (steady : Along turnStep KeepsReady core turns) {count : Nat} (within : count ≤ turns.length) :
    onCore core turns count =
      (ties core.table level)[(start + count) % (ties core.table level).length]? := by
  induction turns generalizing core current start count with
  | nil =>
    obtain rfl := Nat.le_zero.mp within
    rw [onCore, tied.on, Nat.add_zero, place]
  | cons _ _ ih =>
    cases count with
    | zero => rw [onCore, tied.on, Nat.add_zero, place]
    | succ count =>
      obtain ⟨steadyNow, later⟩ := steady _ rfl
      have performed := perform_steady steadyNow tied.on
      obtain ⟨_, following, tiedNext, cursorNext⟩ := tied.resched cursor place
      have same : ties core.resched.table level = ties core.table level :=
        ties_congr (face_resched core)
      rw [Nat.mod_add_mod, ← same] at following
      rw [performed] at later
      rw [onCore, performed, ih tiedNext cursorNext following later (Nat.le_of_succ_le_succ within),
        same,
        Nat.add_assoc, Nat.add_comm 1 count]

/-- From a state that a switch of `switch_out` reached, with at least two processes ready at one
level and none more urgent, every sequence of yields and ticks that leaves the ready processes as
they are gives the core to those processes in the order of their slots, again and again. Between two
times at which one of them gets the core each other one gets it exactly once, and no other process
gets it. -/
theorem equals_take_turns {before core : Core n} {demoteTo : State} {current : Fin n}
    {level : Priority}
    (switched : before.switchOut demoteTo = .ok (true, core)) (tied : Tied core current level)
    (turns : List Turn)
    (steady : Along turnStep KeepsReady core turns) :
    (∃ start, ∀ i ≤ turns.length, onCore core turns i =
      (ties core.table level)[(start + i) % (ties core.table level).length]?) ∧
    (∀ i j slot other, i < j → j ≤ turns.length → onCore core turns i = some slot →
      onCore core turns j = some slot → (∀ k, i < k → k < j → onCore core turns k ≠ some slot) →
      other ∈ ties core.table level → other ≠ slot →
      ∃ k, i < k ∧ k < j ∧ onCore core turns k = some other ∧
        ∀ l, i < l → l < j → onCore core turns l = some other → l = k) ∧
    ∀ i ≤ turns.length, ∃ slot ∈ ties core.table level, onCore core turns i = some slot := by
  have cursor : core.cursor = current.val := by
    have on := tied.on
    rw [Core.switchOut] at switched
    split at switched
    · cases switched
    split at switched
    · cases switched
    dsimp only at switched
    split at switched
    · cases switched
    obtain rfl := congrArg Prod.snd (Except.ok.inj switched)
    exact congrArg Fin.val (Option.some.inj on)
  have positive : 0 < (ties core.table level).length := Nat.lt_of_lt_of_le Nat.zero_lt_two tied.many
  obtain ⟨start, inside, here⟩ := List.getElem_of_mem tied.member
  have place : (ties core.table level)[start % (ties core.table level).length]? = some current := by
    rw [Nat.mod_eq_of_lt inside, List.getElem?_eq_getElem inside, here]
  have around : ∀ i ≤ turns.length, onCore core turns i =
      (ties core.table level)[(start + i) % (ties core.table level).length]? :=
    fun i within => tied.goes_around cursor place steady within
  refine ⟨⟨start, around⟩, ?_, ?_⟩
  · intro i _ _ _ ordered upto first again apart member different
    have distinct : (ties core.table level).Nodup := (ties_sorted core.table level).imp Fin.ne_of_lt
    apply Cycle.once_between distinct (fun i below => around i (Nat.le_of_lt_succ below)) ordered
      (Nat.lt_succ_of_le upto) (first.trans again.symm) _ member
    · rw [first]
      exact fun same => different (Option.some.inj same).symm
    · intro k after sooner
      rw [first]
      exact apart k after sooner
  · intro i within
    have inside := Nat.mod_lt (start + i) positive
    rw [around i within, List.getElem?_eq_getElem inside]
    exact ⟨_, List.getElem_mem inside, rfl⟩

def threeEquals : Core 3 where
  table slot :=
  some { Table.newProcess defaultPriority with state := if slot = 0 then .running
    else .runnable }
  tpidr := some 0
  cursor := 0
  mode := .process .el0
  resume _ := .el0

def secondOfThree : Core 3 := threeEquals.resched

/-- Three equals take turns over two yields and a tick. -/
theorem equals_take_turns_three :
    threeEquals.switchOut .runnable = .ok (true, secondOfThree) ∧
      Tied secondOfThree 1 defaultPriority ∧
      (∃ start, ∀ i ≤ 3, onCore secondOfThree [.yield, .tick 5, .yield] i =
        (ties secondOfThree.table defaultPriority)[(start + i) %
          (ties secondOfThree.table defaultPriority).length]?) ∧
      onCore secondOfThree [.yield, .tick 5, .yield] 3 = some 1 := by
  have switched : threeEquals.switchOut .runnable = .ok (true, secondOfThree) := rfl
  have level : ∀ slot, face (secondOfThree.table slot) = some (true, defaultPriority) := by decide
  have tied : Tied secondOfThree 1 defaultPriority := by
    refine ⟨rfl, by decide, mem_ties.mpr (level 1), ?_, by decide⟩
    intro slot other seen
    have same := Option.some.inj ((level slot).symm.trans seen)
    have equal : defaultPriority = other := congrArg Prod.snd same
    rw [equal]
    exact UInt8.le_refl _
  have steady : Along turnStep KeepsReady secondOfThree [.yield, .tick 5, .yield] := by
    intro first taken
    cases taken
    refine ⟨by rw [KeepsReady]; decide, ?_⟩
    intro second taken
    cases taken
    refine ⟨by rw [KeepsReady]; decide, ?_⟩
    intro third taken
    exact ⟨by rw [KeepsReady]; decide, trivial⟩
  exact ⟨switched, tied, (equals_take_turns switched tied _ steady).1, by decide⟩

end R9x.Verif.Turns
