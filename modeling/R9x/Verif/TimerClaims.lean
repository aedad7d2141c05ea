import R9x.Aarch64.TimerCores
import R9x.Lib.Run

/-!
# Claims of expiries on many cores

Every core that takes the timer interrupt tries to claim the expiry of a periodic timer by
exchanging its deadline.
-/

namespace R9x.Verif.TimerClaims

open Lib Aarch64 Aarch64.TimerCores
open Aarch64.Timer (Cells)

variable {κ : Type} [DecidableEq κ]

/-- A deadline moves to the first one after now, by whole periods. -/
structure Advances (period now deadline next : Nat) : Prop where
  due : deadline ≤ now
  later : now < next
  soon : next ≤ now + period
  phase : next % period = deadline % period

/-- What a handler holds. -/
def Holds (period : Nat) : Place → Prop
  | .due now deadline => deadline ≤ now
  | .exchange now deadline next => Advances period now deadline next
  | _ => True

/-- The claims are linked: each is of the deadline that the one before it installed. -/
def Linked (start : Nat) : List (Fire κ) → Nat → Prop
  | [], current => current = start
  | fire :: fires, current => fire.next = current ∧ Linked start fires fire.deadline

def Moves (period : Nat) (fire : Fire κ) : Prop := Advances period fire.now fire.deadline fire.next

/-- The claims of a periodic timer: each is of a deadline that was due, installs the first one after
the counter that was read, in phase with the first, and no deadline is claimed twice. -/
structure Periodic (period start : Nat) (fires : List (Fire κ)) : Prop where
  moves : ∀ fire ∈ fires, Moves period fire
  order : fires.Pairwise fun later earlier => earlier.deadline < later.deadline
  phase : ∀ fire ∈ fires, fire.deadline % period = start % period

/-- The invariant, with what each core has claimed. -/
structure Inv (period start : Nat) (cores : Cores κ) : Prop where
  positive : 0 < period
  ticks : cores.cells.periodTicks = period
  places : ∀ core, Holds period (cores.place core)
  linked : Linked start cores.fires cores.cells.deadlineTicks
  moves : ∀ fire ∈ cores.fires, Moves period fire

variable {period start : Nat} {cores next : Cores κ} {core : κ}

lemma nextDeadline_advances {cells : Cells} {now value : Nat}
    (computed : Timer.Core.nextDeadline cells now = some value) (positive : 0 < cells.periodTicks)
    (due : cells.deadlineTicks ≤ now) :
    Advances cells.periodTicks now cells.deadlineTicks value := by
  rw [Timer.Core.nextDeadline, if_neg (by omega)] at computed
  obtain ⟨product, multiplied, added⟩ := Option.bind_eq_some_iff.mp computed
  obtain ⟨rfl, -⟩ := checkedMul_some multiplied
  obtain ⟨rfl, -⟩ := checkedAdd_some added
  have divided := Nat.div_add_mod (now - cells.deadlineTicks) cells.periodTicks
  have rest := Nat.mod_lt (now - cells.deadlineTicks) positive
  have whole : ((now - cells.deadlineTicks) / cells.periodTicks + 1) * cells.periodTicks =
      cells.periodTicks * ((now - cells.deadlineTicks) / cells.periodTicks) +
        cells.periodTicks := by
    rw [Nat.add_mul, Nat.one_mul, Nat.mul_comm]
  exact ⟨due, by omega, by omega, Nat.add_mul_mod_self_right _ _ _⟩

lemma Inv.goto (inv : Inv period start cores) {place : Place} (holds : Holds period place) :
    Inv period start (cores.goto core place) :=
  { inv with
    places := (Function.forall_update_iff cores.place fun _ => Holds period).mpr
      ⟨holds, fun other _ => inv.places other⟩ }

lemma Inv.access (inv : Inv period start cores) (taken : cores.access core = some next) :
    Inv period start next := by
  have held := inv.places core
  rw [Cores.access] at taken
  generalize cores.place core = place at taken held
  cases place with
  | out | firing =>
    cases taken
  | copied =>
    cases taken
    exact inv.goto trivial
  | scanning =>
    cases taken
    split
    · exact inv.goto trivial
    · exact inv.goto trivial
  | active =>
    cases taken
    split
    · exact inv.goto trivial
    rename_i due
    exact inv.goto (Nat.le_of_not_lt due)
  | due =>
    obtain ⟨_, computed, rfl⟩ := Option.map_eq_some_iff.mp taken
    have positive := inv.positive
    rw [← inv.ticks] at positive
    have advances := nextDeadline_advances computed positive held
    exact inv.goto (inv.ticks ▸ advances)
  | exchange now deadline =>
    dsimp only at taken
    split at taken
    · -- the deadline in force is the one that the handler has loaded
      rename_i found
      cases taken
      have moved : Inv period start (cores.goto core .firing) := inv.goto trivial
      exact { moved with
        linked := ⟨rfl, found ▸ inv.linked⟩
        moves := List.forall_mem_cons.mpr ⟨held, inv.moves⟩ }
    cases taken
    exact inv.goto trivial
  | stopping =>
    cases taken
    have moved : Inv period start (cores.goto core .out) := inv.goto trivial
    exact { moved with }

lemma Inv.step (cores : Cores κ) (label : Label κ) (next : Cores κ) (inv : Inv period start cores)
    (taken : cores.step label = some next) : Inv period start next := by
  cases label with
  | tick ticks | cancel =>
    cases taken
    exact { inv with }
  | interrupt =>
    simp only [Cores.step] at taken
    split at taken
    · cases taken
      exact inv.goto trivial
    · cases taken
  | access => exact inv.access taken
  | fired =>
    simp only [Cores.step] at taken
    split at taken
    · cases taken
      split
      · exact inv.goto trivial
      · exact inv.goto trivial
    · cases taken

omit [DecidableEq κ] in
lemma Linked.periodic {fires : List (Fire κ)} {current : Nat} (linked : Linked start fires current)
    (moves : ∀ fire ∈ fires, Moves period fire) :
    Periodic period start fires ∧ current % period = start % period ∧
      ∀ fire ∈ fires, fire.deadline < current := by
  induction fires generalizing current with
  | nil =>
    exact ⟨⟨moves, .nil, fun _ none => by cases none⟩, congrArg (· % period) linked,
      fun _ none => by cases none⟩
  | cons fire _ ih =>
    obtain ⟨rfl, linked⟩ := linked
    obtain ⟨here, earlier⟩ := List.forall_mem_cons.mp moves
    obtain ⟨periodic, phase, below⟩ := ih linked earlier
    have rises : fire.deadline < fire.next := Nat.lt_of_le_of_lt here.due here.later
    refine ⟨⟨moves, List.pairwise_cons.mpr ⟨below, periodic.order⟩,
      List.forall_mem_cons.mpr ⟨phase, periodic.phase⟩⟩, here.phase.trans phase,
      List.forall_mem_cons.mpr ⟨rises, fun other member => Nat.lt_trans (below other member) rises⟩⟩

/-- A timer that has been started, which no handler has copied yet. -/
def registered (counter period start : Nat) (active : Bool) : Cores κ :=
  ⟨counter, ⟨start, period, active⟩, fun _ => .out, []⟩

/-- From the registration of a periodic timer, on every number of cores and in every interleaving of
single operations: each claim is of a deadline that is due at the counter that the handler has read,
and moves it by whole periods to the first deadline after that; the deadlines that are claimed rise,
so that none is claimed twice, and stay in phase with the first. -/
theorem periodic_claims (counter period start : Nat) (active : Bool) (positive : 0 < period)
    (labels : List (Label κ)) :
    Throughout Cores.step (fun after => Periodic period start after.fires)
      (registered counter period start active) labels := by
  have inv : Inv period start (registered counter period start active : Cores κ) :=
    ⟨positive, rfl, fun _ => trivial, rfl, fun _ none => by cases none⟩
  exact throughout_of_invariant Inv.step (fun _ inv => (inv.linked.periodic inv.moves).1) inv labels

/-- Two cores load the deadline 3 of a timer of period 2 before one of them exchanges it. -/
def bothDue : List (Label Bool) :=
  [.interrupt false, .interrupt true] ++ (List.replicate 5 [.access false, .access true]).flatten

/-- Both cores find the timer due; one claims it. -/
theorem periodic_claims_bothDue : ((run Cores.step (registered 5 2 3 true) bothDue).map fun after =>
      after.fires.map fun fire => (fire.core, fire.deadline, fire.next)) = some [(false, 3, 7)] ∧
    Throughout Cores.step (fun after => Periodic 2 3 after.fires) (registered 5 2 3 true) bothDue :=
  ⟨by decide +kernel, periodic_claims 5 2 3 true (by decide) bothDue⟩

end R9x.Verif.TimerClaims
