import Mathlib.Algebra.Ring.Nat
import Mathlib.Logic.Basic

/-!
# Runs of partial step functions

A transition system is a partial step function over an arbitrary label type; a label that is not
enabled in a state has no successor there.
-/

namespace R9x.Lib

variable {σ τ α : Type*} {step : σ → α → Option σ} {labels : List α} {guard : σ → α → Prop}
  {good : σ → Prop} {state : σ}

/-- Take the labelled steps in order; a label that is not enabled ends the run without a state. -/
def run (step : σ → α → Option σ) : σ → List α → Option σ
  | state, [] => some state
  | state, label :: labels => (step state label).bind fun next => run step next labels

/-- Every state of the run, the first one included, satisfies the property. -/
def Throughout (step : σ → α → Option σ) (good : σ → Prop) : σ → List α → Prop
  | state, [] => good state
  | state, label :: labels =>
    good state ∧ ∀ next, step state label = some next → Throughout step good next labels

/-- Every step the run takes meets the guard in the state it starts from. -/
def Along (step : σ → α → Option σ) (guard : σ → α → Prop) : σ → List α → Prop
  | _, [] => True
  | state, label :: labels =>
    ∀ next, step state label = some next → guard state label ∧ Along step guard next labels

/-- A decidable guard can be checked along a concrete run. -/
instance decidableAlong (step : σ → α → Option σ) (guard : σ → α → Prop)
    [∀ state label, Decidable (guard state label)] :
    (state : σ) → (labels : List α) → Decidable (Along step guard state labels)
  | _, [] => .isTrue trivial
  | state, label :: labels =>
    match taken : step state label with
    | none => .isTrue fun _ enabled => nomatch taken.symm.trans enabled
    | some next =>
      let _ := decidableAlong step guard next labels
      decidable_of_iff (guard state label ∧ Along step guard next labels)
        ⟨fun met _ same => Option.some.inj (taken.symm.trans same) ▸ met, fun met => met next taken⟩

lemma Throughout.here (all : Throughout step good state labels) : good state := by
  cases labels with
  | nil => exact all
  | cons => exact all.1

lemma Throughout.reached {final : σ} (all : Throughout step good state labels)
    (runs : run step state labels = some final) : good final := by
  induction labels generalizing state with
  | nil => exact Option.some.inj runs ▸ all
  | cons _ _ ih =>
    obtain ⟨next, taken, rest⟩ := Option.bind_eq_some_iff.mp runs
    exact ih (all.2 next taken) rest

lemma along_of_forall (meets : ∀ state label, guard state label) (state : σ) (labels : List α) :
    Along step guard state labels := by
  induction labels generalizing state with
  | nil => exact trivial
  | cons label _ ih => exact fun next _ => ⟨meets state label, ih next⟩

section

variable {inv : σ → Prop}
  (keeps : ∀ state label next, inv state → guard state label → step state label = some next →
    inv next)
include keeps

lemma throughout_of_along (implies : ∀ state, inv state → good state)
    (start : inv state) (met : Along step guard state labels) :
    Throughout step good state labels := by
  induction labels generalizing state with
  | nil => exact implies state start
  | cons label _ ih =>
    refine ⟨implies state start, fun next taken => ?_⟩
    obtain ⟨admitted, later⟩ := met next taken
    exact ih (keeps state label next start admitted taken) later

lemma run_invariant_along {final : σ} (start : inv state)
    (met : Along step guard state labels) (reached : run step state labels = some final) :
    inv final :=
  (throughout_of_along keeps (fun _ => id) start met).reached reached

lemma along_of_along {other : σ → α → Prop}
    (implies : ∀ state label next, inv state → guard state label → step state label = some next →
      other state label) (start : inv state)
    (met : Along step guard state labels) : Along step other state labels := by
  induction labels generalizing state with
  | nil => exact trivial
  | cons label _ ih =>
    intro next taken
    obtain ⟨admitted, later⟩ := met next taken
    exact ⟨implies state label next start admitted taken,
      ih (keeps state label next start admitted taken) later⟩

lemma throughout_iff_along (implies : ∀ state, inv state → good state)
    (needed : ∀ state label next, inv state → step state label = some next → good next →
      guard state label)
    (start : inv state) :
    Throughout step good state labels ↔ Along step guard state labels := by
  refine ⟨fun all => ?_, throughout_of_along keeps implies start⟩
  induction labels generalizing state with
  | nil => exact trivial
  | cons label _ ih =>
    intro next taken
    have admitted := needed state label next start taken (all.2 next taken).here
    exact ⟨admitted, ih (keeps state label next start admitted taken) (all.2 next taken)⟩

end

lemma throughout_of_invariant {inv : σ → Prop}
    (keeps : ∀ state label next, inv state → step state label = some next → inv next)
    (implies : ∀ state, inv state → good state) (start : inv state) (labels : List α) :
    Throughout step good state labels :=
  throughout_of_along (fun state label next held _ => keeps state label next held) implies start
    (along_of_forall (fun _ _ => trivial) state labels)

lemma run_invariant (inv : σ → Prop)
    (keeps : ∀ state label next, inv state → step state label = some next → inv next)
    {final : σ} (start : inv state) (reached : run step state labels = some final) : inv final :=
  (throughout_of_invariant keeps (fun _ => id) start labels).reached reached

end R9x.Lib
