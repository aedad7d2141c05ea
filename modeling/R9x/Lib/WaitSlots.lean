import Mathlib.Algebra.Ring.Nat
import Mathlib.Logic.Function.Basic

/-!
# Single wait slots

Parties wait at places, each in one request at a time; a place has one slot for the requests of a
kind.
-/

namespace R9x.Lib.WaitSlots

open Function (update update_self update_of_ne)

variable {ι κ γ : Type*}

/-- A party waits at a place in a request of a kind. -/
def WaitsIn (waiting : ι → Option (κ × γ)) (kind : γ → Bool) (party : ι) (place : κ) : Prop :=
  ∃ request, waiting party = some (place, request) ∧ kind request = true

/-- Every waiting party is in the slot of its place. -/
def Covers (slot : κ → Option ι) (waiting : ι → Option (κ × γ)) (kind : γ → Bool) : Prop :=
  ∀ place party, WaitsIn waiting kind party place → slot place = some party

/-- The slots hold exactly the waiting parties. -/
def Names (slot : κ → Option ι) (waiting : ι → Option (κ × γ)) (kind : γ → Bool) : Prop :=
  ∀ place party, slot place = some party ↔ WaitsIn waiting kind party place

variable {slot slot' : κ → Option ι} {waiting waiting' : ι → Option (κ × γ)} {kind : γ → Bool}

lemma not_waitsIn {party : ι} (idle : waiting party = none) (place : κ) :
    ¬ WaitsIn waiting kind party place := by
  rintro ⟨_, waits, -⟩
  rw [idle] at waits
  contradiction

variable {gone : ι → Prop}

lemma waitsIn_remove [DecidablePred gone]
    (removed : waiting' = fun party => if gone party then none else waiting party) (party : ι)
    (place : κ) :
    WaitsIn waiting' kind party place ↔ WaitsIn waiting kind party place ∧ ¬ gone party := by
  unfold WaitsIn
  rw [removed]
  by_cases left : gone party <;> simp [left]

variable {me : ι} {place : κ} {request : γ}

lemma waitsIn_record [DecidableEq ι]
    (recorded : waiting' = update waiting me (some (place, request)))
    (party : ι) (other : κ) :
    WaitsIn waiting' kind party other ↔ if party = me then other = place ∧ kind request = true
      else WaitsIn waiting kind party other := by
  unfold WaitsIn
  rw [recorded]
  by_cases same : party = me
  · subst same
    simp only [update_self, Option.some.injEq, Prod.mk.injEq, ↓reduceIte]
    constructor
    · rintro ⟨_, ⟨rfl, rfl⟩, kind⟩
      exact ⟨rfl, kind⟩
    · rintro ⟨rfl, kind⟩
      exact ⟨request, ⟨rfl, rfl⟩, kind⟩
  · simp only [update_of_ne same, same, ↓reduceIte]

section

variable (names : Names slot waiting kind)
include names

lemma Names.remove [DecidablePred gone]
    (removed : waiting' = fun party => if gone party then none else waiting party)
    (slots : ∀ place party, slot' place = some party ↔ slot place = some party ∧ ¬ gone party) :
    Names slot' waiting' kind := by
  intro _ _
  rw [slots, names, waitsIn_remove removed]

lemma Names.record [DecidableEq ι] [DecidableEq κ] (idle : waiting me = none)
    (free : slot place = none)
    (matching : kind request = true)
    (recorded : waiting' = update waiting me (some (place, request)))
    (slots : slot' = update slot place (some me)) : Names slot' waiting' kind := by
  intro other party
  rw [slots, waitsIn_record recorded]
  by_cases here : other = place
  · subst here
    rw [update_self]
    by_cases self : party = me
    · simp [self, matching]
    rw [if_neg self, ← names, free]
    simp [Ne.symm self]
  rw [update_of_ne here, names]
  by_cases self : party = me
  · subst self
    simp [here, not_waitsIn idle other]
  · rw [if_neg self]

lemma Names.ignore [DecidableEq ι] (idle : waiting me = none) (other : kind request = false)
    (recorded : waiting' = update waiting me (some (place, request)))
    (slots : slot' = slot) : Names slot' waiting' kind := by
  intro elsewhere party
  rw [slots, names, waitsIn_record recorded]
  by_cases self : party = me
  · subst self
    simp [other, not_waitsIn idle elsewhere]
  · rw [if_neg self]

end

variable (covers : Covers slot waiting kind)
include covers

lemma Covers.remove [DecidablePred gone]
    (removed : waiting' = fun party => if gone party then none else waiting party)
    (slots : ∀ place party, slot place = some party → ¬ gone party → slot' place = some party) :
    Covers slot' waiting' kind := by
  intro place party waits
  obtain ⟨waited, stays⟩ := (waitsIn_remove removed party place).mp waits
  exact slots place party (covers place party waited) stays

lemma Covers.record [DecidableEq ι] [DecidableEq κ]
    (only : ∀ party, WaitsIn waiting kind party place → party = me)
    (recorded : waiting' = update waiting me (some (place, request)))
    (slots : slot' = update slot place (some me)) : Covers slot' waiting' kind := by
  intro other party waits
  rw [waitsIn_record recorded] at waits
  rw [slots]
  by_cases self : party = me
  · subst self
    simp only [↓reduceIte] at waits
    rw [waits.1, update_self]
  rw [if_neg self] at waits
  have here : other ≠ place := by
    rintro rfl
    exact self (only party waits)
  rw [update_of_ne here]
  exact covers other party waits

lemma Covers.overwrite [DecidableEq κ] (unused : ∀ party, ¬ WaitsIn waiting kind party place)
    {value : Option ι} (slots : slot' = update slot place value) : Covers slot' waiting kind := by
  intro other party waits
  have here : other ≠ place := by
    rintro rfl
    exact unused party waits
  rw [slots, update_of_ne here]
  exact covers other party waits

lemma Covers.ignore [DecidableEq ι] (other : kind request = false)
    (recorded : waiting' = update waiting me (some (place, request))) (slots : slot' = slot) :
    Covers slot' waiting' kind := by
  intro elsewhere party waits
  rw [waitsIn_record recorded] at waits
  rw [slots]
  by_cases self : party = me
  · simp [self, other] at waits
  rw [if_neg self] at waits
  exact covers elsewhere party waits

end R9x.Lib.WaitSlots
