import Mathlib.Algebra.Ring.Nat
import Mathlib.Data.List.AList

/-!
# Finite maps in slots

A fixed row of slots, each of which may hold one binding of a key to a value.
-/

namespace R9x.Lib

universe u

variable {α κ ν : Type u}

/-- Change the first element that passes a test. -/
def updateFirst (test : α → Bool) (change : α → α) : List α → Option (List α)
  | [] => none
  | slot :: slots =>
    if test slot then some (change slot :: slots)
    else (updateFirst test change slots).map fun after => slot :: after

lemma updateFirst_none {test : α → Bool} {change : α → α} {slots : List α}
    (missing : updateFirst test change slots = none) : ∀ slot ∈ slots, test slot = false := by
  induction slots with
  | nil => exact nofun
  | cons _ _ ih =>
    rw [updateFirst] at missing
    split at missing
    · cases missing
    rename_i failed
    rw [List.forall_mem_cons]
    exact ⟨Bool.eq_false_iff.mpr failed, ih (Option.map_eq_none_iff.mp missing)⟩

/-- The first element that passes the test is changed, between those before it and those after it.
-/
inductive Updated (test : α → Bool) (change : α → α) : List α → List α → Prop
  | mk (front : List α) (slot : α) (rest : List α) (first : ∀ other ∈ front, test other = false)
    (passes : test slot = true) :
    Updated test change (front ++ slot :: rest) (front ++ change slot :: rest)

section

variable {after : List α} {test : α → Bool} {slots : List α} {change : α → α}
    (changed : updateFirst test change slots = some after)
include changed

lemma updateFirst_some : Updated test change slots after := by
  induction slots generalizing after with
  | nil => cases changed
  | cons slot slots ih =>
    rw [updateFirst] at changed
    split at changed
    · rename_i passes
      rw [← Option.some.inj changed]
      exact .mk [] slot slots nofun passes
    rename_i failed
    obtain ⟨_, inner, rfl⟩ := Option.map_eq_some_iff.mp changed
    cases ih inner with
    | mk front found rest first passes =>
      apply Updated.mk (slot :: front) found rest _ passes
      rw [List.forall_mem_cons]
      exact ⟨Bool.eq_false_iff.mpr failed, first⟩

lemma updateFirst_length : after.length = slots.length := by
  cases updateFirst_some changed with
  | mk => simp

end

section

variable {test : α → Bool} {content other : α} {slots after : List α}
  (updated : Updated test (fun _ => content) slots after)
include updated

lemma Updated.mem : content ∈ after := by
  cases updated with
  | mk front => exact List.mem_append_right front List.mem_cons_self

lemma Updated.mem_of_mem (member : other ∈ slots) (fails : test other = false) : other ∈ after := by
  cases updated with
  | mk _ slot _ _ passes =>
    have different : other ≠ slot := by
      intro same
      rw [same, passes] at fails
      cases fails
    simp only [List.mem_append, List.mem_cons, different, false_or] at member ⊢
    exact member.imp_right Or.inr

lemma Updated.count_le_one [BEq α] [LawfulBEq α] (missing : content ∉ slots)
    (once : slots.count other ≤ 1) : after.count other ≤ 1 := by
  cases updated with
  | mk =>
    by_cases same : content = other
    · rw [same] at missing
      have none := List.count_eq_zero.mpr missing
      rw [List.count_append, List.count_cons] at none ⊢
      split <;> omega
    rw [List.count_append, List.count_cons] at once
    rw [List.count_append, List.count_cons_of_ne same]
    omega

end

variable (binding : α → Option (Σ _ : κ, ν))

/-- The row holds the bindings of the map. -/
def Represents (slots : List α) (map : AList fun _ : κ => ν) : Prop :=
  (slots.filterMap binding).Perm map.entries

section

variable {slots : List α} {map : AList fun _ : κ => ν} {binding : α → Option (Σ _ : κ, ν)}
    (represents : Represents binding slots map)
include represents

lemma Represents.nodup : (slots.filterMap binding).NodupKeys :=
  (List.perm_nodupKeys represents).mpr map.nodupKeys

lemma Represents.length_le : map.entries.length ≤ slots.length := by
  rw [← represents.length_eq]
  exact List.length_filterMap_le _ _

lemma Represents.full {change : α → α}
    (missing : updateFirst (fun slot => (binding slot).isNone) change slots = none) :
    map.entries.length = slots.length := by
  rw [← represents.length_eq]
  have filled := updateFirst_none missing
  clear represents missing
  induction slots with
  | nil => rfl
  | cons slot _ ih =>
    obtain ⟨here, later⟩ := List.forall_mem_cons.mp filled
    cases held : binding slot with
    | none =>
      rw [held] at here
      cases here
    | some =>
      rw [List.filterMap_cons_some held, List.length_cons, List.length_cons, ih later]

end

variable [DecidableEq κ]

/-- The slot holds a binding of the key. -/
def holdsKey (key : κ) (slot : α) : Bool := (binding slot).any fun pair => pair.1 = key

lemma holdsKey_iff {key : κ} {slot : α} :
    holdsKey binding key slot = true ↔ ∃ value, binding slot = some ⟨key, value⟩ := by
  unfold holdsKey
  cases binding slot with
  | none => simp
  | some =>
    simp [Sigma.ext_iff]

namespace Represents

variable {binding} {slots after : List α} {map : AList fun _ : κ => ν} {key : κ} {value : ν}
  {change : α → α}

section

variable (represents : Represents binding slots map)
include represents

lemma mem_iff : key ∈ map ↔ ∃ slot ∈ slots, holdsKey binding key slot = true := by
  have keys : key ∈ map ↔ key ∈ (slots.filterMap binding).keys :=
    (represents.map Sigma.fst).mem_iff.symm
  rw [keys, List.mem_keys]
  constructor
  · rintro ⟨value, listed⟩
    obtain ⟨slot, here, held⟩ := List.mem_filterMap.mp listed
    exact ⟨slot, here, (holdsKey_iff binding).mpr ⟨value, held⟩⟩
  · rintro ⟨slot, here, holds⟩
    obtain ⟨value, held⟩ := (holdsKey_iff binding).mp holds
    exact ⟨value, List.mem_filterMap.mpr ⟨slot, here, held⟩⟩

lemma known (changed : updateFirst (holdsKey binding key) change slots = some after) :
    key ∈ map := by
  cases updateFirst_some changed with
  | mk _ slot _ _ passes =>
    exact represents.mem_iff.mpr ⟨slot, List.mem_append_right _ List.mem_cons_self, passes⟩

lemma unknown (missing : updateFirst (holdsKey binding key) change slots = none) : key ∉ map := by
  intro bound
  obtain ⟨slot, here, holds⟩ := represents.mem_iff.mp bound
  rw [updateFirst_none missing slot here] at holds
  cases holds

lemma lookup (key : κ) :
    ((slots.find? (holdsKey binding key)).bind fun slot => (binding slot).map Sigma.snd) =
      map.lookup key := by
  have same : map.lookup key = (slots.filterMap binding).dlookup key :=
    (List.perm_dlookup key represents.nodup represents).symm
  rw [same]
  clear represents same
  induction slots with
  | nil => rfl
  | cons slot _ ih =>
    cases held : binding slot with
    | none =>
      have other : ¬ holdsKey binding key slot = true := by simp [holdsKey, held]
      rw [List.find?_cons_of_neg other, List.filterMap_cons_none held]
      exact ih
    | some pair =>
      obtain ⟨name, value⟩ := pair
      rw [List.filterMap_cons_some held]
      by_cases same : name = key
      · subst same
        have here : holdsKey binding name slot = true := (holdsKey_iff binding).mpr ⟨value, held⟩
        rw [List.find?_cons_of_pos here, List.dlookup_cons_eq]
        simp [held]
      have other : ¬ holdsKey binding key slot = true := by simp [holdsKey, held, same]
      rw [List.find?_cons_of_neg other, List.dlookup_cons_ne _ _ fun equal => same equal.symm]
      exact ih

end

lemma front_keys {front : List α} (first : ∀ slot ∈ front, holdsKey binding key slot = false) :
    key ∉ (front.filterMap binding).keys := by
  rw [List.mem_keys]
  rintro ⟨value, listed⟩
  obtain ⟨slot, here, held⟩ := List.mem_filterMap.mp listed
  have holds := (holdsKey_iff binding).mpr ⟨value, held⟩
  rw [first slot here] at holds
  cases holds

lemma kerase_found {front rest : List α} {slot : α}
    (first : ∀ other ∈ front, holdsKey binding key other = false)
    (passes : holdsKey binding key slot = true) :
    ((front ++ slot :: rest).filterMap binding).kerase key =
      front.filterMap binding ++ rest.filterMap binding := by
  obtain ⟨value, held⟩ := (holdsKey_iff binding).mp passes
  have here : (⟨key, value⟩ :: rest.filterMap binding).kerase key = rest.filterMap binding :=
    List.kerase_cons_eq rfl
  rw [List.filterMap_append, List.filterMap_cons_some held,
    List.kerase_append_right (front_keys first), here]

variable (represents : Represents binding slots map)
include represents

lemma replace (changed : updateFirst (holdsKey binding key) change slots = some after)
    (sets : ∀ slot, holdsKey binding key slot = true → binding (change slot) = some ⟨key, value⟩) :
    Represents binding after (map.insert key value) := by
  cases updateFirst_some changed with
  | mk _ slot _ first passes =>
    have inserted := List.Perm.kinsert (a := key) (b := value) represents.nodup represents
    rw [List.kinsert_def, kerase_found first passes] at inserted
    unfold Represents
    rw [List.filterMap_append, List.filterMap_cons_some (sets slot passes)]
    exact List.perm_middle.trans inserted

lemma fill (new : key ∉ map)
    (changed : updateFirst (fun slot => (binding slot).isNone) change slots = some after)
    (sets : ∀ slot, binding slot = none → binding (change slot) = some ⟨key, value⟩) :
    Represents binding after (map.insert key value) ∧ map.entries.length < slots.length := by
  cases updateFirst_some changed with
  | mk front slot rest _ passes =>
    have free : binding slot = none := Option.isNone_iff_eq_none.mp passes
    unfold Represents at represents ⊢
    rw [List.filterMap_append, List.filterMap_cons_none free] at represents
    constructor
    · rw [List.filterMap_append, List.filterMap_cons_some (sets slot free),
        AList.entries_insert_of_notMem new]
      exact List.perm_middle.trans (represents.cons _)
    · have before := List.length_filterMap_le binding front
      have behind := List.length_filterMap_le binding rest
      rw [← represents.length_eq, List.length_append, List.length_append, List.length_cons]
      omega

lemma clear (changed : updateFirst (holdsKey binding key) change slots = some after)
    (clears : ∀ slot, binding (change slot) = none) : Represents binding after (map.erase key) := by
  cases updateFirst_some changed with
  | mk _ slot _ first passes =>
    have erased := List.Perm.kerase (a := key) represents.nodup represents
    rw [kerase_found first passes] at erased
    unfold Represents
    rw [List.filterMap_append, List.filterMap_cons_none (clears slot)]
    exact erased

end Represents

end R9x.Lib
