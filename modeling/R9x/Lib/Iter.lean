import Mathlib.Algebra.Ring.Nat
import Mathlib.Logic.Basic

/-!
# Iterators as partial step functions

An iterator is a function that takes its state to an item and a next state.
-/

namespace R9x.Lib

variable {σ α β γ : Type*}

/-- The calls from a state give exactly these items, without a panic, and then the end. -/
inductive Yields (next : σ → Option (Option (α × σ))) : σ → List α → Prop where
  | done {state : σ} (ended : next state = some none) : Yields next state []
  | item {state rest : σ} {value : α} {values : List α}
      (given : next state = some (some (value, rest))) (more : Yields next rest values) :
      Yields next state (value :: values)

/-- `Iterator::find` with a test that may panic. -/
def findNext (next : σ → Option (Option (α × σ))) (test : α → Option Bool) :
    Nat → σ → Option (Option α)
  | 0, _ => none
  | fuel + 1, state =>
    match next state with
    | none => none
    | some none => some none
    | some (some (value, rest)) =>
      match test value with
      | none => none
      | some true => some (some value)
      | some false => findNext next test fuel rest

/-- A `for` loop over the items whose body may panic. -/
def foldNext (next : σ → Option (Option (α × σ))) (body : β → α → Option β) : Nat → β → σ → Option β
  | 0, _, _ => none
  | fuel + 1, acc, state =>
    match next state with
    | none => none
    | some none => some acc
    | some (some (value, rest)) => (body acc value).bind fun acc => foldNext next body fuel acc rest

/-- A `for` loop over the items whose body may panic, and may return from the function around it. -/
def searchNext (next : σ → Option (Option (α × σ))) (body : β → α → Option (β × Option γ)) :
    Nat → β → σ → Option (β × Option γ)
  | 0, _, _ => none
  | fuel + 1, acc, state =>
    match next state with
    | none => none
    | some none => some (acc, none)
    | some (some (value, rest)) =>
      match body acc value with
      | none => none
      | some (acc, some result) => some (acc, some result)
      | some (acc, none) => searchNext next body fuel acc rest

/-- The same loop over a list. -/
def searchList (body : β → α → Option (β × Option γ)) : β → List α → Option (β × Option γ)
  | acc, [] => some (acc, none)
  | acc, value :: values =>
    match body acc value with
    | none => none
    | some (acc, some result) => some (acc, some result)
    | some (acc, none) => searchList body acc values

/-- A `for` loop over the items that changes nothing before it returns. -/
def firstNext (next : σ → Option (Option (α × σ))) (body : α → Option (Option γ)) (fuel : Nat)
    (state : σ) : Option (Option γ) :=
  (searchNext next (fun _ value => (body value).map fun result => ((), result)) fuel () state).map
  Prod.snd

/-- The same loop over a list. -/
def firstList (body : α → Option (Option γ)) : List α → Option (Option γ)
  | [] => some none
  | value :: values =>
    match body value with
    | none => none
    | some (some result) => some (some result)
    | some none => firstList body values

/-- The `next` of `Iterator::filter` with a test that may panic. -/
def filterNext (next : σ → Option (Option (α × σ))) (test : α → Option Bool) :
    Nat → σ → Option (Option (α × σ))
  | 0, _ => none
  | fuel + 1, state =>
    match next state with
    | none => none
    | some none => some none
    | some (some (value, rest)) =>
      match test value with
      | none => none
      | some true => some (some (value, rest))
      | some false => filterNext next test fuel rest

/-- One of the calls from a state gives the item. -/
inductive Gives (next : σ → Option (Option (α × σ))) (value : α) : σ → Prop where
  | here {state rest : σ} (given : next state = some (some (value, rest))) : Gives next value state
  | later {state rest : σ} {other : α} (given : next state = some (some (other, rest)))
      (more : Gives next value rest) : Gives next value state

variable {next : σ → Option (Option (α × σ))} {state : σ} {values : List α}

lemma Yields.of_eq (yields : Yields next state values) {other : σ}
    (same : next other = next state) :
    Yields next other values := by
  cases yields with
  | done ended => exact .done (same.trans ended)
  | item given more => exact .item (same.trans given) more

lemma Yields.unique (yields : Yields next state values) {others : List α}
    (other : Yields next state others) :
    values = others := by
  induction yields generalizing others with
  | done ended =>
    cases other with
    | done => rfl
    | item given => cases ended.symm.trans given
  | item given _ ih =>
    cases other with
    | done ended => cases given.symm.trans ended
    | item given' more' =>
      cases given.symm.trans given'
      rw [ih more']

variable {test : α → Option Bool} {passes : α → Bool} {fuel : Nat}

section

variable (yields : Yields next state values)
include yields

/-- Induction along an iterator that is drained with enough fuel. -/
@[elab_as_elim]
lemma Yields.drain {motive : Nat → σ → List α → Prop} (enough : values.length < fuel)
    (done : ∀ fuel state, next state = some none → motive (fuel + 1) state [])
    (item : ∀ fuel state rest value values, next state = some (some (value, rest)) →
      Yields next rest values → values.length < fuel → motive fuel rest values →
      motive (fuel + 1) state (value :: values)) : motive fuel state values := by
  induction yields generalizing fuel with
  | done ended =>
    cases fuel with
    | zero => cases enough
    | succ fuel => exact done fuel _ ended
  | item given more ih =>
    cases fuel with
    | zero => cases enough
    | succ fuel =>
      have fewer := Nat.lt_of_succ_lt_succ enough
      exact item fuel _ _ _ _ given more fewer (ih fewer)

lemma Yields.find (tested : ∀ value ∈ values, test value = some (passes value))
    (enough : values.length < fuel) :
    findNext next test fuel state = some (values.find? passes) := by
  revert tested
  refine Yields.drain yields enough ?_ ?_
  · intro _ _ ended _
    rw [findNext, ended]
    rfl
  · intro _ _ _ value _ given _ _ ih tested
    have here := tested value List.mem_cons_self
    rw [findNext, given]
    simp only [here, List.find?_cons]
    cases passes value with
    | true => rfl
    | false => exact ih fun other member => tested other (List.mem_cons_of_mem _ member)

lemma Yields.fold (body : β → α → Option β) (acc : β) (enough : values.length < fuel) :
    foldNext next body fuel acc state = values.foldlM body acc := by
  revert acc
  refine Yields.drain yields enough ?_ ?_
  · intro _ _ ended _
    rw [foldNext, ended]
    rfl
  · intro _ _ _ value _ given _ _ ih acc
    rw [foldNext, given]
    simp only [List.foldlM_cons]
    cases body acc value with
    | none => rfl
    | some acc => exact ih acc

lemma Yields.search (body : β → α → Option (β × Option γ)) (acc : β)
    (enough : values.length < fuel) :
    searchNext next body fuel acc state = searchList body acc values := by
  revert acc
  refine Yields.drain yields enough ?_ ?_
  · intro _ _ ended _
    rw [searchNext, ended]
    rfl
  · intro _ _ _ value _ given _ _ ih acc
    rw [searchNext, given, searchList]
    dsimp only
    cases body acc value with
    | none => rfl
    | some outcome =>
      obtain ⟨acc, result⟩ := outcome
      cases result with
      | none => exact ih acc
      | some => rfl

lemma Yields.first (body : α → Option (Option γ)) (enough : values.length < fuel) :
    firstNext next body fuel state = firstList body values := by
  rw [firstNext, yields.search _ () enough]
  clear yields enough
  induction values with
  | nil => rfl
  | cons value _ ih =>
    rw [searchList, firstList]
    cases body value with
    | none => rfl
    | some result =>
      cases result with
      | none => exact ih
      | some => rfl

lemma Yields.filterNext_succ (enough : values.length < fuel) :
    filterNext next test fuel state = filterNext next test (fuel + 1) state := by
  refine Yields.drain yields enough ?_ ?_
  · intro _ _ ended
    rw [filterNext, filterNext, ended]
  · intro _ _ _ _ _ given _ _ ih
    rw [filterNext, filterNext, given]
    dsimp only
    rw [ih]

lemma Yields.filter (tested : ∀ value ∈ values, test value = some (passes value))
    (enough : values.length < fuel) :
    Yields (filterNext next test fuel) state (values.filter passes) := by
  induction yields with
  | @done _ ended =>
    cases fuel with
    | zero => cases enough
    | succ =>
      apply Yields.done
      rw [filterNext, ended]
  | @item _ _ value values given more ih =>
    cases fuel with
    | zero => cases enough
    | succ fuel =>
      have fewer : values.length < fuel := Nat.lt_of_succ_lt_succ enough
      have here := tested value List.mem_cons_self
      have later := ih (fun other member => tested other (List.mem_cons_of_mem _ member))
        (Nat.lt_succ_of_lt fewer)
      cases passed : passes value with
      | true =>
        rw [List.filter_cons_of_pos passed]
        apply Yields.item _ later
        rw [filterNext, given]
        simp only [here, passed]
      | false =>
        rw [List.filter_cons_of_neg (by rw [passed]; exact Bool.false_ne_true)]
        apply later.of_eq
        rw [← more.filterNext_succ fewer, filterNext, given]
        simp only [here, passed]

end

variable {value : α}

lemma Yields.gives_iff (yields : Yields next state values) :
    Gives next value state ↔ value ∈ values := by
  induction yields with
  | done ended =>
    constructor
    · intro gives
      cases gives with
      | here given | later given => cases ended.symm.trans given
    · exact nofun
  | @item _ _ _ _ given _ ih =>
    constructor
    · intro gives
      cases gives with
      | here given' =>
        obtain ⟨rfl, -⟩ := Prod.mk.inj (Option.some.inj (Option.some.inj (given.symm.trans given')))
        exact List.mem_cons_self
      | later given' more' =>
        obtain ⟨-, rfl⟩ := Prod.mk.inj (Option.some.inj (Option.some.inj (given.symm.trans given')))
        exact List.mem_cons_of_mem _ (ih.mp more')
    · intro member
      rcases List.mem_cons.mp member with rfl | member
      · exact .here given
      · exact .later given (ih.mpr member)

lemma firstList_append {body : α → Option (Option γ)} {before after : List α} {result : γ}
    (passed : ∀ other ∈ before, body other = some none) (found : body value = some (some result)) :
    firstList body (before ++ value :: after) = some (some result) := by
  induction before with
  | nil =>
    rw [List.nil_append, firstList, found]
  | cons first _ ih =>
    rw [List.cons_append, firstList, passed first List.mem_cons_self]
    exact ih fun other member => passed other (List.mem_cons_of_mem _ member)

lemma searchList_total {body : β → α → Option (β × Option γ)} {good : γ → Prop}
    (total : ∀ acc, ∀ value ∈ values, ∃ next result, body acc value = some (next, result) ∧
      ∀ returned, result = some returned → good returned) (acc : β) :
    ∃ next result, searchList body acc values = some (next, result) ∧
      ∀ returned, result = some returned → good returned := by
  induction values generalizing acc with
  | nil => exact ⟨acc, none, rfl, nofun⟩
  | cons value _ ih =>
    obtain ⟨next, result, stepped, kept⟩ := total acc value List.mem_cons_self
    rw [searchList, stepped]
    cases result with
    | some result => exact ⟨next, some result, rfl, kept⟩
    | none =>
      exact ih (fun acc other member => total acc other (List.mem_cons_of_mem _ member)) next

end R9x.Lib
