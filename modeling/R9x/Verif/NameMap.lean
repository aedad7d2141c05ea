import R9x.Cmd.BindTable
import R9x.Lib.Run

/-!
# The bind table as a finite map

The table of the nameserver is for a map of at most `NENT` names to pairs.
-/

namespace R9x.Verif.NameMap

open Lib Cmd
open Option (some.inj)

/-! ## The map -/

/-- The map: names to pairs. -/
abbrev Names := AList fun _ : Name => Pair

/-- Bind a name: a new one only while there is room. -/
def Names.bind (map : Names) (name : Name) (pair : Pair) : UInt16 × Names :=
  if name ∈ map ∨ map.entries.length < nent then (rOk, map.insert name pair) else (rEfull, map)

def Names.unbind (map : Names) (name : Name) : UInt16 × Names :=
  if name ∈ map then (rOk, map.erase name) else (rEnoent, map)

/-! ## Both together -/

/-- A call. -/
inductive Call where
  | bind (name : Name) (pair : Pair)
  | resolve (name : Name)
  | unbind (name : Name)
  deriving DecidableEq

/-- The table and the map after the same calls. -/
structure Both where
  table : BindTable
  map : Names
  agreed : Bool

namespace Both

/-- Before the first call. -/
def start : Both := ⟨.new, ∅, true⟩

/-- One call. -/
def step (both : Both) : Call → Option Both
  | .bind name pair =>
    let (result, table) := both.table.bind name pair
    let (expected, map) := both.map.bind name pair
    some ⟨table, map, both.agreed && result = expected⟩
  | .resolve name =>
    some { both with agreed := both.agreed && both.table.resolve name = both.map.lookup name }
  | .unbind name =>
    let (result, table) := both.table.unbind name
    let (expected, map) := both.map.unbind name
    some ⟨table, map, both.agreed && result = expected⟩

/-- The table has behaved as the map, and resolves every name as the map does. -/
structure Refines (both : Both) : Prop where
  agreed : both.agreed = true
  resolves : ∀ name, both.table.resolve name = both.map.lookup name

/-- A name that is bound fits the field, or the table is full and its first bytes are not bound. -/
def Fits (both : Both) : Call → Prop
  | .bind name _ => name.length ≤ nameMax ∨ both.map.entries.length = nent ∧
      name.take nameMax ∉ both.map
  | .resolve _ => True
  | .unbind _ => True

instance (both : Both) (call : Call) : Decidable (both.Fits call) :=
  match call with
  | .bind _ _ => inferInstanceAs (Decidable (_ ∨ _))
  | .resolve _ | .unbind _ => inferInstanceAs (Decidable True)

end Both

/-! ## Entries as slots -/

def binding (entry : Entry) : Option (Σ _ : Name, Pair) :=
  if entry.used then some ⟨entry.name.take entry.namelen.toNat, entry.pair⟩ else none

lemma name_length (entry : Entry) : (entry.name.take entry.namelen.toNat).length =
    entry.namelen.toNat := by
  rw [List.length_take, entry.field]
  exact Nat.min_eq_left entry.within

lemma hasName_eq (entry : Entry) (name : Name) :
    entry.hasName name = holdsKey binding name entry := by
  unfold Entry.hasName holdsKey binding
  cases entry.used with
  | false => rfl
  | true =>
    simp only [Bool.true_and, if_true, Option.any_some]
    by_cases same : entry.name.take entry.namelen.toNat = name
    · have length : entry.namelen.toNat = name.length := by rw [← same, name_length]
      rw [← length, same]
      simp
    simp only [same, decide_false, Bool.and_eq_false_iff, decide_eq_false_iff_not]
    by_cases length : entry.namelen.toNat = name.length
    · right
      rw [← length]
      exact same
    · exact .inl length

lemma unused_eq (entry : Entry) : (!entry.used) = (binding entry).isNone := by
  unfold binding
  cases entry.used <;> rfl

lemma binding_take (name : Name) (short : name.length ≤ nameMax) (pair : Pair) (entry : Entry) :
    binding (entry.take name short pair) = some ⟨name, pair⟩ := by
  have length : (UInt8.ofNat name.length).toNat = name.length := by
    rw [UInt8.toNat_ofNat', nameMax] at *
    omega
  simp [binding, Entry.take, length]

lemma binding_setPair {name : Name} (pair : Pair) {entry : Entry}
    (holds : holdsKey binding name entry = true) :
    binding (entry.setPair pair) = some ⟨name, pair⟩ := by
  obtain ⟨value, held⟩ := (holdsKey_iff binding).mp holds
  unfold binding at held
  split at held
  · rename_i used
    injection held with same
    injection same with key
    have again : (entry.setPair pair).used = true := used
    rw [binding, if_pos again, ← key]
    rfl
  · cases held

lemma binding_clear (entry : Entry) : binding entry.clear = none := rfl

/-! ## Calls -/

section

variable {table : BindTable} {map : Names} {test : Entry → Bool} {body : Entry → Entry}

lemma change_some {after : BindTable} (changed : table.change test body = some after) :
    updateFirst test body table.entries = some after.entries := by
  unfold BindTable.change at changed
  split at changed
  · rename_i found
    rw [found, ← some.inj changed]
  · cases changed

lemma change_none (unchanged : table.change test body = none) :
    updateFirst test body table.entries = none := by
  unfold BindTable.change at unchanged
  split at unchanged
  · cases unchanged
  rename_i missing
  exact missing

lemma hasName_fun (name : Name) : (fun entry : Entry => entry.hasName name) =
    holdsKey binding name :=
  funext fun entry => hasName_eq entry name

lemma unused_fun : (fun entry : Entry => !entry.used) = fun entry => (binding entry).isNone :=
  funext unused_eq

variable (represents : Represents binding table.entries map)
include represents

lemma resolve_eq (name : Name) : table.resolve name = map.lookup name := by
  rw [← represents.lookup name, BindTable.resolve, hasName_fun]
  cases found : table.entries.find? (holdsKey binding name) with
  | none => rfl
  | some entry =>
    have held : (binding entry).map Sigma.snd = some entry.pair := by
      obtain ⟨value, held⟩ := (holdsKey_iff binding).mp (List.find?_some found)
      unfold binding at held ⊢
      split at held
      · rename_i used
        rw [if_pos used]
        rfl
      · cases held
    exact held.symm

lemma bind_represents (name : Name) (pair : Pair) :
    (table.bind name pair).1 = (map.bind (name.take nameMax) pair).1 ∧
      Represents binding (table.bind name pair).2.entries
        (map.bind (name.take nameMax) pair).2 := by
  cases replaced : table.change (fun entry => entry.hasName (name.take nameMax))
    (Entry.setPair pair) with
  | some after =>
    have changed := change_some replaced
    rw [hasName_fun] at changed
    have result : table.bind name pair = (rOk, after) := by simp only [BindTable.bind, replaced]
    rw [result, Names.bind, if_pos (Or.inl (represents.known changed))]
    exact ⟨rfl, represents.replace changed fun entry holds => binding_setPair pair holds⟩
  | none =>
    have missing := change_none replaced
    rw [hasName_fun] at missing
    have new := represents.unknown missing
    cases taken : table.change (fun entry => !entry.used)
        (Entry.take (name.take nameMax) (List.length_take_le _ _) pair) with
    | some after =>
      have changed := change_some taken
      rw [unused_fun] at changed
      have result : table.bind name pair = (rOk, after) := by
        simp only [BindTable.bind, replaced, taken]
      obtain ⟨now, room⟩ := represents.fill new changed fun entry _ => binding_take _ _ pair entry
      rw [table.size] at room
      rw [result, Names.bind, if_pos (Or.inr room)]
      exact ⟨rfl, now⟩
    | none =>
      have full := change_none taken
      rw [unused_fun] at full
      have result : table.bind name pair = (rEfull, table) := by
        simp only [BindTable.bind, replaced, taken]
      have length := (represents.full full).trans table.size
      have refused : ¬ (name.take nameMax ∈ map ∨ map.entries.length < nent) := by
        rintro (known | room)
        · exact new known
        · omega
      rw [result, Names.bind, if_neg refused]
      exact ⟨rfl, represents⟩

lemma unbind_represents (name : Name) : (table.unbind name).1 = (map.unbind name).1 ∧
      Represents binding (table.unbind name).2.entries (map.unbind name).2 := by
  cases cleared : table.change (fun entry => entry.hasName name) Entry.clear with
  | some after =>
    have changed := change_some cleared
    rw [hasName_fun] at changed
    have result : table.unbind name = (rOk, after) := by simp only [BindTable.unbind, cleared]
    rw [result, Names.unbind, if_pos (represents.known changed)]
    exact ⟨rfl, represents.clear changed binding_clear⟩
  | none =>
    have missing := change_none cleared
    rw [hasName_fun] at missing
    have result : table.unbind name = (rEnoent, table) := by simp only [BindTable.unbind, cleared]
    rw [result, Names.unbind, if_neg (represents.unknown missing)]
    exact ⟨rfl, represents⟩

lemma short_of_mem {name : Name} (known : name ∈ map) : name.length ≤ nameMax := by
  obtain ⟨entry, -, holds⟩ := represents.mem_iff.mp known
  obtain ⟨_, held⟩ := (holdsKey_iff binding).mp holds
  unfold binding at held
  split at held
  · injection held with same
    injection same with key
    rw [← key, name_length]
    exact entry.within
  · cases held

lemma names_le : map.entries.length ≤ nent := by
  rw [← table.size]
  exact represents.length_le

end

/-! ## Runs -/

/-- What every call with a fitting name keeps. -/
structure Inv (both : Both) : Prop where
  agreed : both.agreed = true
  represents : Represents binding both.table.entries both.map

section

variable {both next : Both}

lemma Inv.refines (inv : Inv both) : both.Refines := ⟨inv.agreed, resolve_eq inv.represents⟩

lemma inv_start : Inv .start := ⟨rfl, List.Perm.refl []⟩

lemma bind_fits (inv : Inv both) {name : Name} {pair : Pair} (fits : both.Fits (.bind name pair)) :
    both.map.bind (name.take nameMax) pair = both.map.bind name pair := by
  rcases fits with short | ⟨full, unbound⟩
  · rw [List.take_of_length_le short]
  by_cases short : name.length ≤ nameMax
  · rw [List.take_of_length_le short]
  have new : name ∉ both.map := fun known => short (short_of_mem inv.represents known)
  have room : ¬ both.map.entries.length < nent := by omega
  rw [Names.bind, Names.bind, if_neg (not_or.mpr ⟨unbound, room⟩), if_neg (not_or.mpr ⟨new, room⟩)]

variable {call : Call}

lemma Inv.step (inv : Inv both) (fits : both.Fits call) (taken : both.step call = some next) :
    Inv next := by
  cases call with
  | bind name pair =>
    obtain ⟨result, now⟩ := bind_represents inv.represents name pair
    rw [bind_fits inv fits] at result now
    rw [← some.inj taken]
    refine ⟨?_, now⟩
    change (both.agreed && decide ((both.table.bind name pair).1 = (both.map.bind name pair).1)) =
      true
    rw [inv.agreed, result]
    simp
  | resolve =>
    rw [← some.inj taken]
    refine ⟨?_, inv.represents⟩
    simp [inv.agreed, resolve_eq inv.represents]
  | unbind name =>
    obtain ⟨result, now⟩ := unbind_represents inv.represents name
    rw [← some.inj taken]
    refine ⟨?_, now⟩
    change (both.agreed && decide ((both.table.unbind name).1 = (both.map.unbind name).1)) = true
    rw [inv.agreed, result]
    simp

lemma Inv.needed (inv : Inv both) (taken : both.step call = some next) (refines : next.Refines) :
    both.Fits call := by
  cases call with
  | bind name pair =>
    by_contra unfit
    obtain ⟨long, opening⟩ := not_or.mp unfit
    rw [← some.inj taken] at refines
    obtain ⟨result, now⟩ := bind_represents inv.represents name pair
    have new : name ∉ both.map := fun known => long (short_of_mem inv.represents known)
    have other : name ≠ name.take nameMax := by
      intro same
      apply long
      rw [same]
      exact List.length_take_le _ _
    have cut : both.map.bind (name.take nameMax) pair =
      (rOk, both.map.insert (name.take nameMax) pair) := by
      apply if_pos
      by_contra refused
      obtain ⟨unbound, full⟩ := not_or.mp refused
      have names := names_le inv.represents
      exact opening ⟨by omega, unbound⟩
    rw [cut] at result now
    by_cases room : both.map.entries.length < nent
    · have expected : both.map.bind name pair = (rOk, both.map.insert name pair) :=
        if_pos (.inr room)
      have resolves := refines.resolves name
      change (both.table.bind name pair).2.resolve name = (both.map.bind name pair).2.lookup
        name at resolves
      rw [expected, AList.lookup_insert, resolve_eq now, AList.lookup_insert_ne other,
        AList.lookup_eq_none.mpr new] at resolves
      cases resolves
    have expected : both.map.bind name pair = (rEfull, both.map) := if_neg (not_or.mpr ⟨new, room⟩)
    have agreed := refines.agreed
    change (both.agreed && decide ((both.table.bind name pair).1 =
      (both.map.bind name pair).1)) = true at agreed
    rw [expected, result] at agreed
    simp [rOk, rEfull] at agreed
  | resolve | unbind => trivial

end

/-- The table refines the map throughout a run exactly if every name bound in it fits the field, or
is refused because the table is full and its first bytes are not bound. -/
theorem table_refines_iff (calls : List Call) :
    Throughout Both.step Both.Refines .start calls ↔ Along Both.step Both.Fits .start calls :=
  throughout_iff_along (fun _ _ _ inv fits taken => inv.step fits taken) (fun _ inv => inv.refines)
    (fun _ _ _ inv taken refines => inv.needed taken refines) inv_start

def bytes (length : Nat) (last : UInt8) : Name := List.replicate (length - 1) 47 ++ [last]

/-- A name of 33 bytes is bound, and not found; it is found by its first 32 bytes, and binding
another name with the same first bytes changes what they resolve to. -/
theorem long_name_lost : ((run Both.step .start [.bind (bytes 33 1) ⟨4, 5⟩]).map fun both =>
      (both.agreed, both.table.resolve (bytes 33 1), both.map.lookup (bytes 33 1),
        both.table.resolve ((bytes 33 1).take 32), both.map.lookup ((bytes 33 1).take 32))) =
      some (true, none, some ⟨4, 5⟩, some ⟨4, 5⟩, none) ∧
    ((run Both.step .start [.bind (bytes 33 1) ⟨4, 5⟩, .bind (bytes 33 2) ⟨6, 7⟩]).map fun both =>
      both.table.resolve ((bytes 33 1).take 32)) = some (some ⟨6, 7⟩) ∧
    ¬ Throughout Both.step Both.Refines .start [.bind (bytes 33 1) ⟨4, 5⟩] := by
  have bound : ((run Both.step .start [.bind (bytes 33 1) ⟨4, 5⟩]).map fun both =>
      (both.agreed, both.table.resolve (bytes 33 1), both.map.lookup (bytes 33 1),
        both.table.resolve ((bytes 33 1).take 32), both.map.lookup ((bytes 33 1).take 32))) =
      some (true, none, some ⟨4, 5⟩, some ⟨4, 5⟩, none) := by decide +kernel
  refine ⟨bound, by decide +kernel, ?_⟩
  intro refines
  obtain ⟨both, reached, found⟩ := Option.map_eq_some_iff.mp bound
  obtain ⟨-, lost, kept, -⟩ : both.agreed = true ∧ both.table.resolve (bytes 33 1) = none ∧
      both.map.lookup (bytes 33 1) = some ⟨4, 5⟩ ∧ _ := by
    simpa only [Prod.mk.injEq] using found
  have same := (refines.reached reached).resolves (bytes 33 1)
  rw [lost, kept] at same
  cases same

end R9x.Verif.NameMap
