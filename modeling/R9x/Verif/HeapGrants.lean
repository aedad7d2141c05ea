import R9x.Aarch64.Spawn
import R9x.Lib.Tiling
import R9x.Verif.HeapRuns

/-!
# The intervals that the heap grants

Every heap call of a process is made in some state of memory, so that a page may fail to be mapped
at any point.
-/

namespace R9x.Verif.HeapGrants

open Lib Aarch64 Aarch64.Vm Aarch64.Spawn HeapRuns

/-- A process and the intervals that were granted to it and not released, the newest first. -/
structure Ledger where
  space : Space
  grants : List (Nat × Nat)

/-- A heap call, with the memory in which it is made. -/
inductive Call where
  | grow (count : BitVec 64) (phys : Phys)
  | allocPage (phys : Phys)
  | shrink (va : BitVec 64)

/-- One call. -/
def step (kernel : PageNo) (ledger : Ledger) : Call → Option Ledger
  | .grow count phys =>
    (heapGrow kernel ledger.space count.toNat phys).map fun outcome =>
      ⟨outcome.space,
        (outcome.answer.map fun start => (start, outcome.space.heapBrk)).toList ++ ledger.grants⟩
  | .allocPage phys =>
    (heapAllocPage kernel ledger.space phys).map fun outcome =>
      ⟨outcome.space, (outcome.answer.map fun page => (page.1, page.1 + pageSize4K)).toList ++
        ledger.grants⟩
  | .shrink va =>
    some ⟨heapShrink ledger.space va.toNat,
      (brkShrink ledger.space.heapBase ledger.space.heapBrk va.toNat).elim ledger.grants
        (cutAt · ledger.grants)⟩

/-- The break is in its bounds and on a page, and the grants tile the heap. -/
structure GrantsTile (ledger : Ledger) : Prop where
  bounds : ledger.space.heapBase ≤ ledger.space.heapBrk ∧ ledger.space.heapBrk ≤ kzero
  aligned : ledger.space.heapBrk % pageSize4K = 0
  apart : ledger.grants.Pairwise fun one two => one.2 ≤ two.1 ∨ two.2 ≤ one.1
  covers : ∀ place, (∃ grant ∈ ledger.grants, grant.1 ≤ place ∧ place < grant.2) ↔
    ledger.space.heapBase ≤ place ∧ place < ledger.space.heapBrk

/-- What a call grants: a successful one starts at the old break, and a failed one leaves it. The
pages that `heap_grow` goes through are addresses. -/
def Grants (kernel : PageNo) (ledger : Ledger) : Call → Prop
  | .grow count phys =>
    (∀ newBrk, brkGrow ledger.space.heapBrk count.toNat kzero = some newBrk →
      ∀ k < pagesUpTo ledger.space.heapHwm newBrk,
        ledger.space.heapHwm + k * pageSize4K + pageSize4K < 2 ^ 64) ∧
    ∀ outcome, heapGrow kernel ledger.space count.toNat phys = some outcome →
      match outcome.answer with
      | some start => start = ledger.space.heapBrk ∧
          ledger.space.heapBrk + count.toNat ≤ outcome.space.heapBrk
      | none => outcome.space.heapBrk = ledger.space.heapBrk
  | .allocPage phys =>
    ∀ outcome, heapAllocPage kernel ledger.space phys = some outcome →
      match outcome.answer with
      | some page => page.1 = ledger.space.heapBrk ∧ outcome.space.heapBrk =
          ledger.space.heapBrk + pageSize4K
      | none => outcome.space.heapBrk = ledger.space.heapBrk
  | .shrink _ => True

/-- The grants tile the heap, and the break is in its bound and on a page. -/
structure Tiled (ledger : Ledger) : Prop where
  tiles : Tiles ledger.space.heapBase ledger.grants ledger.space.heapBrk
  bound : ledger.space.heapBrk ≤ kzero
  aligned : ledger.space.heapBrk % pageSize4K = 0

variable {kernel : PageNo} {ledger next : Ledger}

lemma Tiled.sound (tiled : Tiled ledger) : GrantsTile ledger :=
  ⟨⟨tiled.tiles.base_le, tiled.bound⟩, tiled.aligned, tiled.tiles.apart, tiled.tiles.covers⟩

def Moves (space after : Space) (count : Nat) (answer : Option Nat) : Prop :=
  after.heapBase = space.heapBase ∧ (answer = none ∧ after.heapBrk = space.heapBrk ∨
    answer = some space.heapBrk ∧ brkGrow space.heapBrk count kzero = some after.heapBrk)

variable {space : Space} {count : Nat} {phys : Phys}

lemma heapGrow_moves {outcome : HeapOutcome Nat}
    (returns : heapGrow kernel space count phys = some outcome) :
    Moves space outcome.space count outcome.answer := by
  cases grown : brkGrow space.heapBrk count kzero with
  | none =>
    rw [heapGrow_declined grown] at returns
    cases returns
    exact ⟨rfl, .inl ⟨rfl, rfl⟩⟩
  | some =>
    rw [heapGrow_granted grown] at returns
    obtain ⟨⟨⟨failed, _⟩, _⟩, -, rfl⟩ := Option.map_eq_some_iff.mp returns
    cases failed with
    | some => exact ⟨rfl, .inl ⟨rfl, rfl⟩⟩
    | none => exact ⟨rfl, .inr ⟨rfl, grown⟩⟩

lemma heapAllocPage_moves {outcome : HeapOutcome (Nat × PhysAddr)}
    (returns : heapAllocPage kernel space phys = some outcome) :
    Moves space outcome.space pageSize4K (outcome.answer.map Prod.fst) := by
  cases grown : brkGrow space.heapBrk pageSize4K kzero with
  | none =>
    rw [heapAllocPage_declined grown] at returns
    cases returns
    exact ⟨rfl, .inl ⟨rfl, rfl⟩⟩
  | some =>
    rw [heapAllocPage_granted grown] at returns
    obtain ⟨⟨result, _⟩, -, rfl⟩ := Option.map_eq_some_iff.mp returns
    cases result with
    | error => exact ⟨rfl, .inl ⟨rfl, rfl⟩⟩
    | ok => exact ⟨rfl, .inr ⟨rfl, grown⟩⟩

lemma brkGrow_page {brk newBrk : Nat} (grown : brkGrow brk pageSize4K kzero = some newBrk) :
    newBrk = brk + pageSize4K := (brkGrow_some grown).1

lemma Tiled.moves (tiled : Tiled ledger) {after : Space} {answer : Option Nat}
    (moves : Moves ledger.space after count answer) :
    Tiled ⟨after, (answer.map fun start => (start, after.heapBrk)).toList ++ ledger.grants⟩ := by
  obtain ⟨base, ⟨rfl, brk⟩ | ⟨rfl, grown⟩⟩ := moves
  · refine ⟨?_, ?_, ?_⟩
    · rw [base, brk]
      exact tiled.tiles
    · rw [brk]
      exact tiled.bound
    · rw [brk]
      exact tiled.aligned
  · obtain ⟨brk, bound⟩ := brkGrow_some grown
    refine ⟨⟨rfl, ?_, ?_⟩, bound, ?_⟩
    · rw [brk]
      exact Nat.le_add_right _ _
    · rw [base]
      exact tiled.tiles
    · rw [brk]
      exact (Nat.add_mul_mod_self_right ..).trans tiled.aligned

lemma Tiled.step {call : Call} (tiled : Tiled ledger)
    (taken : step kernel ledger call = some next) : Tiled next := by
  cases call with
  | grow =>
    obtain ⟨_, returns, rfl⟩ := Option.map_eq_some_iff.mp taken
    exact tiled.moves (heapGrow_moves returns)
  | allocPage =>
    obtain ⟨outcome, returns, rfl⟩ := Option.map_eq_some_iff.mp taken
    have moves := heapAllocPage_moves returns
    have granted := tiled.moves moves
    cases answer : outcome.answer with
    | none =>
      rw [answer] at granted
      exact granted
    | some page =>
      rw [answer] at granted moves
      obtain ⟨-, ⟨refused, -⟩ | ⟨start, grown⟩⟩ := moves
      · cases refused
      · have same : page.1 + pageSize4K = outcome.space.heapBrk := by
          rw [brkGrow_page grown, Option.some.inj start]
        simp only [Option.map_some, same]
        exact granted
  | shrink va =>
    cases taken
    rw [heapShrink]
    cases shrunk : brkShrink ledger.space.heapBase ledger.space.heapBrk va.toNat with
    | none => exact tiled
    | some =>
      rw [brkShrink] at shrunk
      split at shrunk
      · rename_i inside
        cases shrunk
        exact ⟨tiled.tiles.cut inside.2.1 inside.2.2, Nat.le_trans inside.2.2 tiled.bound, inside.1⟩
      · cases shrunk

lemma grants (ledger : Ledger) (call : Call) : Grants kernel ledger call := by
  cases call with
  | grow =>
    refine ⟨fun newBrk grown k small => ?_, fun outcome returns => ?_⟩
    · have page := pagesUpTo_below small
      have bound := (brkGrow_some grown).2
      rw [kzero] at bound
      rw [pageSize4K] at page ⊢
      omega
    · obtain ⟨-, ⟨refused, brk⟩ | ⟨start, grown⟩⟩ := heapGrow_moves returns
      · rw [refused]
        exact brk
      · rw [start]
        rw [(brkGrow_some grown).1, pageSize4K]
        omega
  | allocPage =>
    intro _ returns
    obtain ⟨-, ⟨refused, brk⟩ | ⟨start, grown⟩⟩ := heapAllocPage_moves returns
    · rw [Option.map_eq_none_iff.mp refused]
      exact brk
    · obtain ⟨_, answer, start⟩ := Option.map_eq_some_iff.mp start
      rw [answer]
      exact ⟨start, brkGrow_page grown⟩
  | shrink => trivial

/-- In every run of heap calls of an installed process, whatever fails to be mapped, the break stays
in its bounds, the calls grant what they should, and the grants tile the heap. -/
theorem heap_grants_tile (kernel root : PageNo) (heapBase : Nat) (slot : Bool) (space : Space)
    (installed : tryInstall root heapBase slot = some (some space)) (calls : List Call) :
    Throughout (step kernel) GrantsTile ⟨space, []⟩ calls ∧
      Along (step kernel) (Grants kernel) ⟨space, []⟩ calls := by
  have start : Tiled ⟨space, []⟩ := by
    rw [tryInstall] at installed
    split at installed
    · split at installed
      · rename_i inside
        cases installed
        exact ⟨rfl, Nat.le_of_lt inside.2, inside.1⟩
      · cases installed
    · cases Option.some.inj installed
  exact ⟨throughout_of_invariant (fun _ _ _ tiled taken => Tiled.step tiled taken)
    (fun _ tiled => tiled.sound) start calls, along_of_forall grants _ calls⟩

/-- Growing and shrinking the heap of a new process. -/
theorem heap_grants_tile_small :
    tryInstall 1 0x200000 true = some (some ⟨1, 0x200000, 0x200000, 0x200000⟩) ∧
    Throughout (step 0) GrantsTile ⟨⟨1, 0x200000, 0x200000, 0x200000⟩, []⟩
      [.grow 5000 Machine.emptyProcess.phys, .shrink 0x201000] := by
  have installed : tryInstall 1 0x200000 true = some (some ⟨1, 0x200000, 0x200000, 0x200000⟩) := by
    decide
  exact ⟨installed, (heap_grants_tile 0 1 _ true _ installed _).1⟩

end R9x.Verif.HeapGrants
