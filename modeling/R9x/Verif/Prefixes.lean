import R9x.Lib.Tiling
import R9x.Verif.QuickLists

/-!
# Filing a prefix

`free_prefix` cuts the memory before an aligned block into blocks of the quick lists.
-/

namespace R9x.Verif.Prefixes

open Lib Port.Allocator QuickLists
open Function (update update_of_ne)

/-- A block with the index of its quick list. -/
abbrev Piece := Fin numQlists × Nat

def Piece.extent (piece : Piece) : Nat × Nat := (piece.2, piece.2 + quickSize piece.1)

/-- The blocks that were put on a list, the last one first. -/
def listed (pieces : List Piece) (k : Fin numQlists) : List Nat :=
  (pieces.filter fun piece => piece.1 = k).map Prod.snd

/-- The pieces cover the memory from one address to another, each place once; each is aligned to its
size, and they are on top of what was on the lists. -/
structure Cut (quick : QuickFit) (lists : Fin numQlists → List Nat) (start stop : Nat)
    (pieces : List Piece) : Prop where
  tiled : Tiles start (pieces.map Piece.extent) stop
  aligned : ∀ piece ∈ pieces, quickSize piece.1 ∣ piece.2
  chains : ∀ k, Chain quick.mem (quick.qlists k) (listed pieces k ++ lists k)

/-- The lists have the pieces from the first address of a prefix that is aligned to 64 bytes on. -/
def Fills (lists : Fin numQlists → List Nat) (first : Nat) (quick : QuickFit) (stop : Nat) : Prop :=
  ∃ start pieces, (first ≤ start ∧ start < first + 64 ∧ 64 ∣ start) ∧
    Cut quick lists start stop pieces

/-- The nodes on the lists are addresses outside a range. -/
def Clear (lists : Fin numQlists → List Nat) (start stop : Nat) : Prop :=
  ∀ k, ∀ node ∈ lists k, node < 2 ^ 64 ∧ (node + 64 ≤ start ∨ stop ≤ node)

variable {quick : QuickFit} {lists : Fin numQlists → List Nat} {start stop limit : Nat}
  {pieces : List Piece}

lemma listed_cons (k : Fin numQlists) (block : Nat) (j : Fin numQlists) :
    listed ((k, block) :: pieces) j ++ lists j =
      update (fun j => listed pieces j ++ lists j) k (block :: (listed pieces k ++ lists k)) j := by
  by_cases same : j = k
  · subst same
    simp [listed]
  · simp [listed, update_of_ne same, Ne.symm same]

lemma Cut.push (cut : Cut quick lists start stop pieces) (clear : Clear lists start limit)
    (k : Fin numQlists) (nonzero : stop ≠ 0) (fits : stop + quickSize k ≤ limit)
    (small : limit < 2 ^ 64)
    (aligned : quickSize k ∣ stop) :
    Cut (pushed quick k stop (quickSize k)) lists start (stop + quickSize k)
      ((k, stop) :: pieces) := by
  have room := le_quickSize k
  have first := cut.tiled.base_le
  have nodes : ∀ j, ∀ node ∈ listed pieces j ++ lists j, node < 2 ^ 64 ∧
    (node + 16 ≤ stop ∨ limit ≤ node) := by
    intro j node member
    rcases List.mem_append.mp member with new | old
    · obtain ⟨piece, here, rfl⟩ := List.mem_map.mp new
      have below := cut.tiled.below _ (List.mem_map_of_mem (List.mem_filter.mp here).1)
      have size := le_quickSize piece.1
      change piece.2 + quickSize piece.1 ≤ stop at below
      omega
    have away := clear j node old
    omega
  refine ⟨⟨rfl, Nat.le_add_right _ _, cut.tiled⟩, List.forall_mem_cons.mpr ⟨aligned, cut.aligned⟩,
    ?_⟩
  intro j
  rw [listed_cons]
  have head := (cut.chains k).head_lt fun node member => (nodes k node member).1
  refine chain_pushed cut.chains nonzero (by omega) head ?_ j
  intro j node member place low high
  have away := (nodes j node member).2
  omega

/-- On every allocator with its lists in memory, for every prefix apart from their nodes whose end
is aligned to 64 bytes: `free_prefix` returns, and what it has put on the lists are blocks of their
sizes, aligned to them, that tile the prefix from its first address that is aligned to 64 bytes. -/
theorem freePrefix_fills {fuel first count : Nat}
    (chains : ∀ k, Chain quick.mem (quick.qlists k) (lists k))
    (clear : Clear lists first (first + count))
    (nonzero : first ≠ 0) (small : first + count < 2 ^ 64) (whole : 64 ∣ first + count)
    (enough : count < 64 * fuel) :
    ∃ after, quick.freePrefix fuel ⟨first, count⟩ = some after ∧
      Fills lists first after (first + count) := by
  have keeps : ∀ middle ptr (k : Fin numQlists), Fills lists first middle ptr → ptr ≠ 0 →
      quickSize k ∣ ptr → ptr + quickSize k ≤ first + count →
      Fills lists first (pushed middle k ptr (quickSize k)) (ptr + quickSize k) := by
    rintro middle ptr k ⟨start, pieces, bounds, cut⟩ nonzero aligned fits
    have clear' : Clear lists start (first + count) := by
      intro j node member
      have away := clear j node member
      omega
    exact ⟨start, _, bounds, cut.push clear' k nonzero fits small aligned⟩
  exact freePrefix_rule _ small whole keeps rfl nonzero enough fun gap less _ unit =>
    ⟨first + gap, [], ⟨Nat.le_add_right _ _, by omega, unit⟩, rfl, nofun, chains⟩

/-- The 240 bytes before an address that is aligned to 256. -/
theorem freePrefix_fills_small :
    ∃ after, (QuickFit.new ⟨0x1000, 0x1000⟩ fun _ => 0).freePrefix 4 ⟨0x1010, 0xf0⟩ = some after ∧
      Fills (fun _ => []) 0x1010 after (0x1010 + 0xf0) :=
  freePrefix_fills (fun _ => rfl) (fun _ _ => nofun) (by decide) (by decide) (by decide) (by decide)

end R9x.Verif.Prefixes
