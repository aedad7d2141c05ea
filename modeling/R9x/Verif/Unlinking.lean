import R9x.Verif.QuickLists

/-!
# Unlinking a header

`unlink` searches the misc list and the chains of the hash table of misc blocks.
-/

namespace R9x.Verif.Unlinking

open Lib Port.Allocator QuickLists

/-- The headers that are linked from a list head. -/
def Links (mem : ByteMem) : Nat → List Nat → Prop
  | head, [] => head = 0
  | head, node :: nodes => head = node ∧ node ≠ 0 ∧ Links mem (readHeader mem node).next nodes

/-- The first node that satisfies the predicate is returned, if there is one, and the other nodes
are linked from the returned head in their order. -/
structure Unlinks (predicate : Header → Bool) (mem : ByteMem) (nodes : List Nat) (found : Nat × Nat)
    (after : ByteMem) : Prop where
  node : found.1 = (nodes.find? fun node => predicate (readHeader mem node)).getD 0
  list : Links after found.2 (nodes.eraseP fun node => predicate (readHeader mem node))

variable {predicate : Header → Bool} {mem after : ByteMem} {head fuel : Nat} {nodes : List Nat}

lemma Links.congr (links : Links mem head nodes)
    (same : ∀ node ∈ nodes, (readHeader after node).next = (readHeader mem node).next) :
    Links after head nodes := by
  induction nodes generalizing head with
  | nil => exact links
  | cons _ _ ih =>
    obtain ⟨here, nonzero, rest⟩ := links
    obtain ⟨first, later⟩ := List.forall_mem_cons.mp same
    refine ⟨here, nonzero, ?_⟩
    rw [first]
    exact ih rest later

/-- Behind the first node, the returned head is the node that was found, or nothing. -/
lemma unlink_behind {previous list : Nat} {found : Nat × Nat} (behind : previous ≠ 0)
    (returns : unlink predicate fuel previous list mem = some (found, after)) :
    found.2 = 0 ∨ predicate (readHeader mem found.2) = true := by
  induction fuel generalizing previous list with
  | zero => cases returns
  | succ _ ih =>
    rw [unlink] at returns
    split at returns
    · rename_i empty
      cases returns
      exact .inl empty
    rename_i nonzero
    dsimp only at returns
    split at returns
    · rename_i matching
      cases returns
      exact .inr matching
    · exact ih nonzero returns

/-- On every list of headers whose `next` fields are apart, and for every predicate, `unlink` is
right exactly if the list is empty or its first node satisfies the predicate. -/
theorem unlink_right_iff (predicate : Header → Bool) (links : Links mem head nodes)
    (apart : nodes.Pairwise fun node other => node + 8 ≤ other ∨ other + 8 ≤ node)
    (enough : nodes.length < fuel) :
    (∃ found after, unlink predicate fuel 0 head mem = some (found, after) ∧
      Unlinks predicate mem nodes found after) ↔
    ∀ first ∈ nodes.head?, predicate (readHeader mem first) = true := by
  obtain ⟨fuel, rfl⟩ : ∃ less, fuel = less + 1 := ⟨fuel - 1, by omega⟩
  cases nodes with
  | nil =>
    obtain rfl : head = 0 := links
    refine iff_of_true ⟨(0, 0), mem, ?_, rfl, rfl⟩ nofun
    rw [unlink, if_pos rfl]
  | cons =>
    obtain ⟨rfl, nonzero, rest_links⟩ := links
    rw [unlink, if_neg nonzero]
    by_cases matching : predicate (readHeader mem head) = true
    · refine iff_of_true ⟨(head, (readHeader mem head).next), writeNext mem head 0, ?_, ?_, ?_⟩ ?_
      · simp only [matching, if_true]
      · simp only [List.find?_cons, matching, Option.getD_some]
      · simp only [List.eraseP_cons, matching, cond_true]
        refine rest_links.congr fun node member => ?_
        have away := List.rel_of_pairwise_cons apart member
        exact readLe_congr fun place low high => writeNext_outside (by omega)
      · rintro _ ⟨⟩
        exact matching
    refine iff_of_false ?_ fun all => matching (all head rfl)
    rintro ⟨_, _, returns, right⟩
    simp only [matching, Bool.false_eq_true, if_false] at returns
    have list := right.list
    simp only [List.eraseP_cons, matching, cond_false] at list
    obtain ⟨same, nonzero, -⟩ := list
    rcases unlink_behind nonzero returns with none | wrong
    · exact nonzero (same ▸ none)
    · exact matching (same ▸ wrong)

/-- The first block of a list is unlinked. -/
theorem unlink_right_iff_first : ∃ found after, unlink (fun _ => true) 2 0 64 (fun _ => 0) = some
    (found, after) ∧
    Unlinks (fun _ => true) (fun _ => 0) [64] found after :=
  have links : Links (fun _ => 0) 64 [64] := ⟨rfl, by decide, rfl⟩
  (unlink_right_iff _ links (by simp) (by decide)).mpr fun _ _ => rfl

/-- A search that finds nothing loses the list, and so does an allocation for which the misc list
has no block that is large enough. -/
theorem unlink_loses_list : Links (fun _ => 0) 64 [64] ∧
    (unlink (fun _ => false) 2 0 64 fun _ => 0).map Prod.fst = some (0, 0) ∧
    (QuickFit.allocMisc 2 ⟨64, 64, 64, fun _ => 0, 64, fun _ => 0, fun _ => 0⟩ 128 64).map
      (fun (found, after) => (found, after.misc)) = some (none, 0) :=
  ⟨⟨rfl, by decide, rfl⟩, rfl, rfl⟩

end R9x.Verif.Unlinking
