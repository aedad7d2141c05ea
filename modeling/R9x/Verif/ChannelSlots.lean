import R9x.Aarch64.Syscalls
import R9x.Lib.Run

/-!
# Concurrent calls of `try_create`

A call adds to the counter of channels, and past the end of the table it takes that back in a second
operation. Calls on any number of cores interleave at these operations.
-/

namespace R9x.Verif.ChannelSlots

open Lib Aarch64

/-- The counter, the handles reserved and the calls that will fail. -/
structure Slots where
  nused : Nat
  /-- The handles that calls have returned, the last one first. -/
  handles : List Nat
  /-- The calls between their `fetch_add` past the end and their `fetch_sub`. -/
  failing : Nat
  failed : Nat

/-- The two atomic updates of the count. -/
inductive Label where
  | fetchAdd
  | fetchSub

def step (slots : Slots) : Label → Option Slots
  | .fetchAdd =>
    let added := { slots with nused := slots.nused + 1 }
    some (if slots.nused < nchannels then { added with handles := slots.nused :: slots.handles }
      else { added with failing := slots.failing + 1 })
  | .fetchSub =>
    if 0 < slots.failing then
      some { slots with
        nused := slots.nused - 1
        failing := slots.failing - 1
        failed := slots.failed + 1 }
    else none

/-- No handle is reserved twice, and each names a channel. -/
structure HandlesOnce (slots : Slots) : Prop where
  once : slots.handles.Nodup
  below : ∀ handle ∈ slots.handles, handle < nchannels
  counted : slots.handles.length ≤ slots.nused
  /-- A call fails only when every handle is reserved. -/
  full : 0 < slots.failing + slots.failed → slots.handles.length = nchannels
  found : ∀ {n : Nat} (env : Env n), env.nused = slots.nused →
    ∀ handle ∈ slots.handles, (env.channel handle).isSome

/-- The invariant: the counter is ahead of the handles. -/
structure Inv (slots : Slots) (reserved : Nat) : Prop where
  bound : reserved ≤ nchannels
  handles : slots.handles = (List.range reserved).reverse
  nused : slots.nused = reserved + slots.failing
  full : 0 < slots.failing + slots.failed → reserved = nchannels

lemma Inv.right {slots : Slots} {reserved : Nat} (inv : Inv slots reserved) :
    HandlesOnce slots := by
  have nused := inv.nused
  have length : slots.handles.length = reserved := by
    rw [inv.handles, List.length_reverse, List.length_range]
  have below : ∀ handle ∈ slots.handles, handle < reserved := by
    intro _ member
    rw [inv.handles, List.mem_reverse] at member
    exact List.mem_range.mp member
  refine ⟨?_, fun handle member => Nat.lt_of_lt_of_le (below handle member) inv.bound, by omega,
    length ▸ inv.full, ?_⟩
  · rw [inv.handles]
    exact List.nodup_reverse.mpr List.nodup_range
  · intro n env same handle member
    have less := below handle member
    have bound := inv.bound
    rw [Env.channel, dif_pos (by omega), if_pos (by omega)]
    rfl

lemma Inv.step (slots : Slots) (label : Label) (next : Slots) (inv : ∃ reserved, Inv slots reserved)
    (taken : step slots label = some next) : ∃ reserved, Inv next reserved := by
  obtain ⟨reserved, bound, handles, nused, full⟩ := inv
  cases label with
  | fetchAdd =>
    cases taken
    split
    · -- nothing is failing, so that the counter is the number of handles
      have none : slots.failing = 0 := by omega
      refine ⟨reserved + 1, by omega, ?_, ?_, fun some => ?_⟩
      · simp only [handles, nused, none, List.range_succ, List.reverse_append, Nat.add_zero]
        rfl
      · simp only [nused, none, Nat.add_zero]
      · have := full some
        omega
    refine ⟨reserved, bound, handles, ?_, fun _ => ?_⟩
    · simp only [nused, Nat.add_assoc]
    · by_cases some : 0 < slots.failing
      · exact full (by omega)
      · omega
  | fetchSub =>
    rw [ChannelSlots.step, Option.ite_none_right_eq_some] at taken
    obtain ⟨some, ⟨⟩⟩ := taken
    exact ⟨reserved, bound, handles, by dsimp only; omega, fun _ => full (by omega)⟩

/-- In every interleaving of any number of calls: no handle is returned twice, every one is below
the size of the table, a call fails only after all handles are reserved, and the counter stays at or
above their number, so that `channel` finds each of them from then on. -/
theorem tryCreate_right (labels : List Label) :
    Throughout step HandlesOnce ⟨0, [], 0, 0⟩ labels := by
  refine throughout_of_invariant Inv.step (fun _ ⟨_, inv⟩ => inv.right) ?_ labels
  exact ⟨0, by decide, rfl, rfl, nofun⟩

end R9x.Verif.ChannelSlots
