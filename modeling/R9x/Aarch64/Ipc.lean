import R9x.Aarch64.Process

/-!
# The kernel's scheduler seam and the channel table

`aarch64/src/ipc.rs` binds the channels to the process table: `KernSched` implements the scheduler
operations by table writes, and `close_all_for` closes the channels a dying process is recorded on.
-/

namespace R9x.Aarch64

open Port.Ipc

/-- What `KernSched` reads and writes: the table and the monotonic counter. -/
structure KernSched (n : Nat) where
  table : Table n
  counter : UInt64

/-- `impl IpcScheduler for KernSched`. A block is of the current process, whose slot the caller
passes; the selection of the next process is the scheduler's and not part of the seam. -/
instance (n : Nat) : IpcScheduler (KernSched n) where
  priority sched id := (sched.table.effectivePriority id).getD 255
  boost sched id level := { sched with table := sched.table.boost id level }
  unboost sched id := { sched with table := sched.table.unboost id }
  block sched id := { sched with table := sched.table.block id }
  wake sched id := { sched with table := sched.table.wake id }
  now sched := sched.counter
  blockAt sched id deadline :=
    { sched with table := (sched.table.setDeadline id deadline).block id }
  ready sched id := sched.table.stateOf id = some .running ∨ sched.table.stateOf id = some .runnable

/-- The channels by their handles. -/
abbrev Channels (m : Nat) := Fin m → ChannelInner

/-- `close_all_for`'s loop body: close a channel the process is recorded on. -/
def closeIfBlockedOn {n m : Nat} (id : ProcId) (system : KernSched n × Channels m)
    (handle : Fin m) : KernSched n × Channels m :=
  if (system.2 handle).isBlockedOn id then
    let (sched, inner) := close system.1 (system.2 handle)
    (sched, Function.update system.2 handle inner)
  else system

def closeAllFor {n m : Nat} (id : ProcId) (sched : KernSched n) (channels : Channels m) :
    KernSched n × Channels m := (List.finRange m).foldl (closeIfBlockedOn id) (sched, channels)

/-! ## Effects on scheduling states -/

section

variable {n : Nat}

section

variable (table : Table n)

lemma stateOf_wake (id read : ProcId) : (table.wake id).stateOf read =
      if read = id ∧ table.stateOf read = some .blocked then some .runnable
      else table.stateOf read := by
  rw [Table.wake, Table.stateOf_modify, Table.stateOf]
  cases table.get read with
  | none => simp
  | some process =>
    by_cases same : read = id
    · by_cases blocked : process.state = .blocked <;> simp [same, blocked]
    · simp [same]

lemma stateOf_block (id read : ProcId) : (table.block id).stateOf read =
      if read = id ∧ table.stateOf read = some .running then some .blocked
      else table.stateOf read := by
  rw [Table.block, Table.stateOf_modify, Table.stateOf]
  cases table.get read with
  | none => simp
  | some process =>
    by_cases same : read = id
    · by_cases running : process.state = .running <;> simp [same, running]
    · simp [same]

lemma stateOf_modify_same (id : ProcId) (change : Process → Process)
    (kept : ∀ process, (change process).state = process.state) :
    (table.modify id change).stateOf = table.stateOf := by
  funext read
  rw [Table.stateOf_modify, Table.stateOf]
  simp only [kept]
  split <;> rfl

lemma stateOf_boost (id : ProcId) (level : Priority) :
    (table.boost id level).stateOf = table.stateOf :=
  stateOf_modify_same table id _ fun _ => rfl

lemma stateOf_unboost (id : ProcId) : (table.unboost id).stateOf = table.stateOf :=
  stateOf_modify_same table id _ fun _ => rfl

lemma stateOf_setDeadline (id : ProcId) (deadline : UInt64) :
    (table.setDeadline id deadline).stateOf = table.stateOf :=
  stateOf_modify_same table id _ fun _ => rfl

end

lemma inheritPriority_states (current : Option ProcId) (receiver : ProcId) (sched : KernSched n) :
    (inheritPriority current receiver sched).table.stateOf = sched.table.stateOf ∧
      (inheritPriority current receiver sched).counter = sched.counter := by
  unfold inheritPriority
  split
  · split
    · exact ⟨stateOf_boost _ _ _, rfl⟩
    · exact ⟨rfl, rfl⟩
  · exact ⟨rfl, rfl⟩

lemma stateOf_wakeWaiter (sched : KernSched n) (waiter : Option ProcId) (read : ProcId) :
    (wakeWaiter sched waiter).table.stateOf read =
      if waiter = some read ∧ sched.table.stateOf read = some .blocked then some .runnable
      else sched.table.stateOf read := by
  cases waiter with
  | none => simp [wakeWaiter]
  | some id =>
    have woken := stateOf_wake sched.table id read
    simp only [wakeWaiter, Option.some.injEq, eq_comm (a := id)]
    exact woken

lemma counter_wakeWaiter (sched : KernSched n) (waiter : Option ProcId) :
    (wakeWaiter sched waiter).counter = sched.counter := by
  cases waiter <;> rfl

lemma stateOf_close (sched : KernSched n) (inner : ChannelInner) (read : ProcId) :
    (close sched inner).1.table.stateOf read =
      if inner.isBlockedOn read ∧ sched.table.stateOf read = some .blocked then some .runnable
      else sched.table.stateOf read := by
  simp only [close, closeSection, stateOf_wakeWaiter, ChannelInner.isBlockedOn, Bool.or_eq_true,
    beq_iff_eq]
  by_cases receiver : inner.recvWaiter = some read <;>
    by_cases sender : inner.sendWaiter = some read <;>
    by_cases blocked : sched.table.stateOf read = some .blocked <;>
    simp [receiver, sender, blocked]

end

/-! ## What `close_all_for` does -/

variable {n m : Nat} (id : ProcId)

lemma closeIfBlockedOn_channel (system : KernSched n × Channels m) (handle read : Fin m) :
    (closeIfBlockedOn id system handle).2 read =
      if read = handle ∧ (system.2 read).isBlockedOn id then (closeSection (system.2 read)).2
      else system.2 read := by
  unfold closeIfBlockedOn
  by_cases recorded : (system.2 handle).isBlockedOn id
  · simp only [recorded, ↓reduceIte]
    change Function.update system.2 handle _ read = _
    by_cases same : read = handle
    · subst same
      simp [recorded, close, closeSection]
    · simp [same]
  by_cases same : read = handle
  · subst same
    simp [recorded]
  · simp [recorded, same]

lemma closeLoop_channel (handles : List (Fin m)) (distinct : handles.Nodup)
    (system : KernSched n × Channels m) (read : Fin m) :
    (handles.foldl (closeIfBlockedOn id) system).2 read =
      if read ∈ handles ∧ (system.2 read).isBlockedOn id then (closeSection (system.2 read)).2
      else system.2 read := by
  induction handles generalizing system with
  | nil => simp
  | cons handle _ ih =>
    obtain ⟨absent, distinct⟩ := List.nodup_cons.mp distinct
    rw [List.foldl_cons, ih distinct, closeIfBlockedOn_channel]
    by_cases same : read = handle
    · subst same
      simp [absent]
    · simp [same]

lemma closeAllFor_channel (sched : KernSched n) (channels : Channels m) (read : Fin m) :
    (closeAllFor id sched channels).2 read =
      if (channels read).isBlockedOn id then (closeSection (channels read)).2
      else channels read := by
  unfold closeAllFor
  rw [closeLoop_channel id _ (List.nodup_finRange m)]
  simp

lemma closeLoop_counter (handles : List (Fin m)) (system : KernSched n × Channels m) :
    (handles.foldl (closeIfBlockedOn id) system).1.counter = system.1.counter := by
  induction handles generalizing system with
  | nil => rfl
  | cons _ _ ih =>
    rw [List.foldl_cons, ih]
    unfold closeIfBlockedOn
    split
    · simp [close, closeSection, counter_wakeWaiter]
    · rfl

lemma closeLoop_states (handles : List (Fin m)) (distinct : handles.Nodup)
    (system : KernSched n × Channels m) (read : ProcId) :
    (handles.foldl (closeIfBlockedOn id) system).1.table.stateOf read =
      if (∃ handle ∈ handles, (system.2 handle).isBlockedOn id ∧
          (system.2 handle).isBlockedOn read) ∧ system.1.table.stateOf read = some .blocked
      then some .runnable else system.1.table.stateOf read := by
  induction handles generalizing system with
  | nil => simp
  | cons handle handles ih =>
    obtain ⟨absent, distinct⟩ := List.nodup_cons.mp distinct
    have untouched : ∀ other ∈ handles, (closeIfBlockedOn id system handle).2 other =
      system.2 other := by
      intro _ member
      rw [closeIfBlockedOn_channel, if_neg]
      rintro ⟨rfl, -⟩
      exact absent member
    have rest : (∃ other ∈ handles, ((closeIfBlockedOn id system handle).2 other).isBlockedOn id ∧
          ((closeIfBlockedOn id system handle).2 other).isBlockedOn read) ↔
        ∃ other ∈ handles, (system.2 other).isBlockedOn id ∧ (system.2 other).isBlockedOn read := by
      constructor <;> rintro ⟨other, member, facts⟩ <;> refine ⟨other, member, ?_⟩
      · rwa [untouched other member] at facts
      · rwa [untouched other member]
    have here : (closeIfBlockedOn id system handle).1.table.stateOf read =
        if ((system.2 handle).isBlockedOn id ∧ (system.2 handle).isBlockedOn read) ∧
          system.1.table.stateOf read = some .blocked then some .runnable
        else system.1.table.stateOf read := by
      unfold closeIfBlockedOn
      by_cases recorded : (system.2 handle).isBlockedOn id
      · simp only [recorded, ↓reduceIte, true_and]
        exact stateOf_close system.1 (system.2 handle) read
      · simp [recorded]
    rw [List.foldl_cons, ih distinct, here]
    simp only [rest, List.exists_mem_cons_iff]
    by_cases blocked : system.1.table.stateOf read = some .blocked <;> grind

lemma closeAllFor_states (sched : KernSched n) (channels : Channels m) (read : ProcId) :
    (closeAllFor id sched channels).1.table.stateOf read =
      if (∃ handle, (channels handle).isBlockedOn id ∧ (channels handle).isBlockedOn read) ∧
          sched.table.stateOf read = some .blocked
      then some .runnable else sched.table.stateOf read := by
  unfold closeAllFor
  rw [closeLoop_states id _ (List.nodup_finRange m)]
  simp

end R9x.Aarch64
