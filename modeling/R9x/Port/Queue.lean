import R9x.Lib.Ring

/-!
# Messages and the bounded queue of a channel

`port/src/ipc.rs`: the fixed message, and the FIFO of at most `QUEUE_CAP` messages kept in a fixed
array of optional slots.
-/

namespace R9x.Port.Ipc

open Lib

/-- `MSG_MAX`: the payload bytes a message carries at most. -/
def msgMax : Nat := 256

/-- `RECEIVE_TIMEOUT`: the opcode of the message a timed-out bounded receive returns. -/
def receiveTimeout : UInt16 := 0xffff

/-- The bounded, tagged, fixed message. -/
structure Message where
  opcode : UInt16
  tag : UInt32
  len : UInt16
  buf : Vector UInt8 msgMax
  deriving DecidableEq

/-- `Message::new`: copy the payload, truncated to `MSG_MAX`, over a zeroed buffer. -/
def Message.new (opcode : UInt16) (tag : UInt32) (data : List UInt8) : Message where
  opcode :=
  opcode
  tag := tag
  len := UInt16.ofNat (min data.length msgMax)
  buf := Vector.ofFn fun index : Fin msgMax => data.getD index 0

/-- The message `receive_at` returns when the deadline beats every message. -/
def timeoutMessage : Message := ⟨receiveTimeout, 0, 0, Vector.replicate msgMax 0⟩

/-- `QUEUE_CAP`: the slots of a channel. -/
def queueCap : Nat := 8

/-- A bounded FIFO of messages in a fixed array. -/
structure BoundedQueue where
  slots : Vector (Option Message) queueCap
  head : Fin queueCap
  len : Nat
  deriving DecidableEq

namespace BoundedQueue

def new : BoundedQueue := ⟨Vector.replicate queueCap none, ⟨0, by decide⟩, 0⟩

def isFull (queue : BoundedQueue) : Bool := queue.len == queueCap

/-- `BoundedQueue::push`: refuse, leaving the queue unchanged, when full. -/
def push (queue : BoundedQueue) (msg : Message) : Bool × BoundedQueue :=
  if queue.isFull then (false, queue)
  else
    let tail := Ring.cell queue.head queue.len
    (true, { queue with slots := queue.slots.set tail (some msg), len := queue.len + 1 })

/-- `BoundedQueue::pop`: take the head slot; an empty slot leaves the queue unchanged. -/
def pop (queue : BoundedQueue) : Option Message × BoundedQueue :=
  match queue.slots.get queue.head with
  | none => (none, queue)
  | some msg =>
    (some msg, ⟨queue.slots.set queue.head none, Ring.cell queue.head 1, queue.len - 1⟩)

/-- The queued messages in order: the `len` slots from `head` on. -/
def contents (queue : BoundedQueue) : List Message := Ring.window queue.slots queue.head queue.len

/-- Exactly the `len` slots from `head` on are filled, and they fit. -/
structure WellFormed (queue : BoundedQueue) : Prop where
  bounded : queue.len ≤ queueCap
  filled : ∀ offset, offset < queueCap →
    ((queue.slots.get (Ring.cell queue.head offset)).isSome ↔ offset < queue.len)

variable {queue : BoundedQueue}

lemma WellFormed.holds (formed : queue.WellFormed) :
    Ring.Holds queue.slots queue.head queue.contents ∧ queue.contents.length = queue.len :=
  Ring.holds_window formed.bounded formed.filled

lemma wellFormed_of_holds (queue : BoundedQueue) (xs : List Message)
    (held : Ring.Holds queue.slots queue.head xs) (length : queue.len = xs.length) :
    queue.WellFormed ∧ queue.contents = xs := by
  obtain ⟨window, filled⟩ := held.window_eq
  refine ⟨⟨length ▸ held.1, ?_⟩, ?_⟩
  · rw [length]
    exact filled
  · rw [contents, length]
    exact window

lemma new_wellFormed : new.WellFormed ∧ new.contents = [] :=
    wellFormed_of_holds new [] (Ring.holds_nil _) rfl

lemma push_room (formed : queue.WellFormed) (room : queue.len < queueCap) (msg : Message) :
    (queue.push msg).1 = true ∧ (queue.push msg).2.WellFormed ∧
      (queue.push msg).2.contents = queue.contents ++ [msg] ∧
      (queue.push msg).2.len = queue.len + 1 := by
  obtain ⟨held, length⟩ := formed.holds
  have notFull : queue.isFull = false := by
    simp only [isFull, beq_eq_false_iff_ne]
    omega
  have result := wellFormed_of_holds (queue.push msg).2 (queue.contents ++ [msg])
    (by simpa [push, notFull] using held.push length room msg) (by simp [push, notFull, length])
  exact ⟨by simp [push, notFull], result.1, result.2, by simp [push, notFull]⟩

lemma push_full (full : queue.len = queueCap) (msg : Message) :
    queue.push msg = (false, queue) := by
  simp [push, isFull, full]

lemma pop_empty (formed : queue.WellFormed) (empty : queue.len = 0) :
    queue.pop = (none, queue) := by
  obtain ⟨held, length⟩ := formed.holds
  have nothing : queue.contents = [] := List.eq_nil_of_length_eq_zero (by omega)
  have first := held.first
  rw [nothing] at first
  simp only [pop, first, List.head?_nil]

lemma pop_message (formed : queue.WellFormed) (some : 0 < queue.len) :
    ∃ msg rest, queue.contents = msg :: rest ∧ queue.pop.1 = Option.some msg ∧
      queue.pop.2.WellFormed ∧ queue.pop.2.contents = rest ∧ queue.pop.2.len + 1 = queue.len := by
  obtain ⟨held, length⟩ := formed.holds
  cases listed : queue.contents with
  | nil => simp [listed] at length; omega
  | cons msg rest =>
    rw [listed] at held length
    have first := held.first
    rw [List.head?_cons] at first
    simp only [List.length_cons] at length
    have result := wellFormed_of_holds queue.pop.2 rest
      (by simpa [pop, first] using held.pop) (by simp only [pop, first]; omega)
    exact ⟨msg, rest, rfl, by simp only [pop, first], result.1,
      result.2, by simp only [pop, first]; omega⟩

end BoundedQueue

end R9x.Port.Ipc
