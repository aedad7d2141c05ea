import R9x.Port.Ipc

/-!
# What the critical sections do to a sound channel

A channel is sound when its queue is well formed, a recorded receiver means an empty queue, a
recorded sender means a full one, and a closed channel records nobody.
-/

namespace R9x.Port.Ipc

open BoundedQueue (push_room push_full pop_message pop_empty)
open IpcScheduler (now unboost wake)
open Bool (false_eq_true)

variable {σ : Type} {inner : ChannelInner}

/-- The channel invariant: the ring, the two waiter slots and the close flag fit together. -/
structure ChannelInner.Sound (inner : ChannelInner) : Prop where
  formed : inner.queue.WellFormed
  recvEmpty : ∀ id, inner.recvWaiter = some id → inner.queue.len = 0
  sendFull : ∀ id, inner.sendWaiter = some id → inner.queue.len = queueCap
  closedFree : inner.closed = true → inner.recvWaiter = none ∧ inner.sendWaiter = none

lemma ChannelInner.new_sound : ChannelInner.new.Sound where
  formed := BoundedQueue.new_wellFormed.1
  recvEmpty _ waiting := nomatch waiting
  sendFull _ waiting := nomatch waiting
  closedFree closed := nomatch closed

lemma ChannelInner.Sound.exclusive (sound : inner.Sound) {receiver : ProcId}
    (waiting : inner.recvWaiter = some receiver) : inner.sendWaiter = none := by
  cases blocked : inner.sendWaiter with
  | none => rfl
  | some sender =>
    have empty := sound.recvEmpty receiver waiting
    have full := sound.sendFull sender blocked
    rw [empty] at full
    exact absurd full (by decide)

/-- The cases of `send`'s first section. -/
inductive SendCase [IpcScheduler σ] (current : Option ProcId) (msg : Message) (sched : σ)
    (inner : ChannelInner) : Except Panic (SendSection σ) → Prop
  | closed (closed : inner.closed = true) :
    SendCase current msg sched inner (.ok ⟨.error .closed, false, sched, inner⟩)
  | fast (receiver : ProcId) (opened : inner.closed = false)
    (waiting : inner.recvWaiter = some receiver) (empty : inner.queue.len = 0) :
    SendCase current msg sched inner
      (.ok ⟨.ok (some receiver), true, inheritPriority current receiver sched,
      { inner with recvWaiter := none, queue := (inner.queue.push msg).2 }⟩)
  | slow (opened : inner.closed = false) (free : inner.recvWaiter = none)
    (room : inner.queue.len < queueCap) :
    SendCase current msg sched inner
      (.ok ⟨.ok none, true, sched, { inner with queue := (inner.queue.push msg).2 }⟩)
  | full (me : ProcId) (process : current = some me) (opened : inner.closed = false)
    (free : inner.recvWaiter = none) (full : inner.queue.len = queueCap) :
    SendCase current msg sched inner
      (.ok ⟨.ok none, false, sched, { inner with sendWaiter := some me }⟩)
  | stray (kernel : current = none) (opened : inner.closed = false)
    (free : inner.recvWaiter = none) (full : inner.queue.len = queueCap) :
    SendCase current msg sched inner (.error .sendNeedsProcess)

lemma sendSection_case [IpcScheduler σ] (sound : inner.Sound) (current : Option ProcId)
    (msg : Message) (sched : σ) :
    SendCase current msg sched inner (sendSection current msg sched inner) := by
  obtain ⟨queue, recvWaiter, _, closed⟩ := inner
  cases closed with
  | true => exact .closed rfl
  | false =>
    cases recvWaiter with
    | some receiver =>
      have empty : queue.len = 0 := sound.recvEmpty receiver rfl
      have pushed := (push_room sound.formed (by rw [empty]; decide) msg).1
      simp only [sendSection, pushed, false_eq_true, ↓reduceIte]
      exact .fast receiver rfl rfl empty
    | none =>
      by_cases full : queue.len = queueCap
      · have refused := push_full full msg
        cases current with
        | some me =>
          simp only [sendSection, refused, false_eq_true, ↓reduceIte]
          exact .full me rfl rfl rfl full
        | none =>
          simp only [sendSection, refused, false_eq_true, ↓reduceIte]
          exact .stray rfl rfl rfl full
      have room : queue.len < queueCap := Nat.lt_of_le_of_ne sound.formed.bounded full
      have pushed := (push_room sound.formed room msg).1
      simp only [sendSection, pushed, false_eq_true, ↓reduceIte]
      exact .slow rfl rfl room

/-- The cases of `try_send`'s section. -/
inductive TrySendCase (msg : Message) (sched : σ) (inner : ChannelInner) :
    Except Panic (SendSection σ) → Prop
  | closed (closed : inner.closed = true) :
    TrySendCase msg sched inner (.ok ⟨.error .closed, false, sched, inner⟩)
  | fast (receiver : ProcId) (opened : inner.closed = false)
    (waiting : inner.recvWaiter = some receiver) (empty : inner.queue.len = 0) :
    TrySendCase msg sched inner (.ok ⟨.ok (some receiver), true, sched,
      { inner with recvWaiter := none, queue := (inner.queue.push msg).2 }⟩)
  | slow (opened : inner.closed = false) (free : inner.recvWaiter = none)
    (room : inner.queue.len < queueCap) :
    TrySendCase msg sched inner
      (.ok ⟨.ok none, true, sched, { inner with queue := (inner.queue.push msg).2 }⟩)
  | full (opened : inner.closed = false) (free : inner.recvWaiter = none)
    (full : inner.queue.len = queueCap) :
    TrySendCase msg sched inner (.ok ⟨.error .full, false, sched, inner⟩)

lemma trySendSection_case (sound : inner.Sound) (msg : Message) (sched : σ)
    : TrySendCase msg sched inner (trySendSection msg sched inner) := by
  obtain ⟨queue, recvWaiter, _, closed⟩ := inner
  cases closed with
  | true => exact .closed rfl
  | false =>
    cases recvWaiter with
    | some receiver =>
      have empty : queue.len = 0 := sound.recvEmpty receiver rfl
      have pushed := (push_room sound.formed (by rw [empty]; decide) msg).1
      simp only [trySendSection, pushed, false_eq_true, ↓reduceIte]
      exact .fast receiver rfl rfl empty
    | none =>
      by_cases full : queue.len = queueCap
      · simp only [trySendSection, push_full full msg, false_eq_true, ↓reduceIte]
        exact .full rfl rfl full
      have room : queue.len < queueCap := Nat.lt_of_le_of_ne sound.formed.bounded full
      have pushed := (push_room sound.formed room msg).1
      simp only [trySendSection, pushed, false_eq_true, ↓reduceIte]
      exact .slow rfl rfl room

/-- The cases of the section `receive` and `receive_at` share. -/
inductive ReceiveCase [IpcScheduler σ] (deadline : Option UInt64) (me : ProcId) (sched : σ)
    (inner : ChannelInner) : ReceiveOutcome × σ × ChannelInner → Prop
  | closed (closed : inner.closed = true) :
      ReceiveCase deadline me sched inner (.closed, sched, inner)
  | message (msg : Message) (rest : List Message) (opened : inner.closed = false)
    (filled : 0 < inner.queue.len) (first : inner.queue.contents = msg :: rest) :
    ReceiveCase deadline me sched inner (.message msg inner.sendWaiter, sched,
      { inner with queue := inner.queue.pop.2, sendWaiter := none })
  | timeout (limit : UInt64) (bounded : deadline = some limit) (opened : inner.closed = false)
    (empty : inner.queue.len = 0) (reached : limit ≤ now sched) :
    ReceiveCase deadline me sched inner (.timeout, sched, inner)
  | block (opened : inner.closed = false) (empty : inner.queue.len = 0)
    (early : ∀ limit, deadline = some limit → now sched < limit) :
    ReceiveCase deadline me sched inner (.block, unboost sched me,
      { inner with recvWaiter := some me })

lemma pop_eq {queue : BoundedQueue} (formed : queue.WellFormed) (filled : 0 < queue.len) :
    ∃ msg rest, queue.contents = msg :: rest ∧ queue.pop = (some msg, queue.pop.2) := by
  obtain ⟨msg, rest, first, popped, _⟩ := pop_message formed filled
  exact ⟨msg, rest, first, by rw [← popped]⟩

lemma receiveLocked_case [IpcScheduler σ] (sound : inner.Sound) (deadline : Option UInt64)
    (me : ProcId) (sched : σ) :
    ReceiveCase deadline me sched inner (receiveLocked deadline me sched inner) := by
  obtain ⟨queue, _, _, closed⟩ := inner
  cases closed with
  | true => exact .closed rfl
  | false =>
    by_cases empty : queue.len = 0
    · simp only [receiveLocked, pop_empty sound.formed empty, false_eq_true, ↓reduceIte]
      cases deadline with
      | none => exact .block rfl empty (by simp)
      | some limit =>
        by_cases reached : limit ≤ now sched
        · simp only [Option.any_some, ge_iff_le, reached, decide_true, ↓reduceIte]
          exact .timeout limit rfl rfl empty reached
        simp only [Option.any_some, ge_iff_le, reached, decide_false, false_eq_true, ↓reduceIte]
        refine .block rfl empty fun other bounded => ?_
        cases bounded
        exact UInt64.not_le.mp reached
    have filled : 0 < queue.len := Nat.pos_of_ne_zero empty
    obtain ⟨msg, rest, first, popped⟩ := pop_eq sound.formed filled
    simp only [receiveLocked, false_eq_true, ↓reduceIte]
    rw [popped]
    exact .message msg rest rfl filled first

/-- The cases of `try_receive`'s section. -/
inductive TryReceiveCase (inner : ChannelInner) : ReceiveOutcome × ChannelInner → Prop
  | closed (closed : inner.closed = true) : TryReceiveCase inner (.closed, inner)
  | message (msg : Message) (rest : List Message) (opened : inner.closed = false)
    (filled : 0 < inner.queue.len) (first : inner.queue.contents = msg :: rest) :
    TryReceiveCase inner (.message msg inner.sendWaiter,
      { inner with queue := inner.queue.pop.2, sendWaiter := none })
  | empty (opened : inner.closed = false) (empty : inner.queue.len = 0) :
      TryReceiveCase inner (.empty, inner)

lemma tryReceiveSection_case (sound : inner.Sound) :
    TryReceiveCase inner (tryReceiveSection inner) := by
  obtain ⟨queue, _, _, closed⟩ := inner
  cases closed with
  | true => exact .closed rfl
  | false =>
    by_cases empty : queue.len = 0
    · simp only [tryReceiveSection, pop_empty sound.formed empty, false_eq_true, ↓reduceIte]
      exact .empty rfl empty
    have filled : 0 < queue.len := Nat.pos_of_ne_zero empty
    obtain ⟨msg, rest, first, popped⟩ := pop_eq sound.formed filled
    simp only [tryReceiveSection, false_eq_true, ↓reduceIte]
    rw [popped]
    exact .message msg rest rfl filled first

namespace ChannelInner.Sound

section

variable (sound : inner.Sound) (opened : inner.closed = false)
include sound opened

lemma push (room : inner.queue.len < queueCap) (msg : Message) :
    Sound { inner with recvWaiter := none, queue := (inner.queue.push msg).2 } := by
  obtain ⟨-, formed, -, -⟩ := push_room sound.formed room msg
  refine ⟨formed, fun _ waiting => (nomatch waiting), fun id waiting => ?_, fun closed => ?_⟩
  · have full := sound.sendFull id waiting
    omega
  · rw [opened] at closed
    contradiction

lemma recordSender (full : inner.queue.len = queueCap) (me : ProcId) :
    Sound { inner with sendWaiter := some me } := by
  refine ⟨sound.formed, sound.recvEmpty, fun _ _ => full, fun closed => ?_⟩
  rw [opened] at closed
  contradiction

lemma recordReceiver (empty : inner.queue.len = 0) (me : ProcId) :
    Sound { inner with recvWaiter := some me } := by
  refine ⟨sound.formed, fun _ _ => empty, sound.sendFull, fun closed => ?_⟩
  rw [opened] at closed
  contradiction

lemma pop (filled : 0 < inner.queue.len) :
    Sound { inner with queue := inner.queue.pop.2, sendWaiter := none } := by
  obtain ⟨_, _, _, _, formed, _, _⟩ := pop_message sound.formed filled
  refine ⟨formed, fun id waiting => ?_, fun _ waiting => (nomatch waiting), fun closed => ?_⟩
  · have empty := sound.recvEmpty id waiting
    omega
  · rw [opened] at closed
    contradiction

end

lemma close (sound : inner.Sound) : (closeSection inner).2.Sound :=
  ⟨sound.formed, fun _ waiting => (nomatch waiting), fun _ waiting => (nomatch waiting), fun _ =>
    ⟨rfl, rfl⟩⟩

end ChannelInner.Sound

/-! ## One pass of a call -/

def handOver [IpcScheduler σ] (call : Call) (me receiver : ProcId) (sched : σ) : σ :=
  match call with
  | .send _ => inheritPriority (some me) receiver sched
  | _ => sched

def sleepIn [IpcScheduler σ] (call : Call) (me : ProcId) (sched : σ) : σ :=
  match call with
  | .receiveAt deadline => IpcScheduler.blockAt sched me deadline
  | _ => IpcScheduler.block sched me

/-- The cases of one pass of a call, with the exact states each leaves. -/
inductive PassRan [IpcScheduler σ] (call : Call) (me : ProcId) (sched : σ) (inner : ChannelInner) :
    Progress σ → Prop
  | closed (shut : inner.closed = true) (other : call ≠ .close) :
    PassRan call me sched inner ⟨.returned (.error .closed), sched, inner⟩
  | handoff (msg : Message) (receiver : ProcId) (posts : call = .send msg ∨ call = .trySend msg)
    (opened : inner.closed = false) (waiting : inner.recvWaiter = some receiver)
    (empty : inner.queue.len = 0) :
    PassRan call me sched inner ⟨.returned (.ok none),
      wake (handOver call me receiver sched) receiver,
      { inner with recvWaiter := none, queue := (inner.queue.push msg).2 }⟩
  | queued (msg : Message) (posts : call = .send msg ∨ call = .trySend msg)
    (opened : inner.closed = false) (free : inner.recvWaiter = none)
    (room : inner.queue.len < queueCap) :
    PassRan call me sched inner
      ⟨.returned (.ok none), sched, { inner with queue := (inner.queue.push msg).2 }⟩
  | refused (msg : Message) (posts : call = .trySend msg) (opened : inner.closed = false)
    (full : inner.queue.len = queueCap) :
    PassRan call me sched inner ⟨.returned (.error .full), sched, inner⟩
  | full (msg : Message) (sends : call = .send msg) (opened : inner.closed = false)
    (free : inner.recvWaiter = none) (full : inner.queue.len = queueCap) :
    PassRan call me sched inner
      ⟨.blocked, IpcScheduler.block sched me, { inner with sendWaiter := some me }⟩
  | popped (msg : Message) (rest : List Message)
    (takes : call.receives = true ∨ call = .tryReceive) (opened : inner.closed = false)
    (filled : 0 < inner.queue.len) (first : inner.queue.contents = msg :: rest) :
    PassRan call me sched inner ⟨.returned (.ok (some msg)), wakeWaiter sched inner.sendWaiter,
      { inner with queue := inner.queue.pop.2, sendWaiter := none }⟩
  | nothing (takes : call = .tryReceive) (opened : inner.closed = false)
    (empty : inner.queue.len = 0) :
    PassRan call me sched inner ⟨.returned (.error .empty), sched, inner⟩
  | timeout (deadline : UInt64) (bounded : call = .receiveAt deadline)
    (opened : inner.closed = false) (empty : inner.queue.len = 0)
    (reached : deadline ≤ now sched) :
    PassRan call me sched inner ⟨.returned (.ok (some timeoutMessage)), sched, inner⟩
  | sleeps (receives : call.receives = true) (opened : inner.closed = false)
    (empty : inner.queue.len = 0)
    (early : ∀ deadline, call = .receiveAt deadline → now sched < deadline) :
    PassRan call me sched inner ⟨.blocked, sleepIn call me (unboost sched me),
      { inner with recvWaiter := some me }⟩
  | close (closes : call = .close) : PassRan call me sched inner
      ⟨.returned (.ok none), (close sched inner).1, (closeSection inner).2⟩

lemma receive_ran [IpcScheduler σ] (sound : inner.Sound) {call : Call}
    (receives : call.receives = true) (me : ProcId) (sched : σ) (deadline : Option UInt64)
    (limit : ∀ bound, call = .receiveAt bound ↔ deadline = some bound) :
    PassRan call me sched inner
      (finishReceive (sleepIn call me) (receiveLocked deadline me sched inner)) := by
  have ran := receiveLocked_case sound deadline me sched
  generalize receiveLocked deadline me sched inner = result at ran
  cases ran with
  | closed shut =>
    apply PassRan.closed shut
    rintro rfl
    cases receives
  | message msg rest opened filled first =>
    exact .popped msg rest (.inl receives) opened filled first
  | timeout bound bounded opened empty reached =>
    exact .timeout bound ((limit bound).mpr bounded) opened empty reached
  | block opened empty early =>
    exact .sleeps receives opened empty fun bound same => early bound ((limit bound).mp same)

lemma pass_ran [IpcScheduler σ] (sound : inner.Sound) (call : Call) (me : ProcId) (sched : σ)
    : PassRan call me sched inner (call.pass me sched inner) := by
  cases call with
  | send msg =>
    have ran := sendSection_case sound (some me) msg sched
    simp only [Call.pass, send]
    generalize sendSection (some me) msg sched inner = result at ran
    cases ran with
    | closed shut => exact .closed shut (by simp)
    | fast receiver opened waiting empty =>
      exact .handoff msg receiver (.inl rfl) opened waiting empty
    | slow opened free room =>
      have retry : sendBlocked { inner with queue := (inner.queue.push msg).2 } = false := by
        cases blocked : inner.sendWaiter with
        | none => simp [sendBlocked]
        | some id =>
          have full := sound.sendFull id blocked
          omega
      simp only [retry, false_eq_true, ↓reduceIte]
      exact .queued msg (.inl rfl) opened free room
    | full _ process opened free full =>
      cases process
      exact .full msg rfl opened free full
    | stray kernel => cases kernel
  | trySend msg =>
    have ran := trySendSection_case sound msg sched
    simp only [Call.pass, trySend]
    generalize trySendSection msg sched inner = result at ran
    cases ran with
    | closed shut => exact .closed shut (by simp)
    | fast receiver opened waiting empty =>
      exact .handoff msg receiver (.inr rfl) opened waiting empty
    | slow opened free room => exact .queued msg (.inr rfl) opened free room
    | full opened _ full => exact .refused msg rfl opened full
  | receive => exact receive_ran sound rfl me sched none (by simp)
  | receiveAt deadline => exact receive_ran sound rfl me sched (some deadline) (by simp)
  | tryReceive =>
    have ran := tryReceiveSection_case sound
    simp only [Call.pass, tryReceive]
    generalize tryReceiveSection inner = result at ran
    cases ran with
    | closed shut => exact .closed shut (by simp)
    | message msg rest opened filled first =>
      exact .popped msg rest (.inr rfl) opened filled first
    | empty opened empty => exact .nothing rfl opened empty
  | close => exact .close rfl

end R9x.Port.Ipc
