import R9x.Port.Queue

/-!
# Channels and their critical sections

`port/src/ipc.rs` works on a channel only inside blocks that hold the channel lock.
-/

namespace R9x.Port.Ipc

/-- A process id, as far as the scheduler is concerned: an opaque index. -/
abbrev ProcId := Nat

/-- The errors a send, receive or reply can return. -/
inductive IpcErr where
  | closed
  | full
  | badTag
  | empty
  deriving DecidableEq

/-- The scheduler seam: what the channels need of an architecture. -/
class IpcScheduler (σ : Type) where
  priority : σ → ProcId → UInt8
  boost : σ → ProcId → UInt8 → σ
  unboost : σ → ProcId → σ
  block : σ → ProcId → σ
  wake : σ → ProcId → σ
  now : σ → UInt64
  blockAt : σ → ProcId → UInt64 → σ
  ready : σ → ProcId → Bool

/-- The state a channel's lock guards. -/
structure ChannelInner where
  queue : BoundedQueue
  recvWaiter : Option ProcId
  sendWaiter : Option ProcId
  closed : Bool
  deriving DecidableEq

namespace ChannelInner

def new : ChannelInner := ⟨.new, none, none, false⟩

/-- `Channel::is_blocked_on`: the process is recorded in either waiter slot. -/
def isBlockedOn (inner : ChannelInner) (id : ProcId) : Bool :=
  inner.recvWaiter == some id || inner.sendWaiter == some id

end ChannelInner

/-- A failed assertion or `expect` inside a critical section. -/
inductive Panic where
  | handoffRefused
  | sendNeedsProcess
  | receiveNeedsProcess
  deriving DecidableEq

/-! ## The sections -/

section

variable {σ : Type} [IpcScheduler σ]

/-- What `close` takes out of the channel under the lock: both waiters. -/
def closeSection (inner : ChannelInner) : (Option ProcId × Option ProcId) × ChannelInner :=
  ((inner.recvWaiter, inner.sendWaiter),
    { inner with closed := true, recvWaiter := none, sendWaiter := none })

/-- What a sending section leaves: the early return or `fast`, whether the message was pushed, and
the two states. The source does not keep `pushed` past the section. -/
structure SendSection (σ : Type) where
  fast : Except IpcErr (Option ProcId)
  pushed : Bool
  sched : σ
  inner : ChannelInner

/-- Priority inheritance of the fast path: a sending process that outranks the receiver boosts it to
its own level. -/
def inheritPriority (current : Option ProcId) (receiver : ProcId) (sched : σ) : σ :=
  match current with
  | some sender =>
    if IpcScheduler.priority sched sender < IpcScheduler.priority sched receiver then
      IpcScheduler.boost sched receiver (IpcScheduler.priority sched sender)
    else sched
  | none => sched

/-- `send`'s first section. A full queue records the sender and yields the same `fast` as a
successful slow-path push. -/
def sendSection (current : Option ProcId) (msg : Message) (sched : σ) (inner : ChannelInner) :
    Except Panic (SendSection σ) :=
  if inner.closed then .ok ⟨.error .closed, false, sched, inner⟩
  else match inner.recvWaiter with
    | some receiver =>
      let sched := inheritPriority current receiver sched
      let (ok, queue) := inner.queue.push msg
      if ok then .ok ⟨.ok (some receiver), true, sched, { inner with recvWaiter := none, queue }⟩
      else .error .handoffRefused
    | none =>
      let (ok, queue) := inner.queue.push msg
      if ok then .ok ⟨.ok none, true, sched, { inner with queue }⟩
      else match current with
        | some me => .ok ⟨.ok none, false, sched, { inner with sendWaiter := some me }⟩
        | none => .error .sendNeedsProcess

/-- `send`'s second section: re-read the shared slot to tell the full queue from the slow path. -/
def sendBlocked (inner : ChannelInner) : Bool := inner.sendWaiter.isSome

/-- `try_send`'s section: no priority inheritance, and a full queue is an error. -/
def trySendSection (msg : Message) (sched : σ) (inner : ChannelInner) :
    Except Panic (SendSection σ) :=
  if inner.closed then .ok ⟨.error .closed, false, sched, inner⟩
  else match inner.recvWaiter with
    | some receiver =>
      let (ok, queue) := inner.queue.push msg
      if ok then .ok ⟨.ok (some receiver), true, sched, { inner with recvWaiter := none, queue }⟩
      else .error .handoffRefused
    | none =>
      let (ok, queue) := inner.queue.push msg
      if ok then .ok ⟨.ok none, true, sched, { inner with queue }⟩
      else .ok ⟨.error .full, false, sched, inner⟩

/-- How a receiving section leaves the lock. -/
inductive ReceiveOutcome where
  | closed
  | message (msg : Message) (sendw : Option ProcId)
  | empty
  | timeout
  | block
  deriving DecidableEq

/-- The shared section of `receive` and `receive_at`; `receive` has no deadline. -/
def receiveLocked (deadline : Option UInt64) (me : ProcId) (sched : σ) (inner : ChannelInner) :
    ReceiveOutcome × σ × ChannelInner :=
  if inner.closed then (.closed, sched, inner)
  else match inner.queue.pop with
    | (some msg, queue) =>
      (.message msg inner.sendWaiter, sched, { inner with queue, sendWaiter := none })
    | (none, queue) =>
      if deadline.any fun deadline => IpcScheduler.now sched ≥ deadline then
        (.timeout, sched, { inner with queue })
      else
        (.block, IpcScheduler.unboost sched me, { inner with queue, recvWaiter := some me })

def receiveSection (me : ProcId) (sched : σ) (inner : ChannelInner) :
    ReceiveOutcome × σ × ChannelInner := receiveLocked none me sched inner

/-- `receive_at`'s section. The timeout returns without clearing a waiter slot that an earlier pass
of its loop recorded. -/
def receiveAtSection (deadline : UInt64) (me : ProcId) (sched : σ) (inner : ChannelInner) :
    ReceiveOutcome × σ × ChannelInner := receiveLocked (some deadline) me sched inner

def tryReceiveSection (inner : ChannelInner) : ReceiveOutcome × ChannelInner :=
  if inner.closed then (.closed, inner)
  else match inner.queue.pop with
    | (some msg, queue) =>
      (.message msg inner.sendWaiter, { inner with queue, sendWaiter := none })
    | (none, queue) => (.empty, { inner with queue })

/-- The `if let Some(id) = waiter` wake that follows a section. -/
def wakeWaiter (sched : σ) : Option ProcId → σ
  | some id => IpcScheduler.wake sched id
  | none => sched

end

/-! ## The calls, up to the point where they block -/

/-- What a call returns; `Ok(())` carries no message. -/
abbrev Answer := Except IpcErr (Option Message)

/-- The calls a context can make on a channel. -/
inductive Call where
  | send (msg : Message)
  | trySend (msg : Message)
  | receive
  | receiveAt (deadline : UInt64)
  | tryReceive
  | close
  deriving DecidableEq

namespace Call

/-- A call that sends and may block. -/
def sends : Call → Bool
  | .send _ => true
  | _ => false

/-- A call that receives and may block. -/
def receives : Call → Bool
  | .receive => true
  | .receiveAt _ => true
  | _ => false

/-- The calls that never block, which kernel and interrupt context may make. -/
def nonBlocking (call : Call) : Bool := !call.sends && !call.receives

end Call

/-- How far a call gets without another section in between. -/
inductive Verdict where
  | returned (answer : Answer)
  | blocked
  | panicked (why : Panic)

/-- A call's progress: the verdict with the states it leaves. -/
structure Progress (σ : Type) where
  verdict : Verdict
  sched : σ
  inner : ChannelInner

variable {σ : Type} [IpcScheduler σ]

/-- One pass of `send`'s loop by process `me`. -/
def send (me : ProcId) (msg : Message) (sched : σ) (inner : ChannelInner) : Progress σ :=
  match sendSection (some me) msg sched inner with
  | .error why => ⟨.panicked why, sched, inner⟩
  | .ok ⟨.error err, _, sched, inner⟩ => ⟨.returned (.error err), sched, inner⟩
  | .ok ⟨.ok (some receiver), _, sched, inner⟩ =>
    ⟨.returned (.ok none), IpcScheduler.wake sched receiver, inner⟩
  | .ok ⟨.ok none, _, sched, inner⟩ =>
    if sendBlocked inner then ⟨.blocked, IpcScheduler.block sched me, inner⟩
    else ⟨.returned (.ok none), sched, inner⟩

def trySend (msg : Message) (sched : σ) (inner : ChannelInner) : Progress σ :=
  match trySendSection msg sched inner with
  | .error why => ⟨.panicked why, sched, inner⟩
  | .ok ⟨.error err, _, sched, inner⟩ => ⟨.returned (.error err), sched, inner⟩
  | .ok ⟨.ok receiver, _, sched, inner⟩ =>
    ⟨.returned (.ok none), wakeWaiter sched receiver, inner⟩

/-- What follows a receiving section; `block` is the block of the variant. -/
def finishReceive (block : σ → σ) : ReceiveOutcome × σ × ChannelInner → Progress σ
  | (.closed, sched, inner) => ⟨.returned (.error .closed), sched, inner⟩
  | (.message msg sendw, sched, inner) =>
    ⟨.returned (.ok (some msg)), wakeWaiter sched sendw, inner⟩
  | (.empty, sched, inner) => ⟨.returned (.error .empty), sched, inner⟩
  | (.timeout, sched, inner) => ⟨.returned (.ok (some timeoutMessage)), sched, inner⟩
  | (.block, sched, inner) => ⟨.blocked, block sched, inner⟩

/-- One pass of `receive`'s loop by process `me`. -/
def receive (me : ProcId) (sched : σ) (inner : ChannelInner) : Progress σ :=
  finishReceive (fun sched => IpcScheduler.block sched me) (receiveSection me sched inner)

/-- One pass of `receive_at`'s loop by process `me`. -/
def receiveAt (deadline : UInt64) (me : ProcId) (sched : σ) (inner : ChannelInner) : Progress σ :=
  finishReceive (fun sched => IpcScheduler.blockAt sched me deadline)
    (receiveAtSection deadline me sched inner)

/-- `try_receive`, which never blocks. -/
def tryReceive (sched : σ) (inner : ChannelInner) : Progress σ :=
  let (outcome, inner) := tryReceiveSection inner
  finishReceive id (outcome, sched, inner)

/-- `close`: both waiters are woken after the lock is dropped. -/
def close (sched : σ) (inner : ChannelInner) : σ × ChannelInner :=
  let ((recv, sendw), inner) := closeSection inner
  (wakeWaiter (wakeWaiter sched recv) sendw, inner)

/-- `reply`: a `send` whose message must carry the tag it replies to. -/
def reply (tag : UInt32) (me : ProcId) (msg : Message) (sched : σ) (inner : ChannelInner) :
    Progress σ :=
  if msg.tag ≠ tag then ⟨.returned (.error .badTag), sched, inner⟩ else send me msg sched inner

/-- One pass of a call by process `me`. -/
def Call.pass (call : Call) (me : ProcId) (sched : σ) (inner : ChannelInner) : Progress σ :=
  match call with
  | .send msg => Ipc.send me msg sched inner
  | .trySend msg => Ipc.trySend msg sched inner
  | .receive => Ipc.receive me sched inner
  | .receiveAt deadline => Ipc.receiveAt deadline me sched inner
  | .tryReceive => Ipc.tryReceive sched inner
  | .close => let (sched, inner) := Ipc.close sched inner; ⟨.returned (.ok none), sched, inner⟩

end R9x.Port.Ipc
