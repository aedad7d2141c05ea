import Mathlib.Logic.Function.Basic
import R9x.Aarch64.Ipc
import R9x.Lib.Run
import R9x.Verif.Sections

/-!
# Interleavings of the critical sections of one channel

Any number of contexts make calls on one channel.
-/

namespace R9x.Verif.Interleave

open Port.Ipc
open Function (update)

/-- Where a context is in its call. -/
inductive Pc where
  | idle
  | enter
  | recheck (full : Bool)
  | leaving (wakes : List ProcId) (answer : Answer)
  | blocking
  | asleep
  | panicked (why : Panic)
  deriving DecidableEq

/-- A context and its call. -/
structure Thread where
  call : Call
  pc : Pc
  pushes : Nat

/-- A finished call. -/
structure Return where
  id : ProcId
  call : Call
  answer : Answer
  pushes : Nat
  deriving DecidableEq

/-- One channel, its scheduler and its contexts. -/
structure System (σ : Type) where
  inner : ChannelInner
  sched : σ
  threads : ProcId → Thread
  pushed : List Message
  popped : List Message
  returned : List Return

/-- What can happen next. -/
inductive Event (σ : Type) where
  | start (id : ProcId) (call : Call)
  | advance (id : ProcId)
  | outside (sched : σ)

variable {σ : Type} [IpcScheduler σ]

/-- What the first section of a pass does and where it leaves the context. -/
structure Effect (σ : Type) where
  inner : ChannelInner
  sched : σ
  pushed : List Message
  popped : List Message
  pc : Pc

/-- The effect of a sending section; `quiet` is where a call with nobody to wake goes. -/
def sendEffect (msg : Message) (quiet : Bool → Pc) (sched : σ) (inner : ChannelInner) :
    Except Panic (SendSection σ) → Effect σ
  | .error why => ⟨inner, sched, [], [], .panicked why⟩
  | .ok result =>
    ⟨result.inner, result.sched, if result.pushed then [msg] else [], [],
      match result.fast with
      | .error err => .leaving [] (.error err)
      | .ok (some receiver) => .leaving [receiver] (.ok none)
      | .ok none => quiet result.pushed⟩

/-- The effect of a receiving section. -/
def receiveEffect : ReceiveOutcome × σ × ChannelInner → Effect σ
  | (.closed, sched, inner) => ⟨inner, sched, [], [], .leaving [] (.error .closed)⟩
  | (.message msg sendw, sched, inner) =>
    ⟨inner, sched, [], [msg], .leaving sendw.toList (.ok (some msg))⟩
  | (.empty, sched, inner) => ⟨inner, sched, [], [], .leaving [] (.error .empty)⟩
  | (.timeout, sched, inner) =>
    ⟨inner, sched, [], [], .leaving [] (.ok (some timeoutMessage))⟩
  | (.block, sched, inner) => ⟨inner, sched, [], [], .blocking⟩

/-- The effect of the first section of a pass of a call. -/
def sectionEffect (call : Call) (id : ProcId) (sched : σ) (inner : ChannelInner) : Effect σ :=
  match call with
  | .send msg =>
    sendEffect msg (fun pushed => .recheck !pushed) sched inner
      (sendSection (some id) msg sched inner)
  | .trySend msg =>
    sendEffect msg (fun _ => .leaving [] (.ok none)) sched inner (trySendSection msg sched inner)
  | .receive => receiveEffect (receiveSection id sched inner)
  | .receiveAt deadline => receiveEffect (receiveAtSection deadline id sched inner)
  | .tryReceive =>
    let (outcome, inner) := tryReceiveSection inner
    receiveEffect (outcome, sched, inner)
  | .close =>
    let ((recv, sendw), inner) := closeSection inner
    ⟨inner, sched, [], [], .leaving (recv.toList ++ sendw.toList) (.ok none)⟩

/-- Move one context to a program point. -/
def System.goto (system : System σ) (id : ProcId) (pc : Pc) : System σ :=
  { system with threads := update system.threads id { system.threads id with pc } }

/-- The block of a call: `block_at` for a bounded receive. -/
def blockFor (call : Call) (id : ProcId) (sched : σ) : σ :=
  match call with
  | .receiveAt deadline => IpcScheduler.blockAt sched id deadline
  | _ => IpcScheduler.block sched id

/-- A context runs the first section of a pass. -/
def System.enter (system : System σ) (id : ProcId) : System σ :=
  let thread := system.threads id
  let effect := sectionEffect thread.call id system.sched system.inner
  { system with
    inner := effect.inner
    sched := effect.sched
    pushed := system.pushed ++ effect.pushed
    popped := system.popped ++ effect.popped
    threads := update system.threads id
      { thread with pc := effect.pc, pushes := thread.pushes + effect.pushed.length } }

/-- A context returns from its call. -/
def System.finish (system : System σ) (id : ProcId) (answer : Answer) : System σ :=
  let thread := system.threads id
  { system.goto id .idle with
    returned := system.returned ++ [⟨id, thread.call, answer, thread.pushes⟩] }

/-- One step of a context. -/
def System.advance (system : System σ) (id : ProcId) : Option (System σ) :=
  match (system.threads id).pc with
  | .idle => none
  | .panicked _ => none
  | .enter => some (system.enter id)
  | .recheck _ =>
    some (system.goto id
      (if sendBlocked system.inner then .blocking else .leaving [] (.ok none)))
  | .leaving (waiter :: wakes) answer =>
    some ({ system with sched := IpcScheduler.wake system.sched waiter }.goto id
      (.leaving wakes answer))
  | .leaving [] answer => some (system.finish id answer)
  | .blocking =>
    some ({ system with sched := blockFor (system.threads id).call id system.sched }.goto id
      .asleep)
  | .asleep => if IpcScheduler.ready system.sched id then some (system.goto id .enter) else none

/-- One event. -/
def step (system : System σ) : Event σ → Option (System σ)
  | .start id call =>
    if (system.threads id).pc = .idle then
      some { system with threads := update system.threads id ⟨call, .enter, 0⟩ }
    else none
  | .advance id => system.advance id
  | .outside sched => some { system with sched }

/-- The cases of an event, with the exact state each leaves. -/
inductive StepCase (system : System σ) : Event σ → System σ → Prop
  | start (id : ProcId) (call : Call) (point : (system.threads id).pc = .idle) :
    StepCase system (.start id call)
      { system with threads := update system.threads id ⟨call, .enter, 0⟩ }
  | outside (sched : σ) : StepCase system (.outside sched) { system with sched }
  | enter (id : ProcId) (point : (system.threads id).pc = .enter) :
    StepCase system (.advance id) (system.enter id)
  | recheck (id : ProcId) (full : Bool) (point : (system.threads id).pc = .recheck full) :
    StepCase system (.advance id) (system.goto id
      (if sendBlocked system.inner then .blocking else .leaving [] (.ok none)))
  | wake (id waiter : ProcId) (wakes : List ProcId) (answer : Answer)
    (point : (system.threads id).pc = .leaving (waiter :: wakes) answer) :
    StepCase system (.advance id)
      ({ system with sched := IpcScheduler.wake system.sched waiter }.goto id
        (.leaving wakes answer))
  | finish (id : ProcId) (answer : Answer) (point : (system.threads id).pc = .leaving [] answer) :
    StepCase system (.advance id) (system.finish id answer)
  | block (id : ProcId) (point : (system.threads id).pc = .blocking) : StepCase system (.advance id)
      ({ system with sched := blockFor (system.threads id).call id system.sched }.goto id .asleep)
  | awake (id : ProcId) (point : (system.threads id).pc = .asleep)
    (ready : IpcScheduler.ready system.sched id = true) :
    StepCase system (.advance id) (system.goto id .enter)

lemma step_case {system next : System σ} {event : Event σ}
    (taken : step system event = some next) : StepCase system event next := by
  cases event with
  | start id call =>
    simp only [step, Option.ite_none_right_eq_some, Option.some.injEq] at taken
    obtain ⟨point, rfl⟩ := taken
    exact .start id call point
  | outside sched =>
    cases taken
    exact .outside sched
  | advance id =>
    simp only [step, System.advance] at taken
    split at taken
    case h_1 => contradiction
    case h_2 => contradiction
    case h_3 point =>
      cases taken
      exact .enter id point
    case h_4 full point =>
      cases taken
      exact .recheck id full point
    case h_5 waiter wakes answer point =>
      cases taken
      exact .wake id waiter wakes answer point
    case h_6 answer point =>
      cases taken
      exact .finish id answer point
    case h_7 point =>
      cases taken
      exact .block id point
    case h_8 point =>
      simp only [Option.ite_none_right_eq_some, Option.some.injEq] at taken
      obtain ⟨ready, rfl⟩ := taken
      exact .awake id point ready

/-- All contexts outside any call, on a channel with a given queue and no waiter. -/
def initial (queue : BoundedQueue) (sched : σ) : System σ where
  inner :=
  ⟨queue, none, none, false⟩
  sched := sched
  threads := fun _ => ⟨.close, .idle, 0⟩
  pushed := queue.contents
  popped := []
  returned := []

end R9x.Verif.Interleave
