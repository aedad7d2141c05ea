import R9x.Lib.Run

/-!
# Locks and the interrupt mask of one core

What the kernel does to its locks and to the interrupt mask of the core it runs on.
-/

namespace R9x.Aarch64.IrqLocks

/-- The locks that both contexts take. -/
inductive LockId where
  | table
  | channel (handle : Nat)
  | timers
  | pages
  | console
  | registry
  | mailbox
  deriving DecidableEq

/-- What code does to the locks and the mask, and to what the interrupt handler reads. -/
inductive Act where
  | mask
  | restore
  | acquire (lock : LockId)
  | release (lock : LockId)
  | startTick
  | install (slot : Nat)
  | claim (intid handle : Nat)
  | swtch
  deriving DecidableEq

/-- Code that runs with a lock held. -/
def locked (lock : LockId) (body : List Act) : List Act :=
    .acquire lock :: (body ++ [.release lock])

/-- Code that runs under an `IrqGuard`. -/
def guarded (body : List Act) : List Act := .mask :: (body ++ [.restore])

/-- Code that may be skipped. -/
def optional (taken : Bool) (body : List Act) : List Act := if taken then body else []

/-! ## The process table -/

/-- Reading or writing the process table. -/
def tableSection : List Act := locked .table []

def status : List Act := tableSection

def anyExited : List Act := tableSection

def setPriority : List Act := tableSection

def boost : List Act := tableSection

def unboost : List Act := tableSection

def effectivePriority : List Act := tableSection

def currentId : List Act := tableSection

def wake : List Act := tableSection

def checkDeadlines : List Act := tableSection

/-- Some calls of the page allocator. -/
def pageAllocs (count : Nat) : List Act := (List.replicate count (locked .pages [])).flatten

/-- `try_install`, which may find a free slot. -/
def tryInstall (slot : Option Nat) : List Act := locked .table (slot.toList.map .install)

/-- `spawn`, which builds an address space and panics if there is no slot. -/
def spawn (pages slot : Nat) : List Act := pageAllocs pages ++ tryInstall (some slot)

/-- `switch_out` in a process, which may find another one. -/
def switchOut (switches : Bool) : List Act := tableSection ++ optional switches [.swtch]

/-- `block_current`: it switches to another process or to the kernel. -/
def blockCurrent : List Act := switchOut true

def blockAt : List Act := tableSection ++ blockCurrent

/-! ## Timers -/

def withTimers : List Act := guarded (locked .timers [])

/-- `Timer::start`, which registers the timer and arms the hardware. -/
def timerStart : List Act := guarded (withTimers ++ withTimers)

/-- `timer::interrupt_handler`, with a number of timers that callbacks start. -/
def interruptHandler (starts : Nat) : List Act :=
  withTimers ++ (List.replicate starts timerStart).flatten ++ withTimers

/-- `run_all`. The tick is started once. -/
def runAll (tick : Bool) : List Act :=
  guarded (optional (!tick) (.startTick :: timerStart) ++ (tableSection ++ [.swtch]))

/-! ## Channels -/

/-- `KernSched::block`, with its debug assertion. -/
def schedBlock : List Act := currentId ++ blockCurrent

/-- `KernSched::block_at`, with its debug assertion. -/
def schedBlockAt : List Act := currentId ++ blockAt

/-- `try_send`, which may wake a receiver. -/
def trySend (handle : Nat) (wakes : Bool) : List Act :=
    locked (.channel handle) [] ++ optional wakes wake

/-- `try_receive`, which may wake a sender. -/
def tryReceive (handle : Nat) (wakes : Bool) : List Act :=
    locked (.channel handle) [] ++ optional wakes wake

/-- One round of the loop of `send`. -/
inductive SendRound where
  | closed
  | handed (outranks : Bool)
  | queued
  | blocked (enqueued : Bool)

def SendRound.acts (handle : Nat) : SendRound → List Act
  | .closed => locked (.channel handle) []
  | .handed outranks =>
    locked (.channel handle) (currentId ++ effectivePriority ++ effectivePriority ++
      optional outranks (effectivePriority ++ boost)) ++ wake
  | .queued => locked (.channel handle) [] ++ locked (.channel handle) []
  | .blocked enqueued =>
    locked (.channel handle) (optional (!enqueued) currentId) ++ locked (.channel handle) [] ++
      (currentId ++ schedBlock)

/-- One round of the loop of `receive` or `receive_at`. -/
inductive ReceiveRound where
  | refused
  | message (wakes : Bool)
  | blocked (bounded : Bool)

/-- The code of a round of `receive` or `receive_at`. -/
def ReceiveRound.acts (handle : Nat) : ReceiveRound → List Act
  | .refused => currentId ++ locked (.channel handle) []
  | .message wakes => currentId ++ (locked (.channel handle) [] ++ optional wakes wake)
  | .blocked bounded =>
    currentId ++ (locked (.channel handle) unboost ++ if bounded then schedBlockAt else schedBlock)

/-- What `close_all_for` does to one channel: nothing more than look, or close it and wake its
waiters. -/
structure Closing where
  handle : Nat
  closes : Bool
  receiver : Bool
  sender : Bool

def closeAllFor (channels : List Closing) : List Act :=
  channels.flatMap fun closing => locked (.channel closing.handle) [] ++
    optional closing.closes (locked (.channel closing.handle) [] ++
      (optional closing.receiver wake ++ optional closing.sender wake))

/-! ## Traps from processes -/

/-- A trap from a process that is no interrupt, with the path its handler takes. -/
inductive Syscall where
  | yield (switches : Bool)
  | send (handle : Nat) (rounds : List SendRound)
  | receive (handle : Nat) (rounds : List ReceiveRound)
  | irqClaim (intid handle : Nat)
  | mapMmio (pages : Nat)
  | alloc (pages : Nat)
  | tableOnly
  | spawn (built : Option (Nat × Option Nat))
  | kill (killed : Bool) (channels : List Closing)
  | setPrio (self : Bool)
  | exit (channels : List Closing)
  | fault (channels : List Closing)
  | noLock

/-- `exit_current` and `fault`: the process is marked, its channels are closed, and it is left for
good. -/
def endCurrent (channels : List Closing) : List Act :=
  tableSection ++ (guarded [] ++ (closeAllFor channels ++ switchOut true))

/-- The code of a trap handler. -/
def Syscall.acts : Syscall → List Act
  | .yield switches => switchOut switches
  | .send handle rounds => rounds.flatMap (SendRound.acts handle)
  | .receive handle rounds => rounds.flatMap (ReceiveRound.acts handle)
  | .irqClaim intid handle => currentId ++ [.claim intid handle]
  | .mapMmio pages => pageAllocs pages
  | .alloc pages => locked .table (pageAllocs pages)
  | .tableOnly => tableSection
  | .spawn built =>
    locked .registry [] ++ match built with
      | none => []
      | some (pages, slot) => pageAllocs pages ++ tryInstall slot
  | .kill killed channels => tableSection ++ optional killed (closeAllFor channels)
  | .setPrio self => optional self currentId ++ setPriority
  | .exit channels => endCurrent channels
  | .fault channels => endCurrent channels
  | .noLock => []

/-! ## Calls from the kernel -/

/-- A lock that is never taken by an interrupt handler. -/
inductive PrivateLock where
  | pages
  | console
  | registry
  | mailbox

def PrivateLock.lock : PrivateLock → LockId
  | .pages => .pages
  | .console => .console
  | .registry => .registry
  | .mailbox => .mailbox

/-- A call from the kernel's own context. -/
inductive KernelCall where
  | status
  | anyExited
  | setPriority
  | boost
  | unboost
  | effectivePriority
  | spawn (pages slot : Nat)
  | trySend (handle : Nat) (wakes : Bool)
  | tryReceive (handle : Nat) (wakes : Bool)
  | timerStart
  | runAll
  | usePrivate (lock : PrivateLock)

/-- The code of a call, which for `run_all` depends on whether the tick was started. -/
def KernelCall.acts (tick : Bool) : KernelCall → List Act
  | .status => IrqLocks.status
  | .anyExited => IrqLocks.anyExited
  | .setPriority => IrqLocks.setPriority
  | .boost => IrqLocks.boost
  | .unboost => IrqLocks.unboost
  | .effectivePriority => IrqLocks.effectivePriority
  | .spawn pages slot => IrqLocks.spawn pages slot
  | .trySend handle wakes => IrqLocks.trySend handle wakes
  | .tryReceive handle wakes => IrqLocks.tryReceive handle wakes
  | .timerStart => IrqLocks.timerStart
  | .runAll => IrqLocks.runAll tick
  | .usePrivate lock => locked lock.lock []

/-! ## The core -/

/-- Code on the CPU. -/
structure Frame where
  entry : Option Bool
  acts : List Act
  saved : List Bool
  held : List LockId
  deriving DecidableEq

/-- One core: its mask, its contexts and what each has left to do. -/
structure Core where
  masked : Bool
  tick : Bool
  routes : List (Nat × Nat)
  current : Option Nat
  stack : List Frame
  kernelSaved : List Bool
  parked : Nat → Option (List Frame)
  starter : List Frame

def Core.boot : Core := ⟨true, false, [], none, [], [], fun _ => none, []⟩

/-- What interrupts. -/
inductive IrqSource where
  | spurious
  | timer (fired : Bool) (starts : Nat) (switches : Bool)
  | device (intid : Nat) (wakes : Bool)

def route (routes : List (Nat × Nat)) (intid : Nat) : Option Nat := routes.lookup intid

/-- `irq_resched`. The tick's flag is set by the handler whose tail this is. -/
def irqResched (fired current switches : Bool) : List Act :=
  optional fired (checkDeadlines ++ optional current (switchOut switches))

/-- The interrupt branch of `trap`. -/
def irqActs (core : Core) : IrqSource → List Act
  | .spurious => []
  | .timer fired starts switches =>
    interruptHandler starts ++ irqResched fired core.current.isSome switches
  | .device intid wakes =>
    match route core.routes intid with
    | some handle => trySend handle wakes
    | none => guarded []

/-- The tick fires only when it was started. -/
def IrqSource.possible (tick : Bool) : IrqSource → Bool
  | .timer fired _ _ => !fired || tick
  | _ => true

/-- Where a `swtch` goes. -/
inductive Target where
  | process (slot : Nat)
  | starter

/-- What happens on the core. -/
inductive Label where
  | unmaskIrqs
  | guard
  | unguard
  | call (call : KernelCall)
  | syscall (call : Syscall)
  | irq (source : IrqSource)
  | run
  | swtch (target : Target)

/-- The kernel's own context runs, outside all functions modelled here. -/
def Core.inKernel (core : Core) : Bool := core.stack.isEmpty && core.current.isNone

/-- One step of the innermost frame. A lock that the core already holds is waited for in vain. A
spawn takes a free slot, so none installs into the slot of the process that runs. -/
def Core.advance (core : Core) (frame : Frame) (rest : List Frame) : Option Core :=
  match frame.acts with
  | [] =>
    match frame.entry with
    | none => some { core with stack := rest }
    | some masked => some { core with stack := rest, masked := masked }
  | .mask :: acts =>
    some { core with
      masked := true, stack :=
        { frame with acts := acts, saved := core.masked :: frame.saved } :: rest }
  | .restore :: acts =>
    match frame.saved with
    | [] => none
    | masked :: saved =>
      some { core with masked := masked, stack := { frame with acts := acts, saved := saved } ::
        rest }
  | .acquire lock :: acts =>
    if core.stack.any fun other => lock ∈ other.held then none
    else some { core with stack := { frame with acts := acts, held := lock :: frame.held } :: rest }
  | .release lock :: acts =>
    some { core with stack := { frame with acts := acts, held := frame.held.erase lock } :: rest }
  | .startTick :: acts =>
    some { core with tick := true, stack := { frame with acts := acts } :: rest }
  | .install slot :: acts =>
    if core.current = some slot then none
    else some { core with
      parked := fun other => if other = slot then some [] else core.parked other,
      stack := { frame with acts := acts } :: rest }
  | .claim intid handle :: acts =>
    some { core with
      routes := core.routes ++ [(intid, handle)], stack := { frame with acts := acts } :: rest }
  | .swtch :: _ => none

/-- Leave the code on the CPU, to be resumed with the frames given. -/
def Core.park (core : Core) (frames : List Frame) : Core :=
  match core.current with
  | none => { core with starter := frames }
  | some slot =>
    { core with parked := fun other => if other = slot then some frames else core.parked other }

/-- Enter another context. A suspended context resumes masked; one that has not run returns to its
process at once, which runs unmasked. -/
def Core.resume (core : Core) : Target → Option Core
  | .starter =>
    if core.current.isSome then
      some { core with current := none, stack := core.starter, masked := true }
    else none
  | .process slot =>
    (core.parked slot).map fun frames =>
      { core with current := some slot, stack := frames, masked := !frames.isEmpty }

/-- One step of the core. -/
def step (core : Core) : Label → Option Core
  | .unmaskIrqs => if core.inKernel then some { core with masked := false } else none
  | .guard =>
    if core.inKernel then
      some { core with masked := true, kernelSaved := core.masked :: core.kernelSaved }
    else none
  | .unguard =>
    match core.inKernel, core.kernelSaved with
    | true, masked :: saved => some { core with masked := masked, kernelSaved := saved }
    | _, _ => none
  | .call call =>
    if core.inKernel then some { core with stack := [⟨none, call.acts core.tick, [], []⟩] }
      else none
  | .syscall call =>
    if core.stack.isEmpty ∧ core.current.isSome then
      some { core with masked := true, stack := [⟨some core.masked, call.acts, [core.masked], []⟩] }
    else none
  | .irq source =>
    if core.masked = false ∧ source.possible core.tick then
      some { core with masked := true, stack := ⟨some false, irqActs core source, [false], []⟩ ::
        core.stack }
    else none
  | .run =>
    match core.stack with
    | [] => none
    | frame :: rest => core.advance frame rest
  | .swtch target =>
    match core.stack with
    | [] => none
    | frame :: rest =>
      match frame.acts with
      | .swtch :: acts => (core.park ({ frame with acts := acts } :: rest)).resume target
      | _ => none

end R9x.Aarch64.IrqLocks
