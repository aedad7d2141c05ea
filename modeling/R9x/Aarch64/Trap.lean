import R9x.Abi

/-!
# The dispatch of system calls

The arm of `trap` in `aarch64/src/trap.rs` for an SVC from EL0: the number is in `x8` and the
arguments in `x0` to `x4` of the trap frame, each handler's result is written to the registers of
its call, and the others come back as they were.
-/

namespace R9x.Aarch64.Trap

open Abi

/-- The registers of the trap frame that the dispatch reads or writes. -/
structure Frame where
  x0 : UInt64
  x1 : UInt64
  x2 : UInt64
  x3 : UInt64
  x4 : UInt64
  x8 : UInt64
  deriving DecidableEq

/-- The handlers of the calls, over a kernel state. -/
structure Handlers (σ : Type) where
  yieldCurrent : σ → Option σ
  sysSend : (handle buf len opcode tag : UInt64) → σ → Option (UInt64 × σ)
  sysReceive : (handle buf cap : UInt64) → σ → Option ((UInt64 × UInt64 × UInt64) × σ)
  sysReply : (handle buf len opcode tag : UInt64) → σ → Option (UInt64 × σ)
  sysIrqClaim : (intid handle : UInt64) → σ → Option (UInt64 × σ)
  sysMapMmio : (pa va size : UInt64) → σ → Option (UInt64 × σ)
  sysCreatechan : σ → Option (UInt64 × σ)
  sysAlloc : (count : UInt64) → σ → Option (UInt64 × σ)
  sysFree : (va : UInt64) → σ → Option (UInt64 × σ)
  sysSpawn : (index stateVa prio : UInt64) → σ → Option (UInt64 × σ)
  sysClock : (kind : UInt64) → σ → Option (UInt64 × σ)
  sysReceiveAt : (handle buf cap deadline : UInt64) → σ → Option ((UInt64 × UInt64 × UInt64) × σ)
  sysAllocPage : σ → Option ((UInt64 × UInt64) × σ)
  sysWait : (child deadline : UInt64) → σ → Option ((UInt64 × UInt64) × σ)
  sysKill : (pid : UInt64) → σ → Option (UInt64 × σ)
  sysSetprio : (target prio : UInt64) → σ → Option (UInt64 × σ)
  sysPrint : (va len : UInt64) → σ → Option (UInt64 × σ)

/-- Handlers none of which comes back, to be overridden one by one. -/
instance (σ : Type) : Inhabited (Handlers σ) where
  default := {
    yieldCurrent := fun _ => none
    sysSend := fun _ _ _ _ _ _ => none
    sysReceive := fun _ _ _ _ => none
    sysReply := fun _ _ _ _ _ _ => none
    sysIrqClaim := fun _ _ _ => none
    sysMapMmio := fun _ _ _ _ => none
    sysCreatechan := fun _ => none
    sysAlloc := fun _ _ => none
    sysFree := fun _ _ => none
    sysSpawn := fun _ _ _ _ => none
    sysClock := fun _ _ => none
    sysReceiveAt := fun _ _ _ _ _ => none
    sysAllocPage := fun _ => none
    sysWait := fun _ _ _ => none
    sysKill := fun _ _ => none
    sysSetprio := fun _ _ _ => none
    sysPrint := fun _ _ _ => none }

/-- How a system call ends. -/
inductive Ended (σ : Type) where
  | resumed (frame : Frame) (state : σ)
  | exits (status : UInt64)
  | stays

variable {σ : Type}

/-- A result of one value, in `x0`. -/
def giveX0 (frame : Frame) : Option (UInt64 × σ) → Ended σ
  | some (result, state) => .resumed { frame with x0 := result } state
  | none => .stays

/-- A result of two values, in `x0` and `x1`. -/
def giveX0X1 (frame : Frame) : Option ((UInt64 × UInt64) × σ) → Ended σ
  | some ((first, second), state) => .resumed { frame with x0 := first, x1 := second } state
  | none => .stays

/-- A received message, in `x0`, `x3` and `x4`. -/
def giveX0X3X4 (frame : Frame) : Option ((UInt64 × UInt64 × UInt64) × σ) → Ended σ
  | some ((op, bytes, tag), state) => .resumed { frame with x0 := op, x3 := bytes, x4 := tag } state
  | none => .stays

/-- The SVC arm of `trap`. -/
def svc (handlers : Handlers σ) (frame : Frame) (state : σ) : Ended σ :=
  let syscall := frame.x8
  if syscall = sysYield then
    match handlers.yieldCurrent state with
    | some state => .resumed frame state
    | none => .stays
  else if syscall = sycSend then
    giveX0 frame (handlers.sysSend frame.x0 frame.x1 frame.x2 frame.x3 frame.x4 state)
  else if syscall = sycReceive then
    giveX0X3X4 frame (handlers.sysReceive frame.x0 frame.x1 frame.x2 state)
  else if syscall = sycReply then
    giveX0 frame (handlers.sysReply frame.x0 frame.x1 frame.x2 frame.x3 frame.x4 state)
  else if syscall = sysIrqClaim then giveX0 frame (handlers.sysIrqClaim frame.x0 frame.x1 state)
  else if syscall = sysMapMmio then
    giveX0 frame (handlers.sysMapMmio frame.x0 frame.x1 frame.x2 state)
  else if syscall = sycCreatechan then giveX0 frame (handlers.sysCreatechan state)
  else if syscall = sysAlloc then giveX0 frame (handlers.sysAlloc frame.x0 state)
  else if syscall = sysFree then giveX0 frame (handlers.sysFree frame.x0 state)
  else if syscall = sysSpawn then
    giveX0 frame (handlers.sysSpawn frame.x0 frame.x1 frame.x2 state)
  else if syscall = sysClock then giveX0 frame (handlers.sysClock frame.x0 state)
  else if syscall = sysReceiveAt then
    giveX0X3X4 frame (handlers.sysReceiveAt frame.x0 frame.x1 frame.x2 frame.x3 state)
  else if syscall = sysAllocPage then giveX0X1 frame (handlers.sysAllocPage state)
  else if syscall = sysWait then giveX0X1 frame (handlers.sysWait frame.x0 frame.x1 state)
  else if syscall = sysKill then giveX0 frame (handlers.sysKill frame.x0 state)
  else if syscall = sysSetprio then giveX0 frame (handlers.sysSetprio frame.x0 frame.x1 state)
  else if syscall = sysPrint then giveX0 frame (handlers.sysPrint frame.x0 frame.x1 state)
  else if syscall = sysExit then .exits frame.x0
  else .exits syscall

end R9x.Aarch64.Trap
