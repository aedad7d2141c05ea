import R9x.Aarch64.Trap

/-!
# The system calls of a process

`std/src/sys.rs` places the number and the arguments of a call in registers, traps, and reads the
result back from `x0`, `x3` and `x4`, whatever registers the kernel wrote.
-/

namespace R9x.R9xStd

open Abi Aarch64.Trap

section

variable {σ : Type}

/-- The outputs of the `svc`: `x1` and `x2` are inputs only. -/
def outputs : Ended σ → Option ((UInt64 × UInt64 × UInt64) × σ)
  | .resumed frame state => some ((frame.x0, frame.x3, frame.x4), state)
  | .exits _ => none
  | .stays => none

/-- `sys`, and the `trap` behind it. -/
def sys (handlers : Handlers σ) (number a0 a1 a2 a3 a4 : UInt64) (state : σ) :
    Option ((UInt64 × UInt64 × UInt64) × σ) :=
  outputs (svc handlers ⟨a0, a1, a2, a3, a4, number⟩ state)

/-! ## `process.rs` -/

/-- `WaitError`. -/
inductive WaitError where
  | timeout
  | badId
  deriving DecidableEq

/-- `ProcessId::wait`. -/
def processWait (handlers : Handlers σ) (id deadline : UInt64) (state : σ) :
    Option (Except WaitError UInt64 × σ) :=
  (sys handlers sysWait id deadline 0 0 0 state).map fun ((id, status, _), state) =>
    if id = waitBadId then (.error .badId, state)
    else if id = waitTimeout then (.error .timeout, state)
    else (.ok status, state)

def waitAny (handlers : Handlers σ) (deadline : UInt64) (state : σ) :
    Option (Except WaitError (UInt64 × UInt64) × σ) :=
  (sys handlers sysWait 0 deadline 0 0 0 state).map fun ((id, status, _), state) =>
    if id = waitBadId then (.error .badId, state)
    else if id = waitTimeout then (.error .timeout, state)
    else (.ok (id, status), state)

/-- `SetPrioError`. -/
inductive SetPrioError where
  | badId
  | badPrio
  deriving DecidableEq

/-- `set_priority`; the level of a `Priority` is a byte. -/
def setPriority (handlers : Handlers σ) (target : UInt64) (prio : UInt8) (state : σ) :
    Option (Except SetPrioError Unit × σ) :=
  (sys handlers sysSetprio target prio.toUInt64 0 0 0 state).map fun ((result, _, _), state) =>
    if result = 0 then (.ok (), state)
    else if result = setprioBadPrio then (.error .badPrio, state)
    else (.error .badId, state)

/-! ## `ipc.rs` -/

def createChan (handlers : Handlers σ) (state : σ) : Option (UInt64 × σ) :=
  (sys handlers sycCreatechan 0 0 0 0 0 state).map fun ((handle, _, _), state) => (handle, state)

/-- The result of a receive: the opcode, the number of bytes and the tag. -/
structure Received where
  opcode : UInt16
  bytes : UInt64
  tag : UInt32
  deriving DecidableEq

/-- The casts at the end of `receive` and `receive_at`. -/
def asReceived (registers : UInt64 × UInt64 × UInt64) : Received :=
  ⟨registers.1.toUInt16, registers.2.1, registers.2.2.toUInt32⟩

/-- `receive` into a buffer at an address, of a length. -/
def receive (handlers : Handlers σ) (handle buf len : UInt64) (state : σ) : Option (Received × σ) :=
  (sys handlers sycReceive handle buf len 0 0 state).map fun (registers, state) =>
    (asReceived registers, state)

def receiveAt (handlers : Handlers σ) (handle buf len deadline : UInt64) (state : σ) :
    Option (Received × σ) :=
  (sys handlers sysReceiveAt handle buf len deadline 0 state).map fun (registers, state) =>
    (asReceived registers, state)

/-! ## `mem.rs` -/

def allocPage (handlers : Handlers σ) (state : σ) : Option (Option (UInt64 × UInt64) × σ) :=
  (sys handlers sysAllocPage 0 0 0 0 0 state).map fun ((va, pa, _), state) =>
    if va < pageSize then (none, state) else (some (va, pa), state)

end

/-! ## What comes back in the registers -/

variable {σ : Type}

lemma outputs_giveX0 (frame : Frame) (result : Option (UInt64 × σ)) :
    outputs (giveX0 frame result) =
      result.map fun (value, state) => ((value, frame.x3, frame.x4), state) := by
  cases result <;> rfl

lemma outputs_giveX0X1 (frame : Frame) (result : Option ((UInt64 × UInt64) × σ)) :
    outputs (giveX0X1 frame result) =
      result.map fun ((value, _), state) => ((value, frame.x3, frame.x4), state) := by
  cases result <;> rfl

lemma outputs_giveX0X3X4 (frame : Frame) (result : Option ((UInt64 × UInt64 × UInt64) × σ)) :
    outputs (giveX0X3X4 frame result) = result := by
  cases result <;> rfl

variable (handlers : Handlers σ) (state : σ)

lemma sys_wait (child deadline : UInt64) : sys handlers sysWait child deadline 0 0 0 state =
      (handlers.sysWait child deadline state).map fun ((id, _), state) => ((id, 0, 0), state) :=
  outputs_giveX0X1 ⟨child, deadline, 0, 0, 0, sysWait⟩ _

lemma sys_allocPage : sys handlers sysAllocPage 0 0 0 0 0 state =
      (handlers.sysAllocPage state).map fun ((va, _), state) => ((va, 0, 0), state) :=
  outputs_giveX0X1 ⟨0, 0, 0, 0, 0, sysAllocPage⟩ _

lemma sys_setprio (target prio : UInt64) : sys handlers sysSetprio target prio 0 0 0 state =
      (handlers.sysSetprio target prio state).map fun (result, state) =>
        ((result, 0, 0), state) := outputs_giveX0 ⟨target, prio, 0, 0, 0, sysSetprio⟩ _

lemma sys_createchan : sys handlers sycCreatechan 0 0 0 0 0 state =
      (handlers.sysCreatechan state).map fun (result, state) => ((result, 0, 0), state) :=
  outputs_giveX0 ⟨0, 0, 0, 0, 0, sycCreatechan⟩ _

lemma sys_receive (handle buf len : UInt64) :
    sys handlers sycReceive handle buf len 0 0 state = handlers.sysReceive handle buf len state :=
  outputs_giveX0X3X4 ⟨handle, buf, len, 0, 0, sycReceive⟩ _

lemma sys_receiveAt (handle buf len deadline : UInt64) :
    sys handlers sysReceiveAt handle buf len deadline 0 state =
      handlers.sysReceiveAt handle buf len deadline state :=
  outputs_giveX0X3X4 ⟨handle, buf, len, deadline, 0, sysReceiveAt⟩ _

end R9x.R9xStd
