import R9x.Aarch64.Heap
import R9x.Aarch64.Scheduler
import R9x.Aarch64.Trap
import R9x.Aarch64.UserAccess

/-!
# The handlers of the calls

`aarch64/src/ipc.rs` and `process.rs`: the handlers that work on the channel table, on the heap and
the memory of the current process, and on the process table.
-/

namespace R9x.Aarch64

open Abi Port.Ipc Aarch64.Vm
open UInt64 (ofNat)

def nchannels : Nat := 16

/-- What the handlers work on. -/
structure Env (n : Nat) where
  table : Table n
  tpidr : Option (Fin n)
  counter : UInt64
  nused : Nat
  channels : Channels nchannels
  space : Space
  kernel : PageNo
  phys : Phys

namespace Env

variable {n : Nat}

/-! ## Channels -/

/-- `try_create`: the count that a full table undoes is never seen. -/
def tryCreate (env : Env n) : Option Nat × Env n :=
  if env.nused < nchannels then (some env.nused, { env with nused := env.nused + 1 })
  else (none, env)

def sysCreatechan (env : Env n) : UInt64 × Env n :=
  match env.tryCreate with
  | (some handle, env) => (ofNat handle, env)
  | (none, env) => (errNoSlot, env)

def channel (env : Env n) (handle : Nat) : Option (Fin nchannels) :=
  if bound : handle < nchannels then if handle < env.nused then some ⟨handle, bound⟩ else none
  else none

def errCode : IpcErr → UInt64
  | .closed => errClosed
  | .full => errFull
  | .empty => errEmpty
  | .badTag => errBadTag

/-- `read_user` of the payload of `sys_send` and `sys_reply`, and the message made of it; nothing if
the range is refused. -/
def readMessage (buf len opcode tag : UInt64) (env : Env n) : Option (Option Message) :=
  (readUser ⟨env.space.root, env.kernel⟩ env.phys.mem buf.toNat (min len.toNat msgMax)).map
    fun read => read.map fun data =>
      Message.new opcode.toUInt16 tag.toUInt32 (data.map UInt8.ofBitVec)

/-- `ipc::send`, or `ipc::reply` to a request of some tag. -/
def post (replyTo : Option UInt32) (me : ProcId) (msg : Message) (sched : KernSched n)
    (inner : ChannelInner) : Progress (KernSched n) :=
  match replyTo with
  | none => send me msg sched inner
  | some tag => reply tag me msg sched inner

/-- One pass of a sending call of the current process on a channel: the result code if it returns,
and the state after it. -/
def sendPass (replyTo : Option UInt32) (msg : Message) (handle : Fin nchannels) (env : Env n) :
    Option (Option UInt64 × Env n) :=
  match env.tpidr with
  | none => none
  | some me =>
    let progress := post replyTo me.val msg (KernSched.mk env.table env.counter)
      (env.channels handle)
    let after := { env with
      table := progress.sched.table
      channels := Function.update env.channels handle progress.inner }
    match progress.verdict with
    | .returned (.ok _) => some (some 0, after)
    | .returned (.error err) => some (some (errCode err), after)
    | .blocked => some (none, after)
    | .panicked _ => none

/-- The body that `sys_send` and `sys_reply` share. The message is read once; if the call has
blocked, `resumed` is the state in which its last pass runs. -/
def sysPost (replyTo : Option UInt32) (handle buf len opcode tag : UInt64)
    (resumed : Option (Env n))
    (env : Env n) : Option (Option UInt64 × Env n) :=
  match env.channel handle.toNat with
  | none => some (some errBadHandle, env)
  | some ch =>
    match env.readMessage buf len opcode tag with
    | none => none
    | some none => some (some errBadVa, env)
    | some (some msg) => (resumed.getD env).sendPass replyTo msg ch

def sysSend (handle buf len opcode tag : UInt64) (resumed : Option (Env n)) (env : Env n) :
    Option (Option UInt64 × Env n) := sysPost none handle buf len opcode tag resumed env

def sysReply (handle buf len opcode tag : UInt64) (resumed : Option (Env n)) (env : Env n) :
    Option (Option UInt64 × Env n) :=
  sysPost (some tag.toUInt32) handle buf len opcode tag resumed env

/-- One pass of a receiving call of the current process on a channel: what it returned, if it
returned a message or an error, and the state after it. -/
def receivePass (env : Env n) (call : Call) (handle : Fin nchannels) :
    Option (Except IpcErr Message × Env n) :=
  match env.tpidr with
  | none => none
  | some me =>
    let progress := call.pass me.val (KernSched.mk env.table env.counter) (env.channels handle)
    let after := { env with
      table := progress.sched.table
      channels := Function.update env.channels handle progress.inner }
    match progress.verdict with
    | .returned (.ok (some msg)) => some (.ok msg, after)
    | .returned (.ok none) => none
    | .returned (.error err) => some (.error err, after)
    | .blocked => none
    | .panicked _ => none

/-- The bytes of a message that `write_user` is given for a buffer of some capacity. -/
def payload (msg : Message) (cap : UInt64) : List Byte :=
  (msg.buf.toList.take (min msg.len.toNat cap.toNat)).map UInt8.toBitVec

/-- The end of `sys_receive` and `sys_receive_at` for a message: the copy to the caller's buffer. -/
def giveMessage (msg : Message) (buf cap : UInt64) (env : Env n) :
    Option ((UInt64 × UInt64 × UInt64) × Env n) :=
  (writeUser ⟨env.space.root, env.kernel⟩ buf.toNat (payload msg cap) env.phys).map
    fun (written, phys) =>
      match written with
      | none => ((errBadVa, 0, 0), { env with phys })
      | some count =>
        ((msg.opcode.toUInt64, ofNat count, msg.tag.toUInt64), { env with phys })

def sysReceive (handle buf cap : UInt64) (env : Env n) :
    Option ((UInt64 × UInt64 × UInt64) × Env n) :=
  match env.channel handle.toNat with
  | none => some ((errBadHandle, 0, 0), env)
  | some ch =>
    match env.receivePass .receive ch with
    | none => none
    | some (.ok msg, env) => giveMessage msg buf cap env
    | some (.error err, env) => some ((errCode err, 0, 0), env)

/-- `sys_receive_at`: a message with the reserved opcode is taken for the timeout. -/
def sysReceiveAt (handle buf cap deadline : UInt64) (env : Env n) :
    Option ((UInt64 × UInt64 × UInt64) × Env n) :=
  match env.channel handle.toNat with
  | none => some ((errBadHandle, 0, 0), env)
  | some ch =>
    match env.receivePass (.receiveAt deadline) ch with
    | none => none
    | some (.ok msg, env) =>
      if msg.opcode = receiveTimeout then some ((receiveTimeout.toUInt64, 0, 0), env)
      else giveMessage msg buf cap env
    | some (.error err, env) => some ((errCode err, 0, 0), env)

/-! ## The heap -/

/-- `heap_grow`, with the search for the current process. -/
def growHeap (env : Env n) (count : UInt64) : Option (Option Nat × Env n) :=
  match env.tpidr with
  | none => some (none, env)
  | some me =>
    if (env.table me).isNone then some (none, env)
    else (heapGrow env.kernel env.space count.toNat env.phys).map fun outcome =>
      (outcome.answer, { env with space := outcome.space, phys := outcome.phys })

def sysAlloc (count : UInt64) (env : Env n) : Option (UInt64 × Env n) :=
  (env.growHeap count).map fun (answer, env) =>
    match answer with
    | some va => (ofNat va, env)
    | none => (1, env)

/-- `heap_shrink`, with the search for the current process. -/
def shrinkHeap (env : Env n) (va : UInt64) : Env n :=
  match env.tpidr with
  | none => env
  | some me =>
    if (env.table me).isNone then env else { env with space := heapShrink env.space va.toNat }

def sysFree (va : UInt64) (env : Env n) : UInt64 × Env n := (0, env.shrinkHeap va)

/-- `heap_alloc_page`, with the search for the current process. -/
def allocHeapPage (env : Env n) : Option (Option (Nat × PhysAddr) × Env n) :=
  match env.tpidr with
  | none => some (none, env)
  | some me =>
    if (env.table me).isNone then some (none, env)
    else (heapAllocPage env.kernel env.space env.phys).map fun outcome =>
      (outcome.answer, { env with space := outcome.space, phys := outcome.phys })

def sysAllocPage (env : Env n) : Option ((UInt64 × UInt64) × Env n) :=
  env.allocHeapPage.map fun (answer, env) =>
    match answer with
    | some (va, pa) => ((ofNat va, UInt64.ofBitVec pa), env)
    | none => ((1, 0), env)

/-! ## The handlers together -/

/-- The handlers over this state. -/
def handlers : Trap.Handlers (Env n) :=
  { (default : Trap.Handlers (Env n)) with
    sysReceive := sysReceive
    sysCreatechan := fun env => some env.sysCreatechan
    sysAlloc := sysAlloc
    sysFree := fun va env => some (env.sysFree va)
    sysReceiveAt := sysReceiveAt
    sysAllocPage := sysAllocPage
    sysWait := fun child _ env =>
      some ((env.table.sysWait child).1, { env with table := (env.table.sysWait child).2 })
    sysSetprio := fun target prio env =>
      let (result, table) := env.table.sysSetprio env.tpidr target prio
      some (result, { env with table }) }

end Env

end R9x.Aarch64
