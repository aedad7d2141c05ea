import R9x.Cmd.Servers
import R9x.R9xStd.Print

/-!
# Writing to the console server

`std/src/console.rs`: the one-shot resolve of `/dev/console`, the writes in chunks of one message,
and `println`.
-/

namespace R9x.R9xStd.ConsoleClient

open Cmd (u32FromLe u32ToLe)
open Print (copyFromSlice dots newline writeFmt)

/-- `OP_WRITE` of the console server. -/
def opWrite : UInt16 := 0

/-- `OP_RESOLVE` of the nameserver. -/
def opResolve : UInt16 := 1

/-- The result code that both servers reply with on success. -/
def rOk : UInt16 := 0

/-- `RECEIVE_CLOSED`, the opcode of a receive on a closed channel. -/
def receiveClosed : UInt16 := 2

/-- `CONSOLE_NAME`, `/dev/console`. -/
def consoleName : List UInt8 := [47, 100, 101, 118, 47, 99, 111, 110, 115, 111, 108, 101]

/-- A console write failed. -/
inductive ConsoleError where
  | ipc
  | closed
  deriving DecidableEq

/-- The resolved console server, and this process's reply channel. -/
structure Console where
  inH : UInt64
  replyH : UInt64
  deriving DecidableEq

/-- The message calls as a client sees them, over a state of everything else: a send answers with a
result code, and a receive with an opcode and the bytes of the payload. -/
structure Peers (ω : Type) where
  nsIn : UInt64
  createChan : ω → UInt64 × ω
  send : (handle : UInt64) → (opcode : UInt16) → (payload : List UInt8) → ω → UInt64 × ω
  receive : (handle : UInt64) → ω → (UInt16 × List UInt8) × ω

/-- A message that the kernel has taken. -/
structure Sent where
  handle : UInt64
  opcode : UInt16
  payload : List UInt8

/-- A client: the cached resolve, the messages it has sent, and everything else. -/
structure Client (ω : Type) where
  cache : Option Console
  sent : List Sent
  world : ω

variable {ω : Type} (peers : Peers ω)

/-- A send and the receive of its answer, as `resolve` and `write` do it. -/
def request (handle : UInt64) (opcode : UInt16) (payload : List UInt8) (replyH : UInt64)
    (client : Client ω) : Except ConsoleError (UInt16 × List UInt8) × Client ω :=
  let taken := peers.send handle opcode payload client.world
  if taken.1 ≠ 0 then (.error .ipc, { client with world := taken.2 })
  else
    let answer := peers.receive replyH taken.2
    let client := { client with
      sent := client.sent ++ [⟨handle, opcode, payload⟩]
      world := answer.2 }
    if answer.1.1 = receiveClosed then (.error .closed, client) else (.ok answer.1, client)

/-- `resolve`: once, and cached. -/
def resolve (client : Client ω) : Except ConsoleError Console × Client ω :=
  match client.cache with
  | some console => (.ok console, client)
  | none =>
    let (replyH, world) := peers.createChan client.world
    match request peers peers.nsIn opResolve (consoleName ++ u32ToLe replyH.toUInt32) replyH
        { client with world } with
    | (.error err, client) => (.error err, client)
    | (.ok (op, data), client) =>
      if op ≠ rOk ∨ data.length ≠ 8 then (.error .ipc, client)
      else
        let console := ⟨(u32FromLe (data.take 4)).toUInt64, replyH⟩
        (.ok console, { client with cache := some console })

/-- `CHUNK`: a message less the reply-channel field. -/
def chunk : Nat := 252

/-- The loop of `write`. -/
def writeChunks (console : Console) : (rest : List UInt8) → (client : Client ω) →
    Except ConsoleError Unit × Client ω
  | [], client => (.ok (), client)
  | byte :: more, client =>
    let rest := byte :: more
    let n := min rest.length chunk
    match request peers console.inH opWrite (u32ToLe console.replyH.toUInt32 ++ rest.take n)
        console.replyH client with
    | (.error err, client) => (.error err, client)
    | (.ok (op, _), client) =>
      if op ≠ rOk then (.error .ipc, client) else writeChunks console (rest.drop n) client
termination_by rest => rest.length
decreasing_by
  simp only [List.length_drop, List.length_cons, chunk]
  omega

/-- `write`. -/
def write (data : List UInt8) (client : Client ω) : Except ConsoleError Unit × Client ω :=
  match resolve peers client with
  | (.error err, client) => (.error err, client)
  | (.ok console, client) => writeChunks peers console data client

/-- What `println` passes to `write`, unless it panics. -/
def line (pieces : List (List UInt8)) : Option (List UInt8) :=
  let (buf, truncated) := writeFmt 257 pieces []
  (if truncated then
    if buf.length < 3 then none else copyFromSlice buf (buf.length - 3) buf.length dots
  else some buf).map fun buf => buf ++ [newline]

/-- `println`, unless it panics. -/
def println (pieces : List (List UInt8)) (client : Client ω) :
    Option (Except ConsoleError Unit × Client ω) :=
  (line pieces).map fun data => write peers data client

end R9x.R9xStd.ConsoleClient
