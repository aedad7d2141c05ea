import R9x.Abi
import R9x.Cmd.BindTable
import R9x.Port.Elf
import R9x.Port.Queue

/-!
# The serving loops

`cmd/nameserver`, `cmd/console` and `cmd/mailbox`: one turn of the loop of each server, from the
return of `ipc::receive` to the next call of it.
-/

namespace R9x.Cmd

open Lib

/-! ## What a turn starts with and ends in -/

/-- What `ipc::receive` returns: a message, or an error code with no bytes. -/
structure Arrival where
  opcode : UInt16
  tag : UInt32
  data : List UInt8
  bounded : data.length ≤ Port.Ipc.msgMax
  deriving DecidableEq

/-- The error results of `ipc::receive`. -/
def Arrival.error (code : UInt16) : Arrival := ⟨code, 0, [], Nat.zero_le _⟩

/-- The page of the mailbox server, by words. -/
abbrev Buffer := Fin 1024 → UInt32

/-- The calls and the devices of the servers, over any state. `replies` is whether the blocking
reply returns, as it does once the queue has room. -/
structure World (ω : Type) where
  replies : (handle : UInt64) → ω → Bool
  reply : (handle : UInt64) → (opcode : UInt16) → (tag : UInt32) → (payload : List UInt8) → ω → ω
  trace : (byte : UInt8) → ω → Option ω
  mbox : (request : UInt32) → Buffer → ω → Option (Buffer × ω)

/-- What the servers keep from turn to turn. -/
structure Kept (ω : Type) where
  table : BindTable
  buffer : Buffer
  world : ω

/-- How a turn ends. -/
inductive Turn (ω : Type) where
  | again (kept : Kept ω)
  | panics
  | exits (status : UInt64)
  | stays

/-- `u32::from_le_bytes`. -/
def u32FromLe (bytes : List UInt8) : UInt32 :=
    UInt32.ofNat (Port.Elf.fromLeBytes (bytes.map UInt8.toBitVec))

/-- `u32::to_le_bytes`. -/
def u32ToLe (word : UInt32) : List UInt8 :=
  [word.toUInt8, (word >>> 8).toUInt8, (word >>> 16).toUInt8, (word >>> 24).toUInt8]

variable {ω : Type} (world : World ω)

/-- The reply at the end of a turn. -/
def replyThen (handle : UInt64) (opcode : UInt16) (tag : UInt32) (payload : List UInt8)
    (kept : Kept ω) : Turn ω :=
  if world.replies handle kept.world then
    .again { kept with world := world.reply handle opcode tag payload kept.world }
  else .stays

/-! ## The nameserver -/

/-- The dispatch of the nameserver: the result, the pair found, and the table; without a result it
panics. -/
def dispatch (op : UInt16) (payload : List UInt8) (table : BindTable) :
    Option ((UInt16 × Option Pair) × BindTable) :=
  if op = 0 then
    (checkedSub payload.length 12).map fun nameLen =>
      let pair := ⟨u32FromLe ((payload.drop nameLen).take 4),
        u32FromLe ((payload.drop (nameLen + 4)).take 4)⟩
      let (result, table) := table.bind (payload.take nameLen) pair
      ((result, none), table)
  else if op = 1 then
    (checkedSub payload.length 4).map fun nameLen =>
      match table.resolve (payload.take nameLen) with
      | some pair => ((rOk, some pair), table)
      | none => ((rEnoent, none), table)
  else if op = 2 then
    (checkedSub payload.length 4).map fun nameLen =>
      let (result, table) := table.unbind (payload.take nameLen)
      ((result, none), table)
  else some ((rEnoent, none), table)

/-- The bytes of the reply of the nameserver. -/
def foundBytes : Option Pair → List UInt8
  | some pair => u32ToLe pair.inH ++ u32ToLe pair.outH
  | none => []

def nameserver (arrival : Arrival) (kept : Kept ω) : Turn ω :=
  let payload := arrival.data
  match checkedSub payload.length 4 with
  | none => .panics
  | some replyAt =>
    let replyChan := (u32FromLe (payload.drop replyAt)).toUInt64
    match dispatch arrival.opcode payload kept.table with
    | none => .panics
    | some ((result, found), table) =>
      replyThen world replyChan result arrival.tag (foundBytes found) { kept with table }

/-! ## The console server -/

def rEinval : UInt16 := 3

/-- The loop of the console server over the text. -/
def traceAll : List UInt8 → ω → Option ω
  | [], state => some state
  | byte :: bytes, state => (world.trace byte state).bind (traceAll bytes)

/-- A turn of the console server. -/
def console (arrival : Arrival) (kept : Kept ω) : Turn ω :=
  if arrival.data.length < 4 then .again kept
  else
    let replyH := (u32FromLe (arrival.data.take 4)).toUInt64
    if arrival.opcode = 0 then
      match traceAll world (arrival.data.drop 4) kept.world with
      | none => .stays
      | some after => replyThen world replyH rOk arrival.tag [] { kept with world := after }
    else replyThen world replyH rEinval arrival.tag [] kept

/-! ## The mailbox server -/

/-- The buffer with its first words written. -/
def writeWords (buffer : Buffer) (words : List UInt32) : Buffer :=
  fun place =>
  words.getD place (buffer place)

/-- `mbox_request`, for the buffer at a physical address. -/
def mboxRequest (bufPa : UInt64) (buffer : Buffer) (state : ω) : Option (Buffer × ω) :=
  world.mbox ((bufPa.toUInt32 &&& ~~~0xF) ||| 8) buffer state

/-- `configure_framebuffer`: the physical address and the size. -/
def configureFramebuffer (bufPa : UInt64) (width height bpp : UInt32) (buffer : Buffer)
    (state : ω) :
    Option ((UInt64 × UInt64) × Buffer × ω) :=
  let buffer := writeWords buffer [64, 0, 0x48003, 8, 0, width, height, 0x48005, 4, 0, bpp, 0x48006,
    4,
    0, 0, 0]
  (mboxRequest world bufPa buffer state).bind fun (buffer, state) =>
    let buffer := writeWords buffer ([32, 0, 0x40001, 8, 0] ++ List.replicate 27 0)
    (mboxRequest world bufPa buffer state).map fun (buffer, state) =>
      (((buffer 5).toUInt64, (buffer 6).toUInt64), buffer, state)

def getProperty (bufPa : UInt64) (tagId : UInt32) (buffer : Buffer) (state : ω) :
    Option (UInt32 × Buffer × ω) :=
  let buffer := writeWords buffer [24, 0, tagId, 4, 0, 0]
  (mboxRequest world bufPa buffer state).map fun (buffer, state) => (buffer 5, buffer, state)

/-- The request buffer of the mailbox server: 64 bytes, zero behind the bytes received. -/
def requestByte (arrival : Arrival) (place : Nat) : UInt8 := (arrival.data.take 64).getD place 0

def requestWord (arrival : Arrival) (place : Nat) : UInt32 :=
  u32FromLe ((List.range' place 4).map (requestByte arrival))

/-- The verb of a request: the message's own opcode is not read. -/
def requestOp (arrival : Arrival) : UInt16 :=
  (requestByte arrival 0).toUInt16 ||| ((requestByte arrival 1).toUInt16 <<< 8)

/-- A turn of the mailbox server with its outbound channel and its buffer. -/
def mailbox (outH bufPa : UInt64) (arrival : Arrival) (kept : Kept ω) : Turn ω :=
  let n := min arrival.data.length 64
  if requestOp arrival = 0 then
    if n < 14 then .exits 1
    else match configureFramebuffer world bufPa (requestWord arrival 2) (requestWord arrival 6)
        (requestWord arrival 10) kept.buffer kept.world with
      | none => .stays
      | some ((pa, size), buffer, after) =>
        let resp : List UInt8 := 0 :: (u32ToLe pa.toUInt32 ++ u32ToLe (pa >>> 32).toUInt32 ++
          u32ToLe size.toUInt32 ++ u32ToLe (size >>> 32).toUInt32)
        replyThen world outH rOk arrival.tag resp { kept with buffer, world := after }
  else if requestOp arrival = 1 then
    if n < 6 then .exits 1
    else match getProperty world bufPa (requestWord arrival 2) kept.buffer kept.world with
      | none => .stays
      | some (value, buffer, after) =>
        replyThen world outH rOk arrival.tag (0 :: u32ToLe value)
          { kept with buffer, world := after }
  else replyThen world outH rOk arrival.tag [1] kept

/-! ## The servers together -/

/-- The servers. -/
inductive Server where
  | nameserver
  | console
  | mailbox (outH bufPa : UInt64)
  deriving DecidableEq

def Server.turn (server : Server) (arrival : Arrival) (kept : Kept ω) : Turn ω :=
  match server with
  | .nameserver => Cmd.nameserver world arrival kept
  | .console => Cmd.console world arrival kept
  | .mailbox outH bufPa => Cmd.mailbox world outH bufPa arrival kept

end R9x.Cmd
