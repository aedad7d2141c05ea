import Mathlib.Algebra.Ring.Nat
import Mathlib.Data.Nat.Notation

/-!
# The system-call numbers and codes

`abi/src/lib.rs` is the one source both ends of a system call read: the trap numbers, and the codes
that calls return beside their values.
-/

namespace R9x.Abi

/-! ## Trap numbers -/

def sysExit : UInt64 := 0

def sysYield : UInt64 := 1

def sycSend : UInt64 := 16

def sycReceive : UInt64 := 17

def sycReply : UInt64 := 18

def sysIrqClaim : UInt64 := 19

def sysMapMmio : UInt64 := 20

def sycCreatechan : UInt64 := 21

def sysAlloc : UInt64 := 22

def sysFree : UInt64 := 23

def sysSpawn : UInt64 := 24

def sysClock : UInt64 := 25

def sysReceiveAt : UInt64 := 26

def sysAllocPage : UInt64 := 27

def sysWait : UInt64 := 28

def sysKill : UInt64 := 29

def sysSetprio : UInt64 := 30

def sysPrint : UInt64 := 31

/-! ## Codes -/

def pageSize : UInt64 := 4096

def waitTimeout : UInt64 := 0xffffffff

def waitBadId : UInt64 := 0xfffffffe

def setprioBadPrio : UInt64 := 2

def errBadHandle : UInt64 := 1

/-- `ERR_CLOSED`, which `RECEIVE_CLOSED` repeats. -/
def errClosed : UInt64 := 2

def errFull : UInt64 := 3

def errEmpty : UInt64 := 4

def errBadTag : UInt64 := 5

def errNoSlot : UInt64 := 8

def errBadVa : UInt64 := 10

end R9x.Abi
