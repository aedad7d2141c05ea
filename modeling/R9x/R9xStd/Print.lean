import Mathlib.Algebra.Ring.Nat

/-!
# Formatted output

`std/src/print.rs`: a formatting request is the sequence of the string pieces that it writes, and a
buffer is what has been written to it.
-/

namespace R9x.R9xStd.Print

/-- The byte that ends a line. -/
def newline : UInt8 := 10

/-- The marker of a truncated text. -/
def dots : List UInt8 := [46, 46, 46]

/-- `SYS_PRINT` of a buffer of the caller: the kernel prints its first 256 bytes. -/
def sysPrint (buf : List UInt8) : List UInt8 := buf.take 256

/-- `BUF_SIZE` of `print.rs`. -/
def bufSize : Nat := 259

/-- `write_fmt` to a `BufWriter` over a buffer of some size: what is in the buffer, and whether a
piece did not fit. -/
def writeFmt (size : Nat) : (pieces : List (List UInt8)) → (buf : List UInt8) → List UInt8 × Bool
  | [], buf => (buf, false)
  | piece :: pieces, buf =>
    if size - 1 < buf.length + piece.length then (buf, true) else writeFmt size pieces
      (buf ++ piece)

/-- `copy_from_slice` to a range of the buffer. It panics if the range has another length. -/
def copyFromSlice (buf : List UInt8) (start stop : Nat) (src : List UInt8) : Option (List UInt8) :=
  if start ≤ stop ∧ stop - start = src.length then some (buf.take start ++ src ++ buf.drop stop)
  else none

/-- What `print_str` prints. -/
def printStr (s : List UInt8) : List UInt8 :=
  sysPrint (s.take (min s.length (bufSize - 1)) ++ [newline])

/-- What `print_fmt` prints, unless it panics. -/
def printFmt (pieces : List (List UInt8)) : Option (List UInt8) :=
  let (buf, truncated) := writeFmt bufSize pieces []
  let stop := min buf.length (bufSize - 1)
  (if truncated then copyFromSlice buf (stop - 3) stop dots else some buf).map fun buf =>
    sysPrint (buf.take stop ++ [newline])

end R9x.R9xStd.Print
