import R9x.Lib.ByteMem
import Mathlib.Logic.Function.Basic

/-!
# Memory builtins

`std/src/builtin.rs`: the byte loops over the memory of a process.
-/

namespace R9x.R9xStd.Builtin

open Lib

/-- The loop of `memcpy`: both pointers move up. -/
def copyLoop (mem : ByteMem) (d s : Nat) : Nat → ByteMem
  | 0 => mem
  | n + 1 => copyLoop (Function.update mem d (mem s)) (d + 1) (s + 1) n

def memcpy (dst src n : Nat) (mem : ByteMem) : Nat × ByteMem := (dst, copyLoop mem dst src n)

/-- One round of either loop of `memmove`. -/
def moveByte (dst src : Nat) (mem : ByteMem) (i : Nat) : ByteMem :=
    Function.update mem (dst + i) (mem (src + i))

def memmove (dst src n : Nat) (mem : ByteMem) : Nat × ByteMem :=
  (dst, if dst < src then (List.range n).foldl (moveByte dst src) mem
    else (List.range n).reverse.foldl (moveByte dst src) mem)

def setLoop (c : BitVec 8) (mem : ByteMem) (d : Nat) : Nat → ByteMem
  | 0 => mem
  | n + 1 => setLoop c (Function.update mem d c) (d + 1) n

def memset (dst : Nat) (c : BitVec 8) (n : Nat) (mem : ByteMem) : Nat × ByteMem :=
    (dst, setLoop c mem dst n)

/-- The difference of two bytes is far inside an `i32`. -/
def memcmp (mem : ByteMem) (a b : Nat) : Nat → Int
  | 0 => 0
  | n + 1 => if mem a ≠ mem b then (mem a).toNat - (mem b).toNat else memcmp mem (a + 1) (b + 1) n

end R9x.R9xStd.Builtin
