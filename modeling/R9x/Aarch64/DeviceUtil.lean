import R9x.Aarch64.Aspace
import R9x.Lib.Checked

/-!
# Device mappings

`aarch64/src/deviceutil.rs` maps device registers and buffers in the kernel half, at addresses that
`next_free_device_page4k` of `aarch64/src/vm.rs` takes from a counter.
-/

namespace R9x.Aarch64.DeviceUtil

open Lib Aarch64.Vm

/-- What the device mappings change: memory and `next_free_device_page_va`. -/
structure Devices where
  phys : Phys
  nextVa : Nat

/-- The initial value of `next_free_device_page_va`. -/
def firstVa : Nat := kzero + 0x100000000000

def nextFreeDevicePage4k (current : Nat) : Option (VaMapping × Nat) :=
  (checkedAdd current PageSize.page4K.size).map fun next => (.addr (BitVec.ofNat 64 current), next)

def virtRangeFromPhysrange (range : PhysRange) (offset : Nat) : Option VirtRange :=
  match checkedAdd range.start.toNat offset, checkedAdd range.stop.toNat offset with
  | some start, some stop => some ⟨BitVec.ofNat 64 start, BitVec.ofNat 64 stop⟩
  | _, _ => none

/-- `map_device_register`: the virtual range, or nothing if the range cannot be mapped. -/
def mapDeviceRegister (ttbr : Ttbr) (physrange : PhysRange) (size : PageSize) (devices : Devices) :
    Option (Option VirtRange × Devices) :=
  match physrange.round size.size with
  | none => none
  | some pagePhysrange =>
    match nextFreeDevicePage4k devices.nextVa with
    | none => none
    | some (mapping, nextVa) =>
      match mapPhysRange ttbr ttbr.kernel pagePhysrange mapping .rwDevice size .kernel
        devices.phys with
      | none => none
      | some (.error _, phys) => some (none, ⟨phys, nextVa⟩)
      | some (.ok vr, phys) =>
        if pagePhysrange.start.toNat ≤ vr.start.toNat then
          (virtRangeFromPhysrange physrange (vr.start.toNat - pagePhysrange.start.toNat)).map
            fun range => (some range, ⟨phys, nextVa⟩)
        else none

/-- `alloc_device_page`: the virtual and the physical range, or nothing if the page cannot be
mapped. -/
def allocDevicePage (ttbr : Ttbr) (size : PageSize) (devices : Devices) :
    Option (Option (VirtRange × PhysRange) × Devices) :=
  match devices.phys.alloc with
  | (.error _, _) => none
  | (.ok page, phys) =>
    match PhysRange.withPaLen (pageAddr page) size.size with
    | none => none
    | some pagePhysrange =>
      match nextFreeDevicePage4k devices.nextVa with
      | none => none
      | some (mapping, nextVa) =>
        match mapPhysRange ttbr ttbr.kernel pagePhysrange mapping .rwDevice size .kernel phys with
        | none => none
        | some (.error _, phys) => some (none, ⟨phys, nextVa⟩)
        | some (.ok vr, phys) => some (some (vr, pagePhysrange), ⟨phys, nextVa⟩)

end R9x.Aarch64.DeviceUtil
