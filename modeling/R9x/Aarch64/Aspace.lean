import R9x.Aarch64.Vm

/-!
# Address spaces

`aarch64/src/aspace.rs`: the root of a process and the mapping of its pages.
-/

namespace R9x.Aarch64

open Aarch64.Vm

/-- `KZERO`: where the kernel half begins. -/
def kzero : Nat := 0xffff800000000000

def pageSize4K : Nat := 4096

namespace Aspace

/-- `physaddr_as_ptr_mut_offset_from_kzero`: the address at which the kernel maps a page. -/
def kernelPointer (page : PageNo) : VirtAddr := pageAddr page + BitVec.ofNat 64 kzero

def mapKernelPage (ttbr : Ttbr) (page : PageNo) (phys : Phys) : Outcome PageTableError VirtRange :=
  mapPhysRange ttbr ttbr.kernel (.ofPage page) (.offset (BitVec.ofNat 64 kzero)) .rwKernelData
    .page4K
    .kernel phys

/-- `Aspace::new`: the page of an empty root. A page whose kernel address wraps fails the assertion
of `from_virt_to_physaddr`. -/
def new (ttbr : Ttbr) (phys : Phys) : Option (PageNo × Phys) :=
  match phys.alloc with
  | (.error _, _) => none
  | (.ok page, phys) =>
    match mapKernelPage ttbr page phys with
    | none => none
    | some (.error _, _) => none
    | some (.ok _, phys) =>
      if page.toNat < 2 ^ 35 then
        (kernelPage phys.mem ttbr.kernel (kernelPointer page)).map fun root =>
          (page, initEmptyRootPageTable page (phys.clear root))
      else none

/-- `map_user_page`: the result is the kernel's address of the new page. -/
def mapUserPage (ttbr : Ttbr) (root : PageNo) (entry : Entry) (va : VirtAddr) (phys : Phys) :
    Outcome PageAllocError VirtAddr :=
  match phys.alloc with
  | (.error err, phys) => some (.error err, phys)
  | (.ok page, phys) =>
    match mapPhysRange ttbr root (.ofPage page) (.addr va) entry .page4K .user phys with
    | none => none
    | some (.error _, phys) => some (.error .unableToMap, phys)
    | some (.ok _, phys) =>
      match mapKernelPage ttbr page phys with
      | none => none
      | some (.error _, phys) => some (.error .unableToMap, phys)
      | some (.ok _, phys) => some (.ok (kernelPointer page), phys)

/-- `map_user_data_page_pa`, and with the address ignored `map_user_data_page`. -/
def mapUserDataPagePa (ttbr : Ttbr) (root : PageNo) (va : VirtAddr) (phys : Phys) :
    Outcome PageAllocError PhysAddr :=
  match phys.alloc with
  | (.error err, phys) => some (.error err, phys)
  | (.ok page, phys) =>
    match mapPhysRange ttbr root (.ofPage page) (.addr va) .rwUserData .page4K .user phys with
    | none => none
    | some (.error _, phys) => some (.error .unableToMap, phys)
    | some (.ok _, phys) => some (.ok (pageAddr page), phys)

end Aspace

/-- The address space of a process, with the heap fields of `Process`. -/
structure Space where
  root : PageNo
  heapBase : Nat
  heapBrk : Nat
  heapHwm : Nat
  deriving DecidableEq

end R9x.Aarch64
