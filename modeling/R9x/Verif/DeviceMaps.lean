import R9x.Aarch64.DeviceUtil
import R9x.Verif.MapTwins

/-!
# Runs of device mappings

The kernel's tables hold more than the device mappings, and the tables of the early boot code are
not built as `map_to` builds them.
-/

namespace R9x.Verif.DeviceMaps

open Lib Aarch64 Aarch64.Vm Aarch64.DeviceUtil PageTree
open BitVec (ofNat toNat_ofNat toNat_add toNat)
open PageSize (page4K)
open Nat (mod_eq_of_lt)
open Option (some.inj map_some)

/-! ## The part of the tables that device mappings use -/

/-- The entries of the kernel's root that device addresses go through. -/
def DeviceIndex (index : Index) : Prop := 288 ≤ index.toNat ∧ index ≠ recursiveSlot

/-- Two memories agree on everything but the other entries of the kernel's root. -/
structure SameDevices (kernel : PageNo) (view phys : Phys) : Prop where
  supply : phys.supply = view.supply
  pages : ∀ page, page ≠ kernel → phys.mem page = view.mem page
  entries : ∀ index, DeviceIndex index → phys.mem kernel index = view.mem kernel index

/-- Device mappings can be made: leaving the other entries of the root aside, the kernel's tables
form a tree and the allocator's pages are unused. -/
def Mappable (kernel : PageNo) (phys : Phys) : Prop :=
  ∃ view, Callable view kernel kernel ∧ SameDevices kernel view phys

section

variable {kernel : PageNo} {view phys : Phys} {va : VirtAddr} {ttbr : Ttbr}

lemma SameDevices.shows (same : SameDevices kernel view phys)
    (device : DeviceIndex (vaIndex va .level0)) : Shows va kernel view.mem phys.mem :=
  ⟨fun page _ below => same.pages page below, same.entries _ device⟩

lemma mapTo_own (entry : Entry) (va : VirtAddr) (size : PageSize) (phys : Phys) :
    mapTo ttbr ttbr.kernel entry va size .kernel phys =
      (mapTo ttbr ttbr.kernel entry va size .kernel
        (phys.set ttbr.kernel recursiveSlot (tableEntry ttbr.kernel))).map fun outcome =>
          (outcome.1, outcome.2.set ttbr.kernel recursiveSlot
            (phys.mem ttbr.kernel recursiveSlot)) := by
  have again : ∀ (phys : Phys) (one two : Entry),
      (phys.set ttbr.kernel recursiveSlot one).set ttbr.kernel recursiveSlot two =
        phys.set ttbr.kernel recursiveSlot two := by
    intro _ _ _
    rw [Phys.set, Phys.set, Phys.set, Radix.set_set]
  simp only [mapTo, Ttbr.root, again]
  cases nextAll ttbr .kernel va size.tables ttbr.kernel
      (phys.set ttbr.kernel recursiveSlot (tableEntry ttbr.kernel)) with
  | none => rfl
  | some outcome =>
    obtain ⟨result, _⟩ := outcome
    cases result with
    | error => simp only [map_some, again]
    | ok =>
      simp only
      split
      · simp only [map_some, again]
      · rfl

lemma SameDevices.mapTo (same : SameDevices ttbr.kernel view phys)
    (callable : Callable view ttbr.kernel ttbr.kernel) (device : DeviceIndex (vaIndex va .level0))
    {size : PageSize} {entry : Entry} (valid : entry.valid = true)
    (block : entry.pageOrTable = false) :
    ∃ result after view', Vm.mapTo ttbr ttbr.kernel entry va size .kernel phys =
      some (result, after) ∧
      Callable view' ttbr.kernel ttbr.kernel ∧ SameDevices ttbr.kernel view' after ∧
      Answers ttbr.kernel entry va size result view.mem view'.mem := by
  have callable' : Callable view ttbr.kernel (ttbr.root .kernel) := callable
  obtain ⟨result, view', _, returns, touched, answers, -⟩ :=
    mapTo_spec callable' va size valid block
  have sees : Sees va ttbr.kernel (ttbr.root .kernel) view
      (phys.set ttbr.kernel recursiveSlot (tableEntry ttbr.kernel)) := by
    have slot : Radix.set phys.mem ttbr.kernel recursiveSlot (tableEntry ttbr.kernel) ttbr.kernel
        recursiveSlot = view.mem ttbr.kernel recursiveSlot := by
      rw [Radix.set_same, callable.tree.self]
    refine ⟨⟨fun page _ below => ?_, ?_⟩, same.supply, slot, slot⟩
    · exact (Radix.set_node _ _ _ below).trans (same.pages page below)
    · have apart : ¬ (ttbr.kernel = ttbr.kernel ∧ vaIndex va .level0 = recursiveSlot) :=
        fun both => device.2 both.2
      exact (Radix.set_other _ _ apart).trans (same.entries _ device)
  obtain ⟨right, _, returns', tracks⟩ := mapTo_sees sees callable' size entry returns
  refine ⟨result, right.set ttbr.kernel recursiveSlot (phys.mem ttbr.kernel recursiveSlot), view',
    ?_, callable.touched touched, ⟨tracks.same, fun page below => ?_, fun index listed => ?_⟩,
    answers⟩
  · rw [mapTo_own, returns']
    rfl
  · have before : view.mem page = (phys.set ttbr.kernel recursiveSlot (tableEntry ttbr.kernel)).mem
      page :=
      ((Radix.set_node _ _ _ below).trans (same.pages page below)).symm
    exact (Radix.set_node _ _ _ below).trans (tracks.page before).symm
  · have apart : ¬ (ttbr.kernel = ttbr.kernel ∧ index = recursiveSlot) :=
      fun both => listed.2 both.2
    have before : view.mem ttbr.kernel index =
        (phys.set ttbr.kernel recursiveSlot (tableEntry ttbr.kernel)).mem ttbr.kernel index :=
      ((Radix.set_other _ _ apart).trans (same.entries index listed)).symm
    exact (Radix.set_other _ _ apart).trans (tracks.kept _ _ before).symm

lemma Mappable.alloc {page : PageNo} {rest : Phys} (mappable : Mappable kernel phys)
    (taken : phys.alloc = (.ok page, rest)) : Mappable kernel rest := by
  obtain ⟨view, callable, same⟩ := mappable
  rw [Phys.alloc] at taken
  split at taken
  · cases taken
  rename_i supply answers
  cases taken
  have supplied := same.supply.symm.trans answers
  have listed : pages view.supply = page :: pages supply := by
    rw [supplied]
    rfl
  obtain ⟨distinct, unused, apart⟩ := callable.supplied
  rw [listed] at distinct unused apart
  refine ⟨{ view with supply }, ⟨callable.tree, callable.stranger, ?_, ?_, ?_⟩, rfl, same.pages,
    same.entries⟩
  · exact (List.nodup_cons.mp distinct).2
  · exact fun other later => unused other (List.mem_cons_of_mem _ later)
  · exact fun later => apart (List.mem_cons_of_mem _ later)

end

/-! ## Runs -/

/-- A call of one of the two functions. -/
inductive Call where
  | register (physrange : PhysRange) (size : PageSize)
  | page (size : PageSize)

/-- The device mappings and the ranges handed out, each with the physical range it was requested
for. -/
structure State where
  devices : Devices
  granted : List (VirtRange × PhysRange)

/-- A call that returns `Ok`. -/
def step (ttbr : Ttbr) (state : State) : Call → Option State
  | .register physrange size =>
    match mapDeviceRegister ttbr physrange size state.devices with
    | some (some virt, devices) => some ⟨devices, state.granted ++ [(virt, physrange)]⟩
    | _ => none
  | .page size =>
    match allocDevicePage ttbr size state.devices with
    | some (some grant, devices) => some ⟨devices, state.granted ++ [grant]⟩
    | _ => none

/-- The state before the first call. -/
def start (phys : Phys) : State := ⟨⟨phys, firstVa⟩, []⟩

/-- The ranges handed out are apart, and every address of each is translated to its place in the
physical range. -/
structure RangesInForce (ttbr : Ttbr) (state : State) : Prop where
  disjoint : state.granted.Pairwise fun one two =>
    one.1.stop.toNat ≤ two.1.start.toNat ∨ two.1.stop.toNat ≤ one.1.start.toNat
  translates : ∀ grant ∈ state.granted, ∀ k, k < grant.1.stop.toNat - grant.1.start.toNat →
    translate state.devices.phys.mem ttbr.kernel (grant.1.start + ofNat 64 k) =
      some (grant.2.start.toNat + k)

/-- The range of a call, rounded to pages of 4 KiB, is one page of physical memory. -/
def OnePage : Call → Prop
  | .register physrange size =>
    size = .page4K ∧ ∃ page, physrange.round page4K.size = some (.ofPage page)
  | .page size => size = .page4K

/-! ## One page -/

def devicePage (page : PageNo) : Entry := page4K.entry (Entry.rwDevice.withPhysAddr (pageAddr page))

def base (grant : VirtRange × PhysRange) : Nat := grant.1.start.toNat / 4096 * 4096

/-- A range handed out lies in one page, and the page is mapped to that of the physical range. -/
structure Placed (mem : Mem) (kernel : PageNo) (grant : VirtRange × PhysRange) : Prop where
  low : firstVa ≤ base grant
  outside : vaIndex (ofNat 64 (base grant)) .level0 ≠ recursiveSlot
  fits : grant.1.stop.toNat ≤ base grant + 4096
  mapped : ∃ page : PageNo, walk mem kernel (ofNat 64 (base grant)) =
    some (.page4K, devicePage page) ∧
    grant.2.start.toNat = page.toNat * 4096 + grant.1.start.toNat % 4096

section

variable {mem : Mem} {kernel : PageNo}

lemma deviceIndex_of_low {va : Nat} (low : firstVa ≤ va) (high : va < 2 ^ 64)
    (outside : vaIndex (ofNat 64 va) .level0 ≠ recursiveSlot) :
    DeviceIndex (vaIndex (ofNat 64 va) .level0) := by
  refine ⟨?_, outside⟩
  have first : firstVa = 0xffff900000000000 := rfl
  have number := toNat_vaIndex (ofNat 64 va) .level0
  rw [toNat_ofNat, mod_eq_of_lt high, Level.shift] at number
  omega

lemma addr_devicePage (page : PageNo) : Entry.addr (devicePage page) = page := by
  rw [devicePage, PageSize.entry, if_pos rfl, Entry.addr_withPageOrTable, Entry.addr_withPhysAddr]

lemma Placed.translates {grant : VirtRange × PhysRange} (placed : Placed mem kernel grant) {k : Nat}
    (inside : k < grant.1.stop.toNat - grant.1.start.toNat) :
    translate mem kernel (grant.1.start + ofNat 64 k) = some (grant.2.start.toNat + k) := by
  have first : firstVa = 0xffff900000000000 := rfl
  have low := placed.low
  have fits := placed.fits
  obtain ⟨page, walked, offset⟩ := placed.mapped
  have number : (grant.1.start + ofNat 64 k).toNat = grant.1.start.toNat + k := by
    rw [toNat_add, toNat_ofNat, mod_eq_of_lt (by omega : k < 2 ^ 64)]
    exact mod_eq_of_lt (by omega)
  have start : base grant = grant.1.start.toNat / 4096 * 4096 := rfl
  have same : walk mem kernel (grant.1.start + ofNat 64 k) = some (.page4K, devicePage page) := by
    rw [← walked, walk, walk, indices_page]
    rw [number, toNat_ofNat]
    omega
  have high : 2 ^ 64 - 2 ^ 48 ≤ (grant.1.start + ofNat 64 k).toNat := by
    omega
  have value : page.toNat * 4096 + (grant.1.start.toNat + k) % 4096 =
      page.toNat * 4096 + grant.1.start.toNat % 4096 + k := by omega
  rw [Vm.translate, if_pos high, same, map_some, frame, addr_devicePage, number, offset, value]

end

/-! ## One call -/

/-- What holds between the calls: device mappings can be made, the ranges handed out lie in mapped
pages before the counter, and their pages are in order. -/
structure Inv (ttbr : Ttbr) (state : State) : Prop where
  mappable : Mappable ttbr.kernel state.devices.phys
  low : firstVa ≤ state.devices.nextVa
  high : state.devices.nextVa < 2 ^ 64
  aligned : state.devices.nextVa % 4096 = 0
  placed : ∀ grant ∈ state.granted, Placed state.devices.phys.mem ttbr.kernel grant
  before : ∀ grant ∈ state.granted, base grant + 4096 ≤ state.devices.nextVa
  sorted : state.granted.Pairwise fun one two => base one + 4096 ≤ base two

/-- A page was mapped at the counter: the walks of the device addresses in other pages are
unchanged. -/
structure MappedAt (kernel : PageNo) (page : PageNo) (current : Nat) (before after : Phys) :
    Prop where
  mappable : Mappable kernel after
  outside : vaIndex (ofNat 64 current) .level0 ≠ recursiveSlot
  here : walk after.mem kernel (ofNat 64 current) = some (.page4K, devicePage page)
  elsewhere : ∀ va, firstVa ≤ va → va + 4096 ≤ current → va % 4096 = 0 →
    vaIndex (ofNat 64 va) .level0 ≠ recursiveSlot →
    walk after.mem kernel (ofNat 64 va) = walk before.mem kernel (ofNat 64 va)

section

variable {ttbr : Ttbr} {phys after : Phys} {page : PageNo} {current : Nat} {state next : State}

lemma mapPhysRange_page (mappable : Mappable ttbr.kernel phys) (low : firstVa ≤ current)
    (high : current < 2 ^ 64) (aligned : current % 4096 = 0) {vr : VirtRange}
    (returns : mapPhysRange ttbr ttbr.kernel (.ofPage page) (.addr (ofNat 64 current)) .rwDevice
      .page4K .kernel phys = some (.ok vr, after)) :
    vr = ⟨ofNat 64 current, ofNat 64 current + 4096#64⟩ ∧
      MappedAt ttbr.kernel page current phys after := by
  obtain ⟨view, callable, same⟩ := mappable
  have first : firstVa = 0xffff900000000000 := rfl
  have plain : Entry.valid (Entry.rwDevice.withPhysAddr (pageAddr page)) = true := by
    rw [Entry.valid_withPhysAddr]
    decide
  have block : Entry.pageOrTable (Entry.rwDevice.withPhysAddr (pageAddr page)) = false := by
    rw [Entry.pageOrTable_withPhysAddr]
    decide
  rw [mapPhysRange_ofPage] at returns
  split at returns
  · simp only [VaMapping.map] at returns
    by_cases slot : vaIndex (ofNat 64 current) .level0 = recursiveSlot
    · rw [mapTo_refused slot] at returns
      cases returns
    have device := deviceIndex_of_low low high slot
    obtain ⟨result, after', view', returns', callable', same', answers⟩ :=
      same.mapTo callable device plain block
    rw [returns', map_some] at returns
    obtain ⟨answer, rfl⟩ := Prod.mk.inj (some.inj returns)
    cases result with
    | error => cases answer
    | ok =>
      have mapped : Mapped ttbr.kernel _ _ _ view.mem view'.mem := answers
      have walked : ∀ va, firstVa ≤ va → va < 2 ^ 64 → vaIndex (ofNat 64 va) .level0 ≠
        recursiveSlot →
          walk after'.mem ttbr.kernel (ofNat 64 va) = walk view'.mem ttbr.kernel (ofNat 64 va) := by
        intro _ above below outside
        exact (same'.shows (deviceIndex_of_low above below outside)).walk callable'.tree outside
      refine ⟨(Except.ok.inj answer).symm, ⟨⟨view', callable', same'⟩, slot, ?_, ?_⟩⟩
      · rw [walked current low high slot, mapped.inside _ rfl]
        rfl
      · intro va above below aligned' outside
        have small : va < 2 ^ 64 := by omega
        have uncovered : ¬ Covers .page4K (ofNat 64 current) (ofNat 64 va) := by
          have size : page4K.size = 4096 := rfl
          rw [Covers, size, toNat_ofNat, toNat_ofNat, mod_eq_of_lt high, mod_eq_of_lt small]
          omega
        have shown := (same.shows (deviceIndex_of_low above small outside)).walk callable.tree
          outside
        rw [walked va above small outside, mapped.outside _ outside uncovered, shown]
  · cases returns

lemma Inv.grant (inv : Inv ttbr state)
    (mapped : MappedAt ttbr.kernel page state.devices.nextVa state.devices.phys after)
    (room : state.devices.nextVa + 4096 < 2 ^ 64) {grant : VirtRange × PhysRange}
    (place : base grant = state.devices.nextVa)
    (fits : grant.1.stop.toNat ≤ state.devices.nextVa + 4096)
    (offset : grant.2.start.toNat = page.toNat * 4096 + grant.1.start.toNat % 4096) :
    Inv ttbr ⟨⟨after, state.devices.nextVa + 4096⟩, state.granted ++ [grant]⟩ := by
  have low := inv.low
  have aligned := inv.aligned
  refine ⟨mapped.mappable, ?_, room, ?_, ?_, ?_, ?_⟩
  · change firstVa ≤ state.devices.nextVa + 4096
    omega
  · change (state.devices.nextVa + 4096) % 4096 = 0
    omega
  · intro other member
    rcases List.mem_append.mp member with old | new
    · obtain ⟨low', outside, fits', page', walked, offset'⟩ := inv.placed other old
      refine ⟨low', outside, fits', page', ?_, offset'⟩
      have start : base other = other.1.start.toNat / 4096 * 4096 := rfl
      have kept := mapped.elsewhere (base other) low' (inv.before other old) (by omega) outside
      exact kept.trans walked
    obtain rfl := List.mem_singleton.mp new
    refine ⟨place ▸ low, place ▸ mapped.outside, place ▸ fits, page, ?_, offset⟩
    rw [place]
    exact mapped.here
  · intro other member
    change base other + 4096 ≤ state.devices.nextVa + 4096
    rcases List.mem_append.mp member with old | new
    · have bound := inv.before other old
      omega
    obtain rfl := List.mem_singleton.mp new
    omega
  · rw [List.pairwise_append]
    refine ⟨inv.sorted, List.pairwise_singleton _ _, fun one old two new => ?_⟩
    obtain rfl := List.mem_singleton.mp new
    rw [place]
    exact inv.before one old

variable {physrange : PhysRange}

lemma round_ofPage (rounded : physrange.round page4K.size = some (.ofPage page)) :
    physrange.start.toNat / 4096 = page.toNat ∧ page.toNat * 4096 ≤ physrange.stop.toNat ∧
      physrange.stop.toNat ≤ page.toNat * 4096 + 4096 := by
  have size : ofNat 64 page4K.size = 4096#64 := rfl
  rw [PhysRange.round, size, roundUp2] at rounded
  split at rounded
  · rename_i small
    have number : (4096#64).toNat = 4096 := rfl
    obtain ⟨first, last⟩ := PhysRange.mk.inj (some.inj rounded)
    have first' := congrArg toNat first
    rw [toNat_roundDown2, toNat_pageAddr] at first'
    have sum : (physrange.stop + 4096#64 - 1).toNat = physrange.stop.toNat + 4095 := by
      rw [show physrange.stop + 4096#64 - 1 = physrange.stop + 4095#64 by bv_omega, toNat_add]
      exact mod_eq_of_lt (by simp; omega)
    have last' : (physrange.stop.toNat + 4095) / 4096 * 4096 = page.toNat * 4096 + 4096 := by
      have whole : roundDown2 (physrange.stop + 4096#64 - 1) 4096#64 =
          pageAddr page + ofNat 64 page4K.size := last
      have numbers := congrArg toNat whole
      rw [toNat_roundDown2, sum, size, toNat_add, toNat_pageAddr, number,
        mod_eq_of_lt (by omega)] at numbers
      exact numbers
    omega
  · cases rounded

lemma nextFreeDevicePage4k_some {mapping : VaMapping} {advanced : Nat}
    (taken : nextFreeDevicePage4k current = some (mapping, advanced)) :
    mapping = .addr (ofNat 64 current) ∧ advanced = current + 4096 ∧ current + 4096 < 2 ^ 64 := by
  obtain ⟨_, added, same⟩ := Option.map_eq_some_iff.mp taken
  obtain ⟨rfl, small⟩ := checkedAdd_some added
  cases same
  exact ⟨rfl, rfl, small⟩

lemma virtRangeFromPhysrange_some {offset : Nat} {virt : VirtRange}
    (made : virtRangeFromPhysrange physrange offset = some virt) :
    virt.start.toNat = physrange.start.toNat + offset ∧ virt.stop.toNat =
      physrange.stop.toNat + offset := by
  rw [virtRangeFromPhysrange] at made
  split at made
  · rename_i added added'
    obtain ⟨rfl, small⟩ := checkedAdd_some added
    obtain ⟨rfl, small'⟩ := checkedAdd_some added'
    cases made
    exact ⟨mod_eq_of_lt small, mod_eq_of_lt small'⟩
  · cases made

lemma Inv.register (inv : Inv ttbr state)
    (rounded : physrange.round page4K.size = some (.ofPage page))
    (taken : step ttbr state (.register physrange .page4K) = some next) : Inv ttbr next := by
  have aligned := inv.aligned
  obtain ⟨begins, after, ends⟩ := round_ofPage rounded
  have place : (PhysRange.ofPage page).start.toNat = page.toNat * 4096 := toNat_pageAddr page
  rw [step] at taken
  split at taken
  · rename_i virt devices returns
    obtain rfl := some.inj taken
    simp only [mapDeviceRegister, rounded] at returns
    split at returns
    · cases returns
    rename_i mapping advanced counted
    obtain ⟨rfl, rfl, room⟩ := nextFreeDevicePage4k_some counted
    split at returns
    · cases returns
    · cases returns
    rename_i vr phys mapped
    obtain ⟨rfl, mappedAt⟩ := mapPhysRange_page inv.mappable inv.low inv.high aligned mapped
    have current : (ofNat 64 state.devices.nextVa).toNat = state.devices.nextVa :=
      mod_eq_of_lt inv.high
    simp only [current, place] at returns
    split at returns
    · obtain ⟨range, made, same⟩ := Option.map_eq_some_iff.mp returns
      obtain ⟨sameRange, rfl⟩ := Prod.mk.inj same
      obtain rfl := some.inj sameRange
      obtain ⟨first, last⟩ := virtRangeFromPhysrange_some made
      apply inv.grant mappedAt room
      · change range.start.toNat / 4096 * 4096 = state.devices.nextVa
        omega
      · change range.stop.toNat ≤ state.devices.nextVa + 4096
        omega
      · change physrange.start.toNat = page.toNat * 4096 + range.start.toNat % 4096
        omega
    · cases returns
  · cases taken

lemma Inv.allocPage (inv : Inv ttbr state) (taken : step ttbr state (.page .page4K) = some next) :
    Inv ttbr next := by
  have aligned := inv.aligned
  have high := inv.high
  rw [step] at taken
  split at taken
  · rename_i grant devices returns
    cases taken
    rw [allocDevicePage] at returns
    split at returns
    · cases returns
    rename_i page rest allocated
    have number := toNat_pageAddr page
    have range : PhysRange.withPaLen (pageAddr page) page4K.size = some (.ofPage page) := by
      have size : page4K.size = 4096 := rfl
      rw [PhysRange.withPaLen, if_pos (by omega)]
      rfl
    simp only [range] at returns
    split at returns
    · cases returns
    rename_i mapping advanced counted
    obtain ⟨rfl, rfl, room⟩ := nextFreeDevicePage4k_some counted
    split at returns
    · cases returns
    · cases returns
    rename_i vr phys mapped
    have mappable := inv.mappable.alloc allocated
    obtain ⟨rfl, mappedAt⟩ := mapPhysRange_page mappable inv.low high aligned mapped
    obtain ⟨sameGrant, rfl⟩ := Prod.mk.inj (some.inj returns)
    cases sameGrant
    have current : (ofNat 64 state.devices.nextVa).toNat = state.devices.nextVa := mod_eq_of_lt high
    have last : (ofNat 64 state.devices.nextVa + 4096#64).toNat = state.devices.nextVa + 4096 := by
      rw [toNat_add, current]
      exact mod_eq_of_lt room
    have unread : rest.mem = state.devices.phys.mem := by
      rw [Phys.alloc] at allocated
      split at allocated
      · cases allocated
      · exact (congrArg (fun outcome => outcome.2.mem) allocated).symm
    have mappedAt' : MappedAt ttbr.kernel page state.devices.nextVa state.devices.phys phys :=
      ⟨mappedAt.mappable, mappedAt.outside, mappedAt.here, unread ▸ mappedAt.elsewhere⟩
    apply inv.grant mappedAt' room
    · change (ofNat 64 state.devices.nextVa).toNat / 4096 * 4096 = state.devices.nextVa
      omega
    · exact Nat.le_of_eq last
    · change (pageAddr page).toNat = page.toNat * 4096 + (ofNat 64 state.devices.nextVa).toNat %
        4096
      rw [current, number]
      omega
  · cases taken

lemma Inv.sound (inv : Inv ttbr state) : RangesInForce ttbr state := by
  refine ⟨?_, fun grant member k inside => (inv.placed grant member).translates inside⟩
  apply inv.sorted.imp_of_mem
  intro one two first second before
  have fits := (inv.placed one first).fits
  have start : base two = two.1.start.toNat / 4096 * 4096 := rfl
  omega

end

/-- In every run of calls for ranges of one page each that all return `Ok`, the ranges handed out
are apart and every address of each is translated to its place in the physical range. -/
theorem device_ranges_sound (ttbr : Ttbr) (phys : Phys) (mappable : Mappable ttbr.kernel phys)
    (calls : List Call) (reached : State)
    (onePage : Along (step ttbr) (fun _ call => OnePage call) (start phys) calls)
    (runs : run (step ttbr) (start phys) calls = some reached) : RangesInForce ttbr reached := by
  have keeps : ∀ state call next, Inv ttbr state → OnePage call →
      step ttbr state call = some next → Inv ttbr next := by
    intro _ call _ inv onePage taken
    cases call with
    | register =>
      obtain ⟨rfl, _, rounded⟩ := onePage
      exact inv.register rounded taken
    | page size =>
      obtain rfl : size = .page4K := onePage
      exact inv.allocPage taken
  have first : Inv ttbr (start phys) := by
    have high : firstVa < 2 ^ 64 := by decide
    have aligned : firstVa % 4096 = 0 := by decide
    refine ⟨mappable, Nat.le_refl _, high, aligned, ?_, ?_, List.Pairwise.nil⟩
    · exact fun grant member => nomatch member
    · exact fun grant member => nomatch member
  exact (run_invariant_along keeps first onePage runs).sound

def bareKernel : Phys := initEmptyRootPageTable 0 ⟨fun _ _ => 0, [.ok 1, .ok 2, .ok 3, .ok 4]⟩

lemma bareKernel_mappable : Mappable 0 bareKernel := by
  have answers : pages bareKernel.supply = [1, 2, 3, 4] := rfl
  have distinct : (pages bareKernel.supply).Nodup := by
    decide
  have unused : ∀ page ∈ pages bareKernel.supply, ¬ InTree bareKernel.mem 0 page := by
    intro _ later inside
    rw [answers, inTree_empty rfl inside] at later
    exact absurd later (by decide)
  have apart : (0 : PageNo) ∉ pages bareKernel.supply := by
    decide
  exact ⟨bareKernel, ⟨tree_empty rfl, .inl rfl, distinct, unused, apart⟩, rfl, fun _ _ =>
    rfl, fun _ _ => rfl⟩

def uartRange : PhysRange := ⟨0x3f201000, 0x3f201200⟩

/-- A serial line and a buffer: the two ranges are sound. -/
theorem device_ranges_sound_uart :
    ∃ reached, run (step ⟨0, 0⟩) (start bareKernel) [.register uartRange .page4K, .page .page4K] =
        some reached ∧ reached.granted.length = 2 ∧ RangesInForce ⟨0, 0⟩ reached := by
  have evaluated : ((run (step ⟨0, 0⟩) (start bareKernel)
      [.register uartRange .page4K, .page .page4K]).any fun reached =>
        decide (reached.granted.length = 2)) = true := by
    decide +kernel
  obtain ⟨reached, runs, two⟩ := (Option.any_eq_true _ _).mp evaluated
  have onePage : Along (step ⟨0, 0⟩) (fun _ call => OnePage call) (start bareKernel)
      [.register uartRange .page4K, .page .page4K] := by
    have rounded : uartRange.round PageSize.page4K.size = some (.ofPage 0x3f201) := by decide
    exact fun _ _ => ⟨⟨rfl, 0x3f201, rounded⟩, fun _ _ => ⟨rfl, trivial⟩⟩
  exact ⟨reached, runs, of_decide_eq_true two,
    device_ranges_sound ⟨0, 0⟩ bareKernel bareKernel_mappable _ reached onePage runs⟩

def gicRange : PhysRange := ⟨0xff841000, 0xff843000⟩

/-- After two pages of registers the next range begins in the second of them. -/
theorem second_range_overlaps : ∃ reached, run (step ⟨0, 0⟩) (start bareKernel)
        [.register gicRange .page4K, .register uartRange .page4K] = some reached ∧
      ¬ RangesInForce ⟨0, 0⟩ reached := by
  have evaluated : ((run (step ⟨0, 0⟩) (start bareKernel)
      [.register gicRange .page4K, .register uartRange .page4K]).any fun reached =>
        decide (reached.granted = [(⟨0xffff900000000000, 0xffff900000002000⟩, gicRange),
            (⟨0xffff900000001000, 0xffff900000001200⟩, uartRange)])) = true := by
    decide +kernel
  obtain ⟨reached, runs, granted⟩ := (Option.any_eq_true _ _).mp evaluated
  refine ⟨reached, runs, fun sound => ?_⟩
  have disjoint := sound.disjoint
  rw [of_decide_eq_true granted, List.pairwise_pair] at disjoint
  exact absurd disjoint (by decide)

end R9x.Verif.DeviceMaps
