import R9x.Aarch64.Heap
import R9x.Verif.Ownership

/-!
# Runs of heap calls

A process grows, shrinks and extends its heap page by page, and stores to its memory in between.
-/

namespace R9x.Verif.HeapRuns

open Lib Aarch64 Aarch64.Vm PageTree Ownership
open BitVec (ofNat)
open Option (map_eq_some_iff)

/-- A process with its heap, memory, and the record of the run. -/
structure Machine where
  space : Space
  phys : Phys
  log : List (Nat × PhysAddr)
  pairs : List (Nat × PhysAddr)

/-- What the process asks for, or does itself. -/
inductive Request where
  | grow (count : BitVec 64)
  | allocPage
  | shrink (va : BitVec 64)
  | store (va : VirtAddr) (word : Entry)

/-- The physical address behind a page. -/
def translateIn (root : PageNo) (mem : Mem) (page : Nat) : Option PhysAddr :=
  (walk mem root (ofNat 64 page)).map fun found =>
    pageAddr (frame found.1 found.2 (ofNat 64 page))

/-- A page no walk reaches, or that `map_to` refuses. -/
def Vacant (root : PageNo) (mem : Mem) (page : Nat) : Prop :=
  vaIndex (ofNat 64 page) .level0 = recursiveSlot ∨ walk mem root (ofNat 64 page) = none

/-- No mapping is replaced. -/
def Persists (root : PageNo) (before after : Mem) : Prop :=
  ∀ va, vaIndex va .level0 ≠ recursiveSlot → ∀ size entry, walk before root va =
    some (size, entry) →
    walk after root va = some (size, entry)

/-- No mapping is replaced, and what the mapped pages hold is kept. -/
def Kept (root : PageNo) (before after : Mem) : Prop :=
  ∀ va, vaIndex va .level0 ≠ recursiveSlot → ∀ size entry, walk before root va =
    some (size, entry) →
    walk after root va = some (size, entry) ∧ after (frame size entry va) =
      before (frame size entry va)

namespace Machine

/-- The physical address behind a page of the process. -/
def translate (machine : Machine) (page : Nat) : Option PhysAddr :=
  translateIn machine.space.root machine.phys.mem page

/-- One request; the kernel root is not involved. -/
def step (kernel : PageNo) (machine : Machine) : Request → Option Machine
  | .grow count =>
    (heapGrow kernel machine.space count.toNat machine.phys).map fun outcome =>
      { machine with
        space := outcome.space, phys := outcome.phys, log := machine.log ++ outcome.mapped }
  | .allocPage =>
    (heapAllocPage kernel machine.space machine.phys).map fun outcome =>
      { space := outcome.space, phys := outcome.phys, log := machine.log ++ outcome.mapped,
        pairs := machine.pairs ++ outcome.answer.toList }
  | .shrink va => some { machine with space := heapShrink machine.space va.toNat }
  | .store va word =>
    (storeWord machine.space.root va word machine.phys).map fun phys => { machine with phys }

/-- A request that maps nothing below the high-water mark and nothing over a mapped address: a grow
ends at or above the mark, and a page is allocated with the break at the mark. -/
def Disciplined (machine : Machine) : Request → Prop
  | .grow count => ∀ newBrk, brkGrow machine.space.heapBrk count.toNat kzero = some newBrk →
      machine.space.heapHwm ≤ newBrk ∧ newBrk ≤ machine.space.heapHwm + 2 ^ 48 ∧
      ∀ page, machine.space.heapHwm ≤ page → page < newBrk → page % pageSize4K = 0 →
        Vacant machine.space.root machine.phys.mem page
  | .allocPage => ∀ newBrk, brkGrow machine.space.heapBrk pageSize4K kzero = some newBrk →
      machine.space.heapBrk = machine.space.heapHwm ∧
      Vacant machine.space.root machine.phys.mem machine.space.heapHwm
  | .shrink _ => True
  | .store _ _ => True

/-- Every page of the heap up to the high-water mark was mapped by the heap exactly once, every
mapping it made is in force, and every returned pair is right. -/
structure MappedOnce (machine : Machine) : Prop where
  once : ∀ page, page % pageSize4K = 0 → machine.space.heapBase ≤ page →
    page < machine.space.heapHwm → (machine.log.map Prod.fst).count page = 1
  inForce : ∀ va pa, (va, pa) ∈ machine.log → machine.translate va = some pa
  pairs : ∀ va pa, (va, pa) ∈ machine.pairs → machine.translate va = some pa

/-- A request never lowers the high-water mark and never replaces the page behind a mapped address;
and unless it is the process's own store, it changes nothing the process has there. -/
def Keeps (kernel : PageNo) (machine : Machine) (request : Request) : Prop :=
  ∀ next, machine.step kernel request = some next → machine.space.heapHwm ≤ next.space.heapHwm ∧
    Persists machine.space.root machine.phys.mem next.phys.mem ∧
    ((∀ va word, request ≠ .store va word) → Kept machine.space.root machine.phys.mem next.phys.mem)

end Machine

/-! ## One page -/

section

variable {root : PageNo} {before middle after : Mem}

lemma Kept.persists (kept : Kept root before after) : Persists root before after :=
  fun va outside size entry found => (kept va outside size entry found).1

lemma Kept.refl (root : PageNo) (mem : Mem) : Kept root mem mem := fun _ _ _ _ found => ⟨found, rfl⟩

lemma Kept.trans (one : Kept root before middle) (two : Kept root middle after) :
    Kept root before after := by
  intro va outside size entry found
  obtain ⟨still, same⟩ := one va outside size entry found
  obtain ⟨yet, also⟩ := two va outside size entry still
  exact ⟨yet, also.trans same⟩

lemma walk_covers (mem : Mem) (root : PageNo) {va other : VirtAddr}
    (covered : Covers .page4K va other) : walk mem root other = walk mem root va := by
  have path : pathTo va 4 = pathTo other 4 := (covers_iff .page4K va other).mp covered
  have same : indices other = indices va := path.symm
  rw [walk, walk, same]

variable {page : Nat}

lemma not_covers {other : Nat} (aligned : page % pageSize4K = 0)
    (aligned' : other % pageSize4K = 0) (above : page < other) (near : other < page + 2 ^ 48) :
    ¬ Covers .page4K (ofNat 64 page) (ofNat 64 other) := by
  have size : PageSize.page4K.size = 4096 := rfl
  rw [pageSize4K] at aligned aligned'
  rw [Covers, size, BitVec.toNat_ofNat, BitVec.toNat_ofNat]
  omega

lemma kept_of_gives {owner owner' : PageNo → Owner} {roots spaces : List PageNo} {phys next : Phys}
    (owned : Owned owner roots spaces phys) (space : root ∈ spaces)
    (moved : Moved root owner phys owner' next)
    {attributes : Entry} {result : Except PageAllocError PageNo}
    (vacant : Vacant root phys.mem page)
    (gives : GivesPage root attributes (ofNat 64 page) result phys owner' next) :
    Kept root phys.mem next.mem := by
  intro va outside size entry found
  have belongs := owned.users root space va outside size entry found
  have still := moved.user belongs
  refine ⟨?_, moved.contents _ (by simp [still])⟩
  cases result with
  | error => rw [gives va outside, found]
  | ok =>
    obtain ⟨-, -, admitted, mapped⟩ := gives
    have uncovered : ¬ Covers .page4K (ofNat 64 page) va := by
      intro covered
      rw [walk_covers phys.mem root covered] at found
      rcases vacant with slot | none
      · exact admitted slot
      rw [none] at found
      cases found
    rw [mapped.outside va outside uncovered, found]

end

/-! ## The record of the mappings -/

/-- The log accounts for the heap's pages up to a mark. -/
structure Record (root : PageNo) (base mark : Nat) (log : List (Nat × PhysAddr)) (mem : Mem) :
    Prop where
  once : ∀ page, page % pageSize4K = 0 → base ≤ page → page < mark → (log.map Prod.fst).count page =
    1
  below : ∀ va pa, (va, pa) ∈ log → va < mark
  outside : ∀ va pa, (va, pa) ∈ log → vaIndex (ofNat 64 va) .level0 ≠ recursiveSlot
  inForce : ∀ va pa, (va, pa) ∈ log → translateIn root mem va = some pa

section

variable {root : PageNo} {base mark : Nat} {log : List (Nat × PhysAddr)} {mem after : Mem}
  {pa : PhysAddr}

lemma Persists.translate (persists : Persists root mem after) {va : Nat}
    (outside : vaIndex (ofNat 64 va) .level0 ≠ recursiveSlot)
    (found : translateIn root mem va = some pa) : translateIn root after va = some pa := by
  obtain ⟨⟨size, entry⟩, walked, same⟩ := map_eq_some_iff.mp found
  rw [translateIn, persists _ outside size entry walked, Option.map_some, same]

lemma Record.keep (record : Record root base mark log mem) (persists : Persists root mem after) :
    Record root base mark log after where
  once := record.once
  below := record.below
  outside := record.outside
  inForce va pa logged :=
    persists.translate (record.outside va pa logged) (record.inForce va pa logged)

lemma Record.extend (record : Record root base mark log mem) (persists : Persists root mem after)
    (aligned : mark % pageSize4K = 0) (outside : vaIndex (ofNat 64 mark) .level0 ≠ recursiveSlot)
    (mapped : translateIn root after mark = some pa) :
    Record root base (mark + pageSize4K) (log ++ [(mark, pa)]) after := by
  have members : ∀ va pa', (va, pa') ∈ log ++ [(mark, pa)] → (va, pa') ∈ log ∨ va = mark ∧
    pa' = pa := by
    intro _ _ member
    rcases List.mem_append.mp member with old | new
    · exact .inl old
    · exact .inr (Prod.mk.inj (List.mem_singleton.mp new))
  have grew := record.keep persists
  refine ⟨fun page aligned' above under => ?_, fun va pa' logged => ?_, fun va pa' logged => ?_,
    fun va pa' logged => ?_⟩
  · rw [List.map_append, List.count_append, List.map_singleton]
    by_cases new : page = mark
    · have absent : (log.map Prod.fst).count page = 0 := by
        rw [List.count_eq_zero]
        intro listed
        obtain ⟨⟨va, pa'⟩, member, rfl⟩ := List.mem_map.mp listed
        have small := record.below va pa' member
        omega
      rw [absent, new]
      simp
    have lower : page < mark := by
      rw [pageSize4K] at aligned aligned' under
      omega
    have other : ¬ mark = page := fun same => new same.symm
    rw [record.once page aligned' above lower]
    simp [other]
  · rcases members va pa' logged with old | ⟨rfl, -⟩
    · have small := record.below va pa' old
      omega
    · rw [pageSize4K]
      omega
  · rcases members va pa' logged with old | ⟨rfl, -⟩
    · exact record.outside va pa' old
    · exact outside
  · rcases members va pa' logged with old | ⟨rfl, rfl⟩
    · exact grew.inForce va pa' old
    · exact mapped

end

/-! ## The loop of `heap_grow` -/

def PageDone (inv fail : Nat → List (Nat × PhysAddr) → Phys → Prop) (page : Nat)
    (log : List (Nat × PhysAddr)) (after : Phys) : Except PageAllocError PhysAddr → Prop
  | .ok pa => inv (page + pageSize4K) (log ++ [(page, pa)]) after
  | .error _ => fail page log after

variable {count newBrk : Nat} {space : Space}

lemma growPages_rule {ttbr : Ttbr} {root : PageNo} {limit : Nat}
    (inv fail : Nat → List (Nat × PhysAddr) → Phys → Prop)
    (each : ∀ page log phys result after, page < limit → inv page log phys →
      Aspace.mapUserDataPagePa ttbr root (ofNat 64 page) phys = some (result, after) →
      PageDone inv fail page log after result) {page : Nat} {log : List (Nat × PhysAddr)}
    {phys after : Phys} {grant : Grant} (below : ∀ k < count, page + k * pageSize4K < limit)
    (start : inv page log phys)
    (returns : growPages ttbr root count page phys = some (grant, after)) :
    match grant.failed with
    | none => inv (page + count * pageSize4K) (log ++ grant.mapped) after
    | some stop => fail stop (log ++ grant.mapped) after := by
  induction count generalizing page log phys grant with
  | zero =>
    obtain ⟨rfl, rfl⟩ := Prod.mk.inj (Option.some.inj returns)
    rw [List.append_nil, Nat.zero_mul, Nat.add_zero]
    exact start
  | succ count ih =>
    have first := below 0 (Nat.succ_pos count)
    rw [growPages] at returns
    split at returns
    · cases returns
    · rename_i err middle called
      obtain ⟨rfl, rfl⟩ := Prod.mk.inj (Option.some.inj returns)
      rw [List.append_nil]
      exact each page log phys (.error err) middle first start called
    rename_i pa middle called
    have holds := each page log phys (.ok pa) middle first start called
    have later : ∀ k < count, page + pageSize4K + k * pageSize4K < limit := by
      intro k small
      have shifted := below (k + 1) (by omega)
      rw [Nat.add_mul, Nat.one_mul] at shifted
      omega
    obtain ⟨⟨_, _⟩, loop, same⟩ := map_eq_some_iff.mp returns
    obtain ⟨rfl, rfl⟩ := Prod.mk.inj same
    have ends := ih later holds loop
    rw [List.append_assoc, List.singleton_append] at ends
    rw [Nat.add_mul, Nat.one_mul, Nat.add_comm (count * pageSize4K), ← Nat.add_assoc]
    exact ends

lemma pagesUpTo_below {page k : Nat} (small : k < pagesUpTo page newBrk) :
    page + k * pageSize4K < newBrk := by
  rw [pagesUpTo, pageSize4K] at small
  rw [pageSize4K]
  omega

lemma pagesUpTo_end {page : Nat} (aligned : page % pageSize4K = 0)
    (aligned' : newBrk % pageSize4K = 0) (ahead : page ≤ newBrk) :
    page + pagesUpTo page newBrk * pageSize4K = newBrk := by
  rw [pagesUpTo, pageSize4K] at *
  omega

lemma brkGrow_some {brk bound : Nat} (grown : brkGrow brk count bound = some newBrk) :
    newBrk = brk + (count + pageSize4K - 1) / pageSize4K * pageSize4K ∧ newBrk ≤ bound := by
  rw [brkGrow] at grown
  obtain ⟨add, product, rest⟩ := Option.bind_eq_some_iff.mp grown
  obtain ⟨sum, total, last⟩ := Option.bind_eq_some_iff.mp rest
  obtain ⟨rfl, -⟩ := checkedMul_some product
  obtain ⟨rfl, -⟩ := checkedAdd_some total
  split at last
  · rename_i within
    cases last
    exact ⟨rfl, within⟩
  · cases last

def grantOutcome (space : Space) (newBrk : Nat) (grant : Grant) (phys : Phys) : HeapOutcome Nat :=
  match grant.failed with
  | some page => ⟨none, grant.mapped, { space with heapHwm := page }, phys⟩
  | none => ⟨some space.heapBrk, grant.mapped, { space with heapBrk := newBrk, heapHwm := newBrk },
      phys⟩

lemma heapGrow_granted
    (grown : brkGrow space.heapBrk count kzero = some newBrk) (kernel : PageNo) (phys : Phys) :
    heapGrow kernel space count phys =
      (growPages ⟨space.root, kernel⟩ space.root (pagesUpTo space.heapHwm newBrk) space.heapHwm
        phys).map fun granted => grantOutcome space newBrk granted.1 granted.2 := by
  rw [heapGrow, grown]
  dsimp only
  rcases growPages ⟨space.root, kernel⟩ space.root (pagesUpTo space.heapHwm newBrk) space.heapHwm
    phys with _ | ⟨⟨_ | page, mapped⟩, after⟩ <;> rfl

lemma heapGrow_declined (declined : brkGrow space.heapBrk count kzero = none)
    (kernel : PageNo) (phys : Phys) :
    heapGrow kernel space count phys = some ⟨none, [], space, phys⟩ := by
  rw [heapGrow, declined]

def pageOutcome (space : Space) (newBrk : Nat) (result : Except PageAllocError PhysAddr)
    (phys : Phys) : HeapOutcome (Nat × PhysAddr) :=
  match result with
  | .error _ => ⟨none, [], space, phys⟩
  | .ok pa => ⟨some (space.heapBrk, pa), [(space.heapHwm, pa)],
      { space with heapBrk := newBrk, heapHwm := newBrk }, phys⟩

lemma heapAllocPage_granted
    (grown : brkGrow space.heapBrk pageSize4K kzero = some newBrk) (kernel : PageNo) (phys : Phys) :
    heapAllocPage kernel space phys =
      (Aspace.mapUserDataPagePa ⟨space.root, kernel⟩ space.root (ofNat 64 space.heapHwm)
        phys).map fun mapped => pageOutcome space newBrk mapped.1 mapped.2 := by
  simp only [heapAllocPage, grown]
  rcases Aspace.mapUserDataPagePa ⟨space.root, kernel⟩ space.root (ofNat 64 space.heapHwm)
    phys with _ | ⟨_ | pa, after⟩ <;> rfl

lemma heapAllocPage_declined
    (declined : brkGrow space.heapBrk pageSize4K kzero = none) (kernel : PageNo) (phys : Phys) :
    heapAllocPage kernel space phys = some ⟨none, [], space, phys⟩ := by
  simp only [heapAllocPage, declined]

/-! ## Requests -/

section

variable {kernel root : PageNo} {owner : PageNo → Owner} {phys : Phys}

lemma Vacant.keep {mem after : Mem} {attributes : Entry} {page other : Nat}
    (vacant : Vacant root mem other)
    (mapped : Mapped root attributes (ofNat 64 page) .page4K mem after)
    (uncovered : ¬ Covers .page4K (ofNat 64 page) (ofNat 64 other)) :
    Vacant root after other := by
  by_cases slot : vaIndex (ofNat 64 other) .level0 = recursiveSlot
  · exact .inl slot
  rcases vacant with refused | unmapped
  · exact absurd refused slot
  right
  rw [mapped.outside _ slot uncovered, unmapped]

variable {result : Except PageAllocError PhysAddr} {after : Phys}

lemma mapDataPage (owned : Owned owner [root] [root] phys) {page : Nat}
    (vacant : Vacant root phys.mem page)
    (returns : Aspace.mapUserDataPagePa ⟨root, kernel⟩ root (ofNat 64 page) phys =
      some (result, after)) :
    (∃ owner', Owned owner' [root] [root] after) ∧ Kept root phys.mem after.mem ∧
      ∀ pa, result = .ok pa → vaIndex (ofNat 64 page) .level0 ≠ recursiveSlot ∧
        translateIn root after.mem page = some pa ∧
        ∀ other, ¬ Covers .page4K (ofNat 64 page) (ofNat 64 other) →
          Vacant root phys.mem other → Vacant root after.mem other := by
  have member : root ∈ [root] := List.mem_singleton_self root
  have alive : Live owner [root] (Ttbr.user ⟨root, kernel⟩) := .inl member
  rw [mapUserDataPagePa_eq] at returns
  obtain ⟨⟨taken, _⟩, takes, same⟩ := map_eq_some_iff.mp returns
  cases same
  obtain ⟨owner', took⟩ := owned.takePage member alive plain_rwUserData takes
  have kept := kept_of_gives owned member took.moved vacant took.gives
  refine ⟨⟨owner', took.owned⟩, kept, fun pa same => ?_⟩
  cases taken with
  | error => cases same
  | ok new =>
    obtain ⟨-, -, outside, mapped⟩ := took.gives
    have inside := mapped.inside (ofNat 64 page) rfl
    refine ⟨outside, ?_, fun other uncovered unmapped => unmapped.keep mapped uncovered⟩
    rw [translateIn, inside, ← Except.ok.inj same]
    exact congrArg (fun page => some (pageAddr page)) (addr_descriptor .rwUserData new)

/-- The loop of `heap_grow` has come to a page, having started with a mark and a memory. -/
structure Growing (root : PageNo) (base mark : Nat) (start : Mem) (page : Nat)
    (log : List (Nat × PhysAddr)) (phys : Phys) : Prop where
  owned : ∃ owner, Owned owner [root] [root] phys
  kept : Kept root start phys.mem
  record : Record root base page log phys.mem
  above : mark ≤ page
  aligned : page % pageSize4K = 0

def GrowsOn (root : PageNo) (base mark newBrk : Nat) (start : Mem) (page : Nat)
    (log : List (Nat × PhysAddr)) (phys : Phys) : Prop :=
  Growing root base mark start page log phys ∧
    ∀ later, page ≤ later → later < newBrk → later % pageSize4K = 0 → Vacant root phys.mem later

def GrewTo (root : PageNo) (base mark newBrk : Nat) (start : Mem) (page : Nat)
    (log : List (Nat × PhysAddr)) (phys : Phys) : Prop :=
  Growing root base mark start page log phys ∧ page ≤ newBrk

variable {log : List (Nat × PhysAddr)}

lemma GrowsOn.each {base mark page : Nat} {start : Mem} (near : newBrk ≤ mark + 2 ^ 48)
    (below : page < newBrk) (grows : GrowsOn root base mark newBrk start page log phys)
    (returns : Aspace.mapUserDataPagePa ⟨root, kernel⟩ root (ofNat 64 page) phys =
      some (result, after)) :
    PageDone (GrowsOn root base mark newBrk start) (GrewTo root base mark newBrk start) page log
      after result := by
  obtain ⟨growing, vacant⟩ := grows
  obtain ⟨owner, owned⟩ := growing.owned
  have aligned := growing.aligned
  have above := growing.above
  obtain ⟨owned', kept, maps⟩ :=
    mapDataPage owned (vacant page (Nat.le_refl page) below aligned) returns
  have all := growing.kept.trans kept
  cases result with
  | error =>
    exact ⟨⟨owned', all, growing.record.keep kept.persists, above, aligned⟩, by omega⟩
  | ok pa =>
    obtain ⟨outside, mapped, others⟩ := maps pa rfl
    have next : (page + pageSize4K) % pageSize4K = 0 := (Nat.add_mod_right ..).trans aligned
    refine ⟨⟨owned', all, growing.record.extend kept.persists aligned outside mapped,
      by omega, next⟩, fun later higher lower aligned' => ?_⟩
    rw [pageSize4K] at higher
    exact others later (not_covers aligned aligned' (by omega) (by omega))
      (vacant later (by omega) lower aligned')

lemma growPages_record (owned : Owned owner [root] [root] phys) {base mark : Nat}
    (record : Record root base mark log phys.mem)
    (aligned : mark % pageSize4K = 0) (aligned' : newBrk % pageSize4K = 0) (ahead : mark ≤ newBrk)
    (near : newBrk ≤ mark + 2 ^ 48) (vacant : ∀ page, mark ≤ page → page < newBrk →
      page % pageSize4K = 0 →
      Vacant root phys.mem page) {grant : Grant}
    (returns : growPages ⟨root, kernel⟩ root (pagesUpTo mark newBrk) mark phys =
      some (grant, after)) :
    GrewTo root base mark newBrk phys.mem (grant.failed.getD newBrk)
      (log ++ grant.mapped) after := by
  have start : GrowsOn root base mark newBrk phys.mem mark log phys :=
    ⟨⟨⟨owner, owned⟩, .refl root phys.mem, record, Nat.le_refl mark, aligned⟩, vacant⟩
  have ends := growPages_rule (GrowsOn root base mark newBrk phys.mem)
    (GrewTo root base mark newBrk phys.mem)
    (fun _ _ _ _ _ below grows called => grows.each near below called)
    (fun _ small => pagesUpTo_below small) start returns
  cases failed : grant.failed with
  | none =>
    rw [failed] at ends
    simp only [pagesUpTo_end aligned aligned' ahead] at ends
    exact ⟨ends.1, Nat.le_refl newBrk⟩
  | some =>
    rw [failed] at ends
    exact ends

end

/-! ## Runs -/

namespace Machine

variable {kernel : PageNo} {machine next : Machine}

/-- The heap, the memory and the record fit together. -/
structure Good (machine : Machine) : Prop where
  owned : ∃ owner, Owned owner [machine.space.root] [machine.space.root] machine.phys
  base : machine.space.heapBase % pageSize4K = 0
  brk : machine.space.heapBrk % pageSize4K = 0
  hwm : machine.space.heapHwm % pageSize4K = 0
  order : machine.space.heapBrk ≤ machine.space.heapHwm
  record : Record machine.space.root machine.space.heapBase machine.space.heapHwm machine.log
    machine.phys.mem
  logged : ∀ pair ∈ machine.pairs, pair ∈ machine.log

lemma Good.sound (good : Good machine) : MappedOnce machine where
  once := good.record.once
  inForce := good.record.inForce
  pairs va pa returned := good.record.inForce va pa (good.logged (va, pa) returned)

/-- What a request that meets the discipline does. -/
structure Advances (kernel : PageNo) (machine : Machine) (request : Request) (next : Machine) :
    Prop where
  good : Good next
  hwm : machine.space.heapHwm ≤ next.space.heapHwm
  persists : Persists machine.space.root machine.phys.mem next.phys.mem
  kept : (∀ va word, request ≠ .store va word) → Kept machine.space.root machine.phys.mem
    next.phys.mem

section

variable (good : Good machine)
include good

lemma Good.still (request : Request) : Advances kernel machine request machine :=
  have same := Kept.refl machine.space.root machine.phys.mem
  ⟨good, Nat.le_refl _, same.persists, fun _ => same⟩

lemma Good.grow (count : BitVec 64) (disciplined : Disciplined machine (.grow count))
    (taken : machine.step kernel (.grow count) = some next) :
    Advances kernel machine (.grow count) next := by
  obtain ⟨_, owned⟩ := good.owned
  obtain ⟨_, returns, rfl⟩ := map_eq_some_iff.mp taken
  cases grown : brkGrow machine.space.heapBrk count.toNat kzero with
  | none =>
    rw [heapGrow_declined grown] at returns
    cases returns
    simpa using good.still _
  | some newBrk =>
    obtain ⟨ahead, near, vacant⟩ := disciplined newBrk grown
    obtain ⟨size, -⟩ := brkGrow_some grown
    have aligned : newBrk % pageSize4K = 0 := size ▸ (Nat.add_mul_mod_self_right ..).trans good.brk
    rw [heapGrow_granted grown] at returns
    obtain ⟨⟨⟨failed, mapped⟩, _⟩, loop, rfl⟩ := map_eq_some_iff.mp returns
    obtain ⟨grew, -⟩ := growPages_record owned good.record good.hwm aligned ahead near vacant loop
    have logged : ∀ pair ∈ machine.pairs, pair ∈ machine.log ++ mapped :=
      fun pair returned => List.mem_append_left mapped (good.logged pair returned)
    cases failed with
    | none =>
      exact ⟨⟨grew.owned, good.base, aligned, aligned, Nat.le_refl newBrk, grew.record, logged⟩,
        ahead, grew.kept.persists, fun _ => grew.kept⟩
    | some stop =>
      have above : machine.space.heapHwm ≤ stop := grew.above
      have order := good.order
      exact ⟨⟨grew.owned, good.base, good.brk, grew.aligned, Nat.le_trans order above, grew.record,
        logged⟩, above, grew.kept.persists, fun _ => grew.kept⟩

lemma Good.allocPage (disciplined : Disciplined machine .allocPage)
    (taken : machine.step kernel .allocPage = some next) :
    Advances kernel machine .allocPage next := by
  obtain ⟨owner, owned⟩ := good.owned
  obtain ⟨outcome, returns, rfl⟩ := map_eq_some_iff.mp taken
  cases grown : brkGrow machine.space.heapBrk pageSize4K kzero with
  | none =>
    rw [heapAllocPage_declined grown] at returns
    cases returns
    simpa using good.still _
  | some newBrk =>
    obtain ⟨level, vacant⟩ := disciplined newBrk grown
    have next' : newBrk = machine.space.heapHwm + pageSize4K := by
      have size := (brkGrow_some grown).1
      rw [pageSize4K] at size ⊢
      omega
    rw [heapAllocPage_granted grown] at returns
    obtain ⟨⟨result, after⟩, called, rfl⟩ := map_eq_some_iff.mp returns
    obtain ⟨owned', kept, maps⟩ := mapDataPage owned vacant called
    cases result with
    | error =>
      refine ⟨⟨owned', good.base, good.brk, good.hwm, good.order, ?_, ?_⟩, Nat.le_refl _,
        kept.persists, fun _ => kept⟩
      · simpa [pageOutcome] using good.record.keep kept.persists
      · simpa [pageOutcome] using good.logged
    | ok pa =>
      obtain ⟨outside, mapped, -⟩ := maps pa rfl
      have aligned : newBrk % pageSize4K = 0 := next' ▸ (Nat.add_mod_right ..).trans good.hwm
      have record := good.record.extend kept.persists good.hwm outside mapped
      rw [← next'] at record
      refine ⟨⟨owned', good.base, aligned, aligned, Nat.le_refl newBrk, record,
        fun pair returned => ?_⟩, ?_, kept.persists, fun _ => kept⟩
      · rcases List.mem_append.mp returned with old | new
        · exact List.mem_append_left _ (good.logged pair old)
        · rw [List.mem_singleton.mp new, level]
          exact List.mem_append_right _ (List.mem_singleton_self _)
      · change machine.space.heapHwm ≤ newBrk
        omega

lemma Good.shrink (va : BitVec 64) (taken : machine.step kernel (.shrink va) = some next) :
    Advances kernel machine (.shrink va) next := by
  have same := Kept.refl machine.space.root machine.phys.mem
  cases taken
  rw [heapShrink, brkShrink]
  by_cases inside : va.toNat % pageSize4K = 0 ∧ machine.space.heapBase ≤ va.toNat ∧
      va.toNat ≤ machine.space.heapBrk
  · rw [if_pos inside]
    have order := good.order
    have lower := inside.2.2
    exact ⟨⟨good.owned, good.base, inside.1, good.hwm, Nat.le_trans lower order, good.record,
      good.logged⟩, Nat.le_refl _, same.persists, fun _ => same⟩
  rw [if_neg inside]
  exact good.still _

lemma Good.store (va : VirtAddr) (word : Entry) (taken : machine.step kernel (.store va word) =
    some next) :
    Advances kernel machine (.store va word) next := by
  obtain ⟨owner, owned⟩ := good.owned
  have member : machine.space.root ∈ [machine.space.root] := List.mem_singleton_self _
  obtain ⟨after, stores, rfl⟩ := map_eq_some_iff.mp taken
  obtain ⟨owned', same⟩ := owned.storeWord member stores
  have persists : Persists machine.space.root machine.phys.mem after.mem :=
    fun other apart size entry found => (same _ member other apart).trans found
  exact ⟨⟨⟨owner, owned'⟩, good.base, good.brk, good.hwm, good.order, good.record.keep persists,
    good.logged⟩, Nat.le_refl _, persists, fun other => absurd rfl (other va word)⟩

lemma Good.advances (request : Request) (disciplined : Disciplined machine request)
    (taken : machine.step kernel request = some next) : Advances kernel machine request next := by
  cases request with
  | grow count => exact good.grow count disciplined taken
  | allocPage => exact good.allocPage disciplined taken
  | shrink va => exact good.shrink va taken
  | store va word => exact good.store va word taken

end

/-- A process whose heap has not been used: the heap fields are as `try_install` sets them, and the
pages are accounted for. -/
structure Fresh (machine : Machine) : Prop where
  owned : ∃ owner, Owned owner [machine.space.root] [machine.space.root] machine.phys
  base : machine.space.heapBase % pageSize4K = 0
  brk : machine.space.heapBrk = machine.space.heapBase
  hwm : machine.space.heapHwm = machine.space.heapBase
  log : machine.log = []
  pairs : machine.pairs = []

lemma Fresh.good (fresh : Fresh machine) : Good machine where
  owned := fresh.owned
  base := fresh.base
  brk := fresh.brk ▸ fresh.base
  hwm := fresh.hwm ▸ fresh.base
  order := by rw [fresh.brk, fresh.hwm]
  record := by
    rw [fresh.hwm, fresh.log]
    exact ⟨fun page _ above below => absurd below (Nat.not_lt.mpr above), nofun, nofun, nofun⟩
  logged := by
    rw [fresh.pairs]
    exact nofun

/-- In every run of a process whose requests map nothing below the high-water mark and nothing over
a mapped address: every page of the heap was mapped once and is mapped, every returned pair is
right, and no request lowers the mark, replaces a mapping or changes what the process has stored. -/
theorem heap_maps_once (kernel : PageNo) (machine : Machine) (fresh : Fresh machine)
    (requests : List Request)
    (disciplined : Along (step kernel) Disciplined machine requests) :
    Throughout (step kernel) MappedOnce machine requests ∧
      Along (step kernel) (Keeps kernel) machine requests := by
  have keeps : ∀ machine request next, Good machine → Disciplined machine request →
      machine.step kernel request = some next → Good next :=
    fun _ request _ good met taken => (good.advances request met taken).good
  refine ⟨throughout_of_along keeps (fun _ good => good.sound) fresh.good disciplined,
    along_of_along keeps (fun machine request _ good met _ => ?_) fresh.good disciplined⟩
  intro _ taken
  have advances := good.advances request met taken
  exact ⟨advances.hwm, advances.persists, advances.kept⟩

/-! ## A process with nothing mapped -/

def freePages : List (Except PageAllocError PageNo) :=
    (List.range' 1 20).map fun page => .ok (ofNat 36 page)

def emptyProcess : Machine where
  space :=
  ⟨0, 0x200000, 0x200000, 0x200000⟩
  phys := initEmptyRootPageTable 0 (Phys.clear ⟨fun _ _ => 0, freePages⟩ 0)
  log := []
  pairs := []

lemma emptyProcess_fresh : Fresh emptyProcess := by
  have listed : pages freePages = (List.range' 1 20).map (ofNat 36) := by decide
  have distinct : (pages freePages).Nodup := by
    decide
  have above : (0 : PageNo) ∉ pages freePages := by
    decide
  have start : Owned (fun page => if page = 0 then .held else .free) [] []
    ⟨fun _ _ => 0, freePages⟩ := by
    refine ⟨nofun, nofun, nofun, nofun, nofun, fun page later => if_neg ?_, distinct⟩
    rintro rfl
    exact above later
  exact ⟨⟨_, start.addRoot rfl⟩, rfl, rfl, rfl, rfl, rfl⟩

/-- A process that grows its heap by a page, writes to it and gives it back keeps what it has. -/
theorem heap_maps_once_one_page : Throughout (step 100) MappedOnce emptyProcess
        [.grow 0x1000, .store 0x200000 7, .shrink 0x200000] ∧
      Along (step 100) (Keeps 100) emptyProcess
        [.grow 0x1000, .store 0x200000 7, .shrink 0x200000] := by
  have grown : brkGrow 0x200000 0x1000 kzero = some 0x201000 := by decide +kernel
  have vacant : Vacant 0 emptyProcess.phys.mem 0x200000 := .inr (by decide +kernel)
  refine heap_maps_once 100 emptyProcess emptyProcess_fresh _ fun _ _ => ⟨?_, fun _ _ =>
    ⟨trivial, fun _ _ => ⟨trivial, trivial⟩⟩⟩
  intro newBrk granted
  obtain rfl := Option.some.inj (grown.symm.trans granted)
  refine ⟨by decide, by decide, fun page above below aligned => ?_⟩
  have first : page = 0x200000 := by
    have low : 0x200000 ≤ page := above
    rw [pageSize4K] at aligned
    omega
  rw [first]
  exact vacant

def reuse : List Request := [.grow 0x4000, .shrink 0x201000, .allocPage]

/-- After a shrink, `heap_alloc_page` maps a page at the high-water mark but returns the break,
which translates to an older page, and it lowers the mark over pages that stay mapped. -/
theorem allocPage_after_shrink :
    Fresh emptyProcess ∧ ¬ Throughout (step 100) MappedOnce emptyProcess reuse ∧
      (run (step 100) emptyProcess (reuse.take 1)).map (fun machine => machine.space.heapHwm) =
        some 0x204000 ∧
      (run (step 100) emptyProcess reuse).map (fun machine => machine.space.heapHwm) =
      some 0x202000 := by
  have final : (run (step 100) emptyProcess reuse).map
      (fun machine => (machine.pairs, machine.translate 0x201000)) =
        some ([(0x201000, 0x8000)], some 0x5000) := by decide +kernel
  refine ⟨emptyProcess_fresh, fun sound => ?_, by decide +kernel, by decide +kernel⟩
  obtain ⟨machine, runs, record⟩ := map_eq_some_iff.mp final
  obtain ⟨pairs, translated⟩ := Prod.mk.inj record
  have returned : (0x201000, 0x8000) ∈ machine.pairs := by
    rw [pairs]
    exact List.mem_singleton_self _
  have right := (sound.reached runs).pairs 0x201000 0x8000 returned
  rw [translated] at right
  exact absurd right (by decide)

end Machine

end R9x.Verif.HeapRuns
