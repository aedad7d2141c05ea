import R9x.Aarch64.UserAccess
import R9x.Verif.MapCalls

/-!
# Owners of pages

Every page of physical memory has one owner: it is free, held by a call in progress, a table of one
root, mapped by one address space, or something else.
-/

namespace R9x.Verif.Ownership

open Lib Aarch64 Aarch64.Vm PageTree
open Function (update update_of_ne update_self)
open PageSize (page4K)

/-- What a page is used for. -/
inductive Owner where
  | free
  | held
  | table (root : PageNo)
  | user (root : PageNo)
  | other
  deriving DecidableEq

/-- An assignment of owners accounts for the trees under some roots, for the pages mapped under
those that are address spaces, and for the allocator's pages. -/
structure Owned (owner : PageNo → Owner) (roots spaces : List PageNo) (phys : Phys) : Prop where
  subset : ∀ root ∈ spaces, root ∈ roots
  trees : ∀ root ∈ roots, Tree phys.mem root
  paged : ∀ root ∈ spaces, Paged phys.mem root
  tables : ∀ root ∈ roots, ∀ page, InTree phys.mem root page → owner page = .table root
  users : ∀ root ∈ spaces, ∀ va, vaIndex va .level0 ≠ recursiveSlot → ∀ size entry,
    walk phys.mem root va = some (size, entry) → owner (frame size entry va) = .user root
  free : ∀ page ∈ pages phys.supply, owner page = .free
  distinct : (pages phys.supply).Nodup

def Live (owner : PageNo → Owner) (roots : List PageNo) (live : PageNo) : Prop :=
  live ∈ roots ∨ owner live = .other

/-- What a call on a root does to the owners: the pages it takes become tables of the root, and a
held page may become a page of the root's address space. -/
structure Claims (owner : PageNo → Owner) (root : PageNo)
    (taken : List (Except PageAllocError PageNo)) (owner' : PageNo → Owner) : Prop where
  tables : ∀ page ∈ pages taken, owner' page = .table root
  kept : ∀ page, page ∉ pages taken → owner' page = owner page ∨ owner page = .held ∧
    owner' page = .user root

section

variable {owner owner' : PageNo → Owner} {roots spaces : List PageNo} {phys after : Phys}
  {root live page : PageNo} {taken : List (Except PageAllocError PageNo)}

section

variable (owned : Owned owner roots spaces phys)
include owned

lemma Owned.live_not_free (alive : Live owner roots live) : owner live ≠ .free := by
  intro free
  rcases alive with member | other
  · rw [owned.tables live member live (inTree_root phys.mem live)] at free
    cases free
  rw [other] at free
  cases free

lemma Owned.callable (member : root ∈ roots) (alive : Live owner roots live) :
    Callable phys root live where
  tree := owned.trees root member
  stranger := by
    by_cases inside : InTree phys.mem root live
    · have belongs := owned.tables root member live inside
      rcases alive with listed | other
      · rw [owned.tables live listed live (inTree_root phys.mem live)] at belongs
        exact .inl (Owner.table.inj belongs)
      rw [other] at belongs
      cases belongs
    · exact .inr inside
  supplied := by
    refine ⟨owned.distinct, fun page later inside => ?_, fun later => ?_⟩
    · have belongs := owned.tables root member page inside
      rw [owned.free page later] at belongs
      cases belongs
    · exact owned.live_not_free alive (owned.free live later)

lemma Owned.free_of_taken (touched : Touched root phys after taken)
    (new : page ∈ pages taken) : owner page = .free := by
  apply owned.free page
  rw [touched.supply, pages_append]
  exact List.mem_append_left _ new

lemma Owned.contents (member : root ∈ roots) (touched : Touched root phys after taken)
    (foreign : owner page ≠ .table root) (used : owner page ≠ .free) :
    after.mem page = phys.mem page := by
  apply touched.frame page
  · intro inside
    exact foreign (owned.tables root member page inside)
  · intro new
    exact used (owned.free_of_taken touched new)

lemma Owned.agrees (member : root ∈ roots) (touched : Touched root phys after taken)
    {other : PageNo} (listed : other ∈ roots) (different : other ≠ root) :
    Agrees other phys.mem after.mem := by
  intro page inside
  have belongs := owned.tables other listed page inside
  apply owned.contents member touched
  · rw [belongs]
    intro same
    exact different (Owner.table.inj same)
  · rw [belongs]
    exact nofun

end

lemma Claims.stays (claims : Claims owner root taken owner') (owned : Owned owner roots spaces phys)
    (touched : Touched root phys after taken) {who : Owner} (belongs : owner page = who)
    (used : who ≠ .free) (settled : who ≠ .held) : owner' page = who := by
  subst belongs
  have untaken : page ∉ pages taken := fun new => used (owned.free_of_taken touched new)
  rcases claims.kept page untaken with same | ⟨loose, -⟩
  · exact same
  · exact absurd loose settled

/-- A change of one tree keeps the account, if every new mapping of an address space is of a page
that the change gave to it. -/
lemma Owned.touched (owned : Owned owner roots spaces phys) (member : root ∈ roots)
    (touched : Touched root phys after taken) (claims : Claims owner root taken owner')
    (paged : root ∈ spaces → Paged after.mem root)
    (maps : root ∈ spaces → ∀ va, vaIndex va .level0 ≠ recursiveSlot → ∀ size entry,
      walk after.mem root va = some (size, entry) →
        walk phys.mem root va = some (size, entry) ∨ owner' (frame size entry va) = .user root) :
    Owned owner' roots spaces after where
  subset := owned.subset
  trees other listed := by
    by_cases same : other = root
    · rw [same]
      exact touched.tree
    · exact (owned.agrees member touched listed same).tree (owned.trees other listed)
  paged other space := by
    by_cases same : other = root
    · rw [same]
      exact paged (same ▸ space)
    · exact (owned.agrees member touched (owned.subset other space) same).paged
        (owned.paged other space)
  tables other listed page inside := by
    by_cases same : other = root
    · subst same
      rcases touched.tables page inside with old | new
      · have belongs := owned.tables other listed page old
        exact claims.stays owned touched belongs nofun nofun
      · exact claims.tables page new
    have old := ((owned.agrees member touched listed same).inTree page).mp inside
    have belongs := owned.tables other listed page old
    exact claims.stays owned touched belongs nofun nofun
  users other space va outside size entry found := by
    have before : walk phys.mem other va = some (size, entry) →
        owner' (frame size entry va) = .user other := by
      intro old
      have belongs := owned.users other space va outside size entry old
      exact claims.stays owned touched belongs nofun nofun
    by_cases same : other = root
    · subst same
      rcases maps space va outside size entry found with old | new
      · exact before old
      · exact new
    have agrees := owned.agrees member touched (owned.subset other space) same
    rw [agrees.walks (owned.trees other (owned.subset other space)) va outside] at found
    exact before found
  free page later := by
    have listed : page ∈ pages phys.supply := by
      rw [touched.supply, pages_append]
      exact List.mem_append_right _ later
    have untaken : page ∉ pages taken := by
      have distinct := owned.distinct
      rw [touched.supply, pages_append, List.nodup_append] at distinct
      intro new
      exact distinct.2.2 page new page later rfl
    have free := owned.free page listed
    rcases claims.kept page untaken with same | ⟨loose, -⟩
    · rw [same, free]
    rw [free] at loose
    cases loose
  distinct := by
    have distinct := owned.distinct
    rw [touched.supply, pages_append, List.nodup_append] at distinct
    exact distinct.2.1

lemma Owned.restrict {fewer few : List PageNo} (owned : Owned owner roots spaces phys)
    (less : ∀ root ∈ fewer, root ∈ roots) (less' : ∀ root ∈ few, root ∈ spaces)
    (subset : ∀ root ∈ few, root ∈ fewer) : Owned owner fewer few phys where
  subset := subset
  trees root member := owned.trees root (less root member)
  paged root space := owned.paged root (less' root space)
  tables root member := owned.tables root (less root member)
  users root space := owned.users root (less' root space)
  free := owned.free
  distinct := owned.distinct

def claim (owner : PageNo → Owner) (root : PageNo) (taken : List (Except PageAllocError PageNo)) :
    PageNo → Owner := fun page => if page ∈ pages taken then .table root else owner page

lemma claims_claim (owner : PageNo → Owner) (root : PageNo)
    (taken : List (Except PageAllocError PageNo)) :
    Claims owner root taken (claim owner root taken) :=
  ⟨fun _ new => if_pos new, fun _ untaken => .inl (if_neg untaken)⟩

lemma claims_give (owned : Owned owner roots spaces phys) (touched : Touched root phys after taken)
    (held : owner page = .held) :
    Claims owner root taken (update (claim owner root taken) page (.user root)) := by
  have untaken : page ∉ pages taken := fun new => by
    have free := owned.free_of_taken touched new
    rw [held] at free
    cases free
  refine ⟨fun other new => ?_, fun other old => ?_⟩
  · have different : other ≠ page := fun same => untaken (same ▸ new)
    rw [update_of_ne different]
    exact (claims_claim owner root taken).tables other new
  · by_cases same : other = page
    · subst same
      rw [update_self]
      exact .inr ⟨held, rfl⟩
    · rw [update_of_ne same]
      exact (claims_claim owner root taken).kept other old

variable {supply : List (Except PageAllocError PageNo)}

section

variable (owned : Owned owner roots spaces phys)
include owned

lemma Owned.alloc (answers : phys.supply = .ok page :: supply) : owner page = .free ∧
      Owned (update owner page .held) roots spaces { phys with supply } := by
  have all : pages phys.supply = page :: pages supply := by
    rw [answers]
    rfl
  have distinct := owned.distinct
  rw [all, List.nodup_cons] at distinct
  have free : owner page = .free := by
    apply owned.free page
    rw [all]
    exact List.mem_cons_self
  have others : ∀ other, owner other ≠ .free → update owner page .held other = owner other := by
    intro _ used
    apply update_of_ne
    rintro rfl
    exact used free
  refine ⟨free, owned.subset, owned.trees, owned.paged, fun root member other inside => ?_,
    fun root space va outside size entry found => ?_, fun other later => ?_, distinct.2⟩
  · have belongs := owned.tables root member other inside
    rw [others other (by simp [belongs]), belongs]
  · have belongs := owned.users root space va outside size entry found
    rw [others _ (by simp [belongs]), belongs]
  · have different : other ≠ page := fun same => distinct.1 (same ▸ later)
    rw [update_of_ne different]
    apply owned.free other
    rw [all]
    exact List.mem_cons_of_mem page later

lemma Owned.refused {err : PageAllocError} (answers : phys.supply = .error err :: supply) :
    Owned owner roots spaces { phys with supply } := by
  have all : pages phys.supply = pages supply := by
    rw [answers]
    rfl
  exact ⟨owned.subset, owned.trees, owned.paged, owned.tables, owned.users,
    fun page later => owned.free page (all ▸ later), all ▸ owned.distinct⟩

lemma Owned.agreeing {after : Phys} (agrees : ∀ root ∈ roots, Agrees root phys.mem after.mem)
    (supply : after.supply = phys.supply) : Owned owner roots spaces after := by
  refine ⟨owned.subset, fun root member => (agrees root member).tree (owned.trees root member),
    fun root space => (agrees root (owned.subset root space)).paged (owned.paged root space),
    fun root member other inside => ?_, fun root space va outside size entry found => ?_,
    supply ▸ owned.free, supply ▸ owned.distinct⟩
  · exact owned.tables root member other (((agrees root member).inTree other).mp inside)
  · have member := owned.subset root space
    have same := (agrees root member).walks (owned.trees root member) va outside
    exact owned.users root space va outside size entry (same ▸ found)

/-- Pages taken for a root outside the account, with every tree of the account left alone. -/
lemma Owned.foreign {after : Phys} {taken : List (Except PageAllocError PageNo)} (kernel : PageNo)
    (supplies : phys.supply = taken ++ after.supply)
    (agrees : ∀ root ∈ roots, Agrees root phys.mem after.mem) :
    Owned (claim owner kernel taken) roots spaces after := by
  have distinct := owned.distinct
  rw [supplies, pages_append, List.nodup_append] at distinct
  have listed : ∀ page, page ∈ pages taken ∨ page ∈ pages after.supply → owner page = .free := by
    intro page either
    apply owned.free page
    rw [supplies, pages_append, List.mem_append]
    exact either
  have others : ∀ page, owner page ≠ .free → claim owner kernel taken page = owner page :=
    fun page used => if_neg fun new => used (listed page (.inl new))
  have account : Owned owner roots spaces { after with supply := phys.supply } :=
    owned.agreeing agrees rfl
  refine ⟨account.subset, account.trees, account.paged, fun root member page inside => ?_,
    fun root space va outside size entry found => ?_, fun page later => ?_, distinct.2.1⟩
  · have belongs := account.tables root member page inside
    rw [others page (by simp [belongs]), belongs]
  · have belongs := account.users root space va outside size entry found
    rw [others _ (by simp [belongs]), belongs]
  · rw [claim, if_neg fun new => distinct.2.2 page new page later rfl]
    exact listed page (.inr later)

lemma Owned.write_agrees (row : Index → Entry)
    (data : ∀ root, owner page ≠ .table root) (member : root ∈ roots) :
    Agrees root phys.mem (update phys.mem page row) := by
  intro other inside
  apply update_of_ne
  rintro rfl
  exact data root (owned.tables root member other inside)

lemma Owned.write (row : Index → Entry) (data : ∀ root, owner page ≠ .table root) :
    Owned owner roots spaces { phys with mem := update phys.mem page row } :=
  owned.agreeing (fun _ => owned.write_agrees row data) rfl

end

variable {va : VirtAddr} (owned : Owned owner roots spaces phys)
include owned

lemma Owned.accessible (space : root ∈ spaces)
    {size : PageSize} {entry : Entry} (found : walk phys.mem root va = some (size, entry))
    (lets : entry.accessPermission.user = true) : owner (frame size entry va) = .user root := by
  have outside : vaIndex va .level0 ≠ recursiveSlot := by
    intro slot
    have hidden := slot_private (owned.trees root (owned.subset root space))
      (owned.paged root space) slot found
    rw [hidden] at lets
    cases lets
  exact owned.users root space va outside size entry found

/-- A word that a process stores goes to a page that is not a table. -/
lemma Owned.stored (space : root ∈ spaces)
    {word : Entry} (stores : storeWord root va word phys = some after) :
    ∃ page row, (∀ root, owner page ≠ .table root) ∧
      after = { phys with mem := update phys.mem page row } := by
  rw [storeWord] at stores
  split at stores
  · rename_i size entry found
    split at stores
    · rename_i writable
      have belongs := owned.accessible space (userWalk_some found).2 (by rw [writable]; rfl)
      cases stores
      rw [Phys.set, Radix.set_eq_update]
      exact ⟨_, _, by simp [belongs], rfl⟩
    · cases stores
  · cases stores

lemma Owned.storeWord (space : root ∈ spaces)
    {word : Entry} (stores : Aarch64.storeWord root va word phys = some after) :
    Owned owner roots spaces after ∧ ∀ other ∈ roots, SameWalks other phys.mem after.mem := by
  obtain ⟨_, _, data, rfl⟩ := owned.stored space stores
  exact ⟨owned.write _ data, fun other member =>
    (owned.write_agrees _ data member).walks (owned.trees other member)⟩

lemma Owned.addRoot (held : owner page = .held) :
    Owned (update owner page (.table page)) (page :: roots) (page :: spaces)
      (initEmptyRootPageTable page (phys.clear page)) := by
  have empty : (phys.clear page).mem page = fun _ => 0 := update_self ..
  have others : ∀ other, owner other ≠ .held → update owner page (.table page) other =
    owner other := by
    intro _ settled
    apply update_of_ne
    rintro rfl
    exact settled held
  have agrees : ∀ root ∈ roots, Agrees root phys.mem
    (initEmptyRootPageTable page (phys.clear page)).mem := by
    intro _ member
    rw [initEmptyRootPageTable, Phys.set, Radix.set_eq_update, Phys.clear, Function.update_idem]
    apply owned.write_agrees _ _ member
    rw [held]
    intro _ impossible
    cases impossible
  refine ⟨fun root space => ?_, fun root member => ?_, fun root space => ?_,
    fun root member other inside => ?_, fun root space va outside size entry found => ?_,
    fun other later => ?_, owned.distinct⟩
  · rcases List.mem_cons.mp space with rfl | old
    · exact List.mem_cons_self
    · exact List.mem_cons_of_mem page (owned.subset root old)
  · rcases List.mem_cons.mp member with rfl | old
    · exact tree_empty empty
    · exact (agrees root old).tree (owned.trees root old)
  · rcases List.mem_cons.mp space with rfl | old
    · exact paged_empty empty
    · exact (agrees root (owned.subset root old)).paged (owned.paged root old)
  · rcases List.mem_cons.mp member with rfl | old
    · rw [inTree_empty empty inside, update_self]
    · have belongs := owned.tables root old other (((agrees root old).inTree other).mp inside)
      rw [others other (by simp [belongs]), belongs]
  · rcases List.mem_cons.mp space with rfl | old
    · have unmapped := walk_empty empty outside
      cases unmapped.symm.trans found
    · have member := owned.subset root old
      rw [(agrees root member).walks (owned.trees root member) va outside] at found
      have belongs := owned.users root old va outside size entry found
      rw [others _ (by simp [belongs]), belongs]
  · have free := owned.free other later
    rw [others other (by simp [free]), free]

end

/-! ## Mapping a page -/

def descriptor (attributes : Entry) (page : PageNo) : Entry :=
  page4K.entry (attributes.withPhysAddr (pageAddr page))

lemma addr_descriptor (attributes : Entry) (page : PageNo) :
    (descriptor attributes page).addr = page := by
  rw [descriptor, PageSize.entry, if_pos rfl, Entry.addr_withPageOrTable, Entry.addr_withPhysAddr]

lemma accessPermission_descriptor (attributes : Entry) (page : PageNo) :
    (descriptor attributes page).accessPermission = attributes.accessPermission := by
  rw [descriptor, PageSize.entry, if_pos rfl, Entry.accessPermission_withPageOrTable,
    Entry.accessPermission_withPhysAddr]

/-- Attributes that `map_to` accepts. -/
structure Plain (attributes : Entry) : Prop where
  valid : attributes.valid = true
  block : attributes.pageOrTable = false

lemma plain_rwKernelData : Plain .rwKernelData := ⟨rfl, rfl⟩

lemma plain_roUserText : Plain .roUserText := ⟨rfl, rfl⟩

lemma plain_rwUserData : Plain .rwUserData := ⟨rfl, rfl⟩

/-- A call of `map_to` for a page, with what it did to the owners. -/
structure PageCall (root : PageNo) (roots spaces : List PageNo) (attributes : Entry) (page : PageNo)
    (va : VirtAddr) (owner : PageNo → Owner) (phys : Phys) (result : Except PageTableError Unit)
    (taken : List (Except PageAllocError PageNo)) (owner' : PageNo → Owner) (after : Phys) :
    Prop where
  owned : Owned owner' roots spaces after
  touched : Touched root phys after taken
  claims : Claims owner root taken owner'
  answers : Answers root (attributes.withPhysAddr (pageAddr page)) va .page4K result
    phys.mem after.mem

variable {owner : PageNo → Owner} {roots spaces : List PageNo} {phys : Phys} {root : PageNo}
  {ttbr : Ttbr} {pgtype : RootPageTableType} {attributes : Entry}

lemma Plain.withPhysAddr (plain : Plain attributes) (pa : PhysAddr) :
    Plain (attributes.withPhysAddr pa) :=
  ⟨by rw [Entry.valid_withPhysAddr, plain.valid], by rw [Entry.pageOrTable_withPhysAddr,
    plain.block]⟩

lemma Owned.mapUser (owned : Owned owner roots spaces phys) (space : root ∈ spaces)
    (alive : Live owner roots (ttbr.root pgtype)) (plain : Plain attributes) {page : PageNo}
    (held : owner page = .held) (va : VirtAddr) :
    ∃ result after taken owner',
      mapTo ttbr root (attributes.withPhysAddr (pageAddr page)) va .page4K pgtype phys =
        some (result, after) ∧
      PageCall root roots spaces attributes page va owner phys result taken owner' after ∧
      (result = .ok () → owner' page = .user root) := by
  have member := owned.subset root space
  have plain' := plain.withPhysAddr (pageAddr page)
  obtain ⟨result, after, taken, returns, touched, answers, keeps⟩ :=
    mapTo_spec (owned.callable member alive) va .page4K plain'.valid plain'.block
  have noBlock : NoBlock page4K.level.depth
    (page4K.entry (attributes.withPhysAddr (pageAddr page))) := by
    intro upper
    exact absurd upper (by decide)
  have paged' : root ∈ spaces → Paged after.mem root := fun _ =>
    paged_iff.mpr (keeps NoBlock lawful_noBlock noBlock (paged_iff.mp (owned.paged root space)))
  cases result with
  | error err =>
    have claims := claims_claim owner root taken
    refine ⟨.error err, after, taken, _, returns, ⟨?_, touched, claims, answers⟩, nofun⟩
    apply owned.touched member touched claims paged'
    intro _ va outside _ _ found
    rw [answers va outside] at found
    exact .inl found
  | ok =>
    have claims := claims_give owned touched held
    refine ⟨.ok (), after, taken, _, returns, ⟨?_, touched, claims, answers⟩, fun _ =>
      update_self ..⟩
    apply owned.touched member touched claims paged'
    intro _ other outside _ _ found
    by_cases covered : Covers .page4K va other
    · rw [answers.inside other covered] at found
      cases found
      have points : frame .page4K (page4K.entry (attributes.withPhysAddr (pageAddr page)))
          other = page := addr_descriptor attributes page
      right
      rw [points, update_self]
    rw [answers.outside other outside covered] at found
    exact .inl found

/-! ## Taking a page -/

/-- A call for one address space: owners of pages in use stay, and only tables of its root change.
-/
structure Moved (root : PageNo) (owner : PageNo → Owner) (phys : Phys) (owner' : PageNo → Owner)
    (after : Phys) : Prop where
  settled : ∀ page, owner page ≠ .free → owner page ≠ .held → owner' page = owner page
  supply : ∀ page ∈ pages after.supply, page ∈ pages phys.supply
  contents : ∀ page, owner' page ≠ .table root → after.mem page = phys.mem page

section

variable {owner' owner'' : PageNo → Owner} {middle after : Phys} {page : PageNo}

lemma stays {who : Owner}
    (settled : ∀ page, owner page ≠ .free → owner page ≠ .held → owner' page = owner page)
    (belongs : owner page = who) (used : who ≠ .free) (kept : who ≠ .held) : owner' page = who := by
  subst belongs
  exact settled page used kept

lemma Moved.trans (one : Moved root owner phys owner' middle)
    (two : Moved root owner' middle owner'' after) : Moved root owner phys owner'' after where
  settled page used settled :=
    stays two.settled (one.settled page used settled) used settled
  supply page later := one.supply page (two.supply page later)
  contents page other := by
    have before : owner' page ≠ .table root := by
      intro table
      apply other
      exact stays two.settled table (by simp) (by simp)
    rw [two.contents page other, one.contents page before]

lemma Moved.user (moved : Moved root owner phys owner' after) {other : PageNo}
    (belongs : owner page = .user other) : owner' page = .user other :=
  stays moved.settled belongs (by simp) (by simp)

lemma Moved.live (moved : Moved root owner phys owner' after) {live : PageNo}
    (alive : Live owner roots live) : Live owner' roots live :=
  alive.imp id fun other => stays moved.settled other (by simp) (by simp)

lemma PageCall.moved {result : Except PageTableError Unit} {va : VirtAddr}
    {taken : List (Except PageAllocError PageNo)}
    (call : PageCall root roots spaces attributes page va owner phys result taken owner' after)
    (owned : Owned owner roots spaces phys) (member : root ∈ roots) :
    Moved root owner phys owner' after where
  settled _ used settled := call.claims.stays owned call.touched rfl used settled
  supply page later := by
    rw [call.touched.supply, pages_append]
    exact List.mem_append_right _ later
  contents page other := by
    have untaken : page ∉ pages taken := fun new => other (call.claims.tables page new)
    apply call.touched.frame page _ untaken
    intro inside
    apply other
    exact call.claims.stays owned call.touched (owned.tables root member page inside) nofun nofun

lemma Owned.hold (owned : Owned owner roots spaces phys)
    {supply : List (Except PageAllocError PageNo)}
    (answers : phys.supply = .ok page :: supply) (root : PageNo) :
    Moved root owner phys (update owner page .held) { phys with supply } := by
  obtain ⟨free, -⟩ := owned.alloc answers
  refine ⟨fun other used _ => update_of_ne ?_ .., fun other later => ?_, fun _ _ => rfl⟩
  · rintro rfl
    exact used free
  · rw [answers]
    exact List.mem_cons_of_mem page later

end

/-- A page given to an address space at an address, or the reason why none was. -/
def GivesPage (root : PageNo) (attributes : Entry) (va : VirtAddr)
    (result : Except PageAllocError PageNo) (phys : Phys) (owner' : PageNo → Owner) (after : Phys) :
    Prop :=
  match result with
  | .ok page => page ∈ pages phys.supply ∧ owner' page = .user root ∧
      vaIndex va .level0 ≠ recursiveSlot ∧
      Mapped root (attributes.withPhysAddr (pageAddr page)) va .page4K phys.mem after.mem
  | .error _ => SameWalks root phys.mem after.mem

/-- What taking a page for an address space does. -/
structure Took (root : PageNo) (roots spaces : List PageNo) (attributes : Entry) (va : VirtAddr)
    (owner : PageNo → Owner) (phys : Phys) (result : Except PageAllocError PageNo)
    (owner' : PageNo → Owner) (after : Phys) : Prop where
  owned : Owned owner' roots spaces after
  moved : Moved root owner phys owner' after
  gives : GivesPage root attributes va result phys owner' after

/-- The part that `map_user_page` and `map_user_data_page_pa` share: take a page and map it. -/
def takePage (ttbr : Ttbr) (root : PageNo) (attributes : Entry) (va : VirtAddr) (phys : Phys) :
    Outcome PageAllocError PageNo :=
  match phys.alloc with
  | (.error err, phys) => some (.error err, phys)
  | (.ok page, phys) =>
    match mapPhysRange ttbr root (.ofPage page) (.addr va) attributes .page4K .user phys with
    | none => none
    | some (.error _, phys) => some (.error .unableToMap, phys)
    | some (.ok _, phys) => some (.ok page, phys)

variable {page : PageNo} {va : VirtAddr} {after : Phys} {result : Except PageTableError VirtRange}

lemma mapUserDataPagePa_eq (ttbr : Ttbr) (root : PageNo) (va : VirtAddr) (phys : Phys) :
    Aspace.mapUserDataPagePa ttbr root va phys =
      (takePage ttbr root .rwUserData va phys).map fun outcome =>
        (outcome.1.map pageAddr, outcome.2) := by
  rw [Aspace.mapUserDataPagePa, takePage]
  rcases phys.alloc with ⟨_ | page, phys⟩
  · rfl
  dsimp only
  rcases mapPhysRange ttbr root (.ofPage page) (.addr va) .rwUserData .page4K .user phys with
    _ | ⟨_ | _, after⟩ <;> rfl

lemma mapUserPage_eq (ttbr : Ttbr) (root : PageNo) (attributes : Entry) (va : VirtAddr)
    (phys : Phys) :
    Aspace.mapUserPage ttbr root attributes va phys =
      (takePage ttbr root attributes va phys).bind fun
        | (.error err, phys) => some (.error err, phys)
        | (.ok page, phys) => (Aspace.mapKernelPage ttbr page phys).map fun
          | (.error _, phys) => (.error .unableToMap, phys)
          | (.ok _, phys) => (.ok (Aspace.kernelPointer page), phys) := by
  rw [Aspace.mapUserPage, takePage]
  rcases phys.alloc with ⟨_ | page, phys⟩
  · rfl
  dsimp only
  rcases mapPhysRange ttbr root (.ofPage page) (.addr va) attributes .page4K .user phys with
    _ | ⟨_ | _, after⟩
  · rfl
  · rfl
  dsimp only [Option.bind_some]
  rcases Aspace.mapKernelPage ttbr page after with _ | ⟨_ | _, last⟩ <;> rfl

/-- A range of one page is mapped by one call. -/
lemma mapPhysRange_returns {mapping : VaMapping}
    (returns : mapPhysRange ttbr root (.ofPage page) mapping attributes .page4K pgtype phys =
      some (result, after)) :
    ∃ done, mapTo ttbr root (attributes.withPhysAddr (pageAddr page))
        (mapping.map (pageAddr page)) .page4K pgtype phys = some (done, after) ∧
      (∀ range, result = .ok range → done = .ok ()) ∧
      ∀ err, result = .error err → done = .error err := by
  rw [mapPhysRange_ofPage] at returns
  by_cases fits : (mapping.map (pageAddr page)).toNat + 4096 < 2 ^ 64
  · rw [if_pos fits] at returns
    obtain ⟨⟨done, _⟩, maps, same⟩ := Option.map_eq_some_iff.mp returns
    cases same
    refine ⟨done, maps, fun range good => ?_, fun err bad => ?_⟩
    · cases done with
      | error => cases good
      | ok => rfl
    · cases done with
      | error => exact congrArg _ (Except.error.inj bad)
      | ok => cases bad
  rw [if_neg fits] at returns
  cases returns

section

variable (owned : Owned owner roots spaces phys) (space : root ∈ spaces)
  (alive : Live owner roots ttbr.user) (plain : Plain attributes)
include owned space alive plain

lemma Owned.mapUserRange (held : owner page = .held)
    (returns : mapPhysRange ttbr root (.ofPage page) (.addr va) attributes .page4K .user phys =
      some (result, after)) :
    ∃ owner', Owned owner' roots spaces after ∧ Moved root owner phys owner' after ∧
      (∀ err, result = .error err → SameWalks root phys.mem after.mem) ∧
      ∀ range, result = .ok range → owner' page = .user root ∧ vaIndex va .level0 ≠ recursiveSlot ∧
        Mapped root (attributes.withPhysAddr (pageAddr page)) va .page4K phys.mem after.mem := by
  have member := owned.subset root space
  have alive' : Live owner roots (ttbr.root .user) := alive
  obtain ⟨_, maps, good, bad⟩ := mapPhysRange_returns returns
  obtain ⟨_, _, _, owner', maps', call, given⟩ := owned.mapUser space alive' plain held va
  obtain ⟨rfl, rfl⟩ := Prod.mk.inj (Option.some.inj (maps.symm.trans maps'))
  have answers := call.answers
  refine ⟨owner', call.owned, call.moved owned member, fun err failed => ?_, fun range success =>
    ?_⟩
  · rw [bad err failed] at answers
    exact answers
  · have done := good range success
    rw [done] at answers maps'
    refine ⟨given done, fun slot => ?_, answers⟩
    rw [mapTo_refused slot] at maps'
    cases maps'

lemma Owned.takePage {result : Except PageAllocError PageNo}
    (returns : Ownership.takePage ttbr root attributes va phys = some (result, after)) :
    ∃ owner', Took root roots spaces attributes va owner phys result owner' after := by
  rw [Ownership.takePage, Phys.alloc] at returns
  cases answers : phys.supply with
  | nil =>
    rw [answers] at returns
    cases returns
    exact ⟨owner, owned, ⟨fun _ _ _ => rfl, fun _ => id, fun _ _ => rfl⟩, fun _ _ => rfl⟩
  | cons answer supply =>
    rw [answers] at returns
    cases answer with
    | error err =>
      cases returns
      have fewer : ∀ page ∈ pages supply, page ∈ pages phys.supply := by
        intro page later
        rw [answers]
        exact later
      exact ⟨owner, owned.refused answers, ⟨fun _ _ _ => rfl, fewer, fun _ _ => rfl⟩, fun _ _ =>
        rfl⟩
    | ok page =>
      obtain ⟨-, owned'⟩ := owned.alloc answers
      have moved := owned.hold answers root
      have held : update owner page .held page = .held := update_self ..
      have listed : page ∈ pages phys.supply := by
        rw [answers]
        exact List.mem_cons_self
      dsimp only at returns
      split at returns
      · cases returns
      · rename_i err _ called
        cases returns
        obtain ⟨owner', owned'', moved', same, -⟩ :=
          owned'.mapUserRange space (moved.live alive) plain held called
        exact ⟨owner', owned'', moved.trans moved', same err rfl⟩
      rename_i range _ called
      cases returns
      obtain ⟨owner', owned'', moved', -, given⟩ :=
        owned'.mapUserRange space (moved.live alive) plain held called
      exact ⟨owner', owned'', moved.trans moved', listed, given range rfl⟩

end

end R9x.Verif.Ownership
