import R9x.Aarch64.Syscalls
import R9x.Lib.Extents
import R9x.R9xStd.Heap
import R9x.Verif.HeapRuns

/-!
# The allocator of a process on the kernel's heap

A process calls the global allocator and `alloc_page`, in any order.
-/

namespace R9x.Verif.UserHeap

open Lib Abi Aarch64 Aarch64.Vm R9xStd HeapRuns
open UInt64 (ofNat toNat_ofNat')
open Option (map_eq_some_iff map_map map_some)
open Env (handlers)

/-! ## Runs -/

/-- A block of the allocator: its pointer and its layout. -/
abbrev Block := UInt64 × Layout

/-- A process and the kernel's state, with what the process has been given. -/
structure User (n : Nat) where
  env : Env n
  brk : UInt64
  blocks : List Block
  pages : List UInt64

/-- What the process may ask for. -/
inductive Request where
  | alloc (layout : Layout)
  | dealloc (block : Block)
  | allocPage
  deriving DecidableEq

def blockExtent (block : Block) : Extent := ⟨block.1.toNat, block.2.needed⟩

/-- A page of `alloc_page`. -/
def pageExtent (va : UInt64) : Extent := ⟨va.toNat, pageSize4K⟩

namespace User

variable {n : Nat}

/-- Everything the process has been given. -/
def extents (user : User n) : List Extent :=
    user.blocks.map blockExtent ++ user.pages.map pageExtent

/-- The kernel's break. -/
def heapBrk (user : User n) : Nat := user.env.space.heapBrk

/-- One request. A block that is not live is not deallocated. -/
def step (user : User n) : Request → Option (User n)
  | .alloc layout =>
    (alloc handlers layout user.brk user.env).map fun ((ptr, brk), env) =>
      { user with env, brk, blocks := (ptr.map fun ptr => (ptr, layout)).toList ++ user.blocks }
  | .dealloc block =>
    if block ∈ user.blocks then
      (dealloc handlers block.1 block.2 user.brk user.env).map fun (brk, env) =>
        { user with env, brk, blocks := user.blocks.erase block }
    else none
  | .allocPage =>
    (allocPage handlers user.env).map fun (page, env) =>
      { user with env, pages := (page.map Prod.fst).toList ++ user.pages }

/-- The condition on a request. -/
def Guarded (user : User n) : Request → Prop
  | .alloc layout => user.heapBrk % layout.align = 0
  | .dealloc block =>
    block.1.toNat + block.2.needed = user.brk.toNat → user.heapBrk = user.brk.toNat
  | .allocPage => True

instance (user : User n) (request : Request) : Decidable (user.Guarded request) :=
  match request with
  | .alloc _ => inferInstanceAs (Decidable (_ = _))
  | .dealloc _ => inferInstanceAs (Decidable (_ → _))
  | .allocPage => inferInstanceAs (Decidable True)

/-- What the process may rely on. -/
structure BlocksApart (user : User n) : Prop where
  apart : user.extents.Pairwise Extent.Apart
  below : ∀ extent ∈ user.extents, extent.stop ≤ user.heapBrk
  aligned : ∀ block ∈ user.blocks, block.1.toNat % block.2.align = 0
  long : ∀ block ∈ user.blocks, block.2.size ≤ (blockExtent block).length

/-- A process that has not used its heap. -/
structure Fresh (user : User n) : Prop where
  empty : user.heapBrk = user.env.space.heapBase
  page : user.heapBrk % pageSize4K = 0
  low : pageSize4K ≤ user.heapBrk
  high : user.heapBrk ≤ kzero
  blocks : user.blocks = []
  pages : user.pages = []

end User

/-! ## What the kernel does -/

section

variable {n : Nat}

/-- What no heap call changes. -/
structure Same (env after : Env n) : Prop where
  table : after.table = env.table
  tpidr : after.tpidr = env.tpidr
  base : after.space.heapBase = env.space.heapBase

/-- What a request for more heap does. -/
inductive GrowCase (env : Env n) (count : Nat) (start : Option Nat) (after : Env n) : Prop
  | refused (same : Same env after) (nothing : start = none)
    (brk : after.space.heapBrk = env.space.heapBrk)
  | granted (same : Same env after) (newBrk : Nat)
    (grown : brkGrow env.space.heapBrk count kzero = some newBrk)
    (given : start = some env.space.heapBrk) (brk : after.space.heapBrk = newBrk)

lemma growHeap_case {env after : Env n} {count : UInt64} {start : Option Nat}
    (grows : env.growHeap count = some (start, after)) :
    GrowCase env count.toNat start after := by
  unfold Env.growHeap at grows
  split at grows
  · cases grows
    exact .refused ⟨rfl, rfl, rfl⟩ rfl rfl
  split at grows
  · cases grows
    exact .refused ⟨rfl, rfl, rfl⟩ rfl rfl
  obtain ⟨_, heap, result⟩ := map_eq_some_iff.mp grows
  cases result
  cases grown : brkGrow env.space.heapBrk count.toNat kzero with
  | none =>
    rw [heapGrow_declined grown] at heap
    cases heap
    exact .refused ⟨rfl, rfl, rfl⟩ rfl rfl
  | some newBrk =>
    rw [heapGrow_granted grown] at heap
    obtain ⟨⟨⟨failed, _⟩, _⟩, -, result⟩ := map_eq_some_iff.mp heap
    cases result
    cases failed with
    | none => exact .granted ⟨rfl, rfl, rfl⟩ newBrk grown rfl rfl
    | some => exact .refused ⟨rfl, rfl, rfl⟩ rfl rfl

lemma allocHeapPage_case {env after : Env n} {page : Option (Nat × PhysAddr)}
    (grows : env.allocHeapPage = some (page, after)) :
    GrowCase env pageSize4K (page.map Prod.fst) after := by
  unfold Env.allocHeapPage at grows
  split at grows
  · cases grows
    exact .refused ⟨rfl, rfl, rfl⟩ rfl rfl
  split at grows
  · cases grows
    exact .refused ⟨rfl, rfl, rfl⟩ rfl rfl
  obtain ⟨_, heap, result⟩ := map_eq_some_iff.mp grows
  cases result
  cases grown : brkGrow env.space.heapBrk pageSize4K kzero with
  | none =>
    rw [heapAllocPage_declined grown] at heap
    cases heap
    exact .refused ⟨rfl, rfl, rfl⟩ rfl rfl
  | some newBrk =>
    rw [heapAllocPage_granted grown] at heap
    obtain ⟨⟨mapped, _⟩, -, result⟩ := map_eq_some_iff.mp heap
    cases result
    cases mapped with
    | ok => exact .granted ⟨rfl, rfl, rfl⟩ newBrk grown rfl rfl
    | error => exact .refused ⟨rfl, rfl, rfl⟩ rfl rfl

lemma shrinkHeap_case (env : Env n) (va : UInt64) : Same env (env.shrinkHeap va) ∧
      ((env.shrinkHeap va).space.heapBrk = env.space.heapBrk ∨
        (env.shrinkHeap va).space.heapBrk = va.toNat ∧ va.toNat % pageSize4K = 0) := by
  unfold Env.shrinkHeap
  split
  · exact ⟨⟨rfl, rfl, rfl⟩, .inl rfl⟩
  split
  · exact ⟨⟨rfl, rfl, rfl⟩, .inl rfl⟩
  unfold heapShrink brkShrink
  by_cases inside : va.toNat % pageSize4K = 0 ∧ env.space.heapBase ≤ va.toNat ∧
    va.toNat ≤ env.space.heapBrk
  · simp only [if_pos inside]
    exact ⟨⟨rfl, rfl, rfl⟩, .inr ⟨trivial, inside.1⟩⟩
  simp only [if_neg inside]
  exact ⟨⟨rfl, rfl, rfl⟩, .inl trivial⟩

lemma brkGrow_pages {brk count newBrk : Nat} (grown : brkGrow brk count kzero = some newBrk)
    (pages : count % 4096 = 0) : newBrk = brk + count ∧ newBrk ≤ kzero := by
  obtain ⟨size, high⟩ := brkGrow_some grown
  refine ⟨?_, high⟩
  rw [size, pageSize4K]
  omega

end

/-! ## The invariant -/

section

variable {n brk : Nat} {user next : User n} {layout : Layout} {block : Block}

/-- What every request keeps. -/
structure Inv (user : User n) : Prop where
  low : pageSize4K ≤ user.env.space.heapBase
  page : user.heapBrk % pageSize4K = 0
  high : user.heapBrk ≤ kzero
  stacked : Stacked user.env.space.heapBase user.heapBrk user.extents
  aligned : ∀ block ∈ user.blocks, block.1.toNat % block.2.align = 0

lemma Inv.sound (inv : Inv user) : user.BlocksApart where
  apart := inv.stacked.apart
  below := fun extent listed => (inv.stacked.within extent listed).2
  aligned := inv.aligned
  long := fun block _ => (needed_pages block.2).1

lemma User.Fresh.inv (fresh : user.Fresh) : Inv user where
  low := fresh.empty ▸ fresh.low
  page := fresh.page
  high := fresh.high
  stacked := by
    rw [User.extents, fresh.blocks, fresh.pages]
    exact .empty fresh.empty.ge
  aligned := by
    rw [fresh.blocks]
    exact nofun

lemma toNat_ofNat_brk (high : brk ≤ kzero) : (ofNat brk).toNat = brk := by
  rw [toNat_ofNat', kzero] at *
  omega

lemma brk_not_code (inv : Inv user) : ¬ ofNat user.env.space.heapBrk < pageSize := by
  have low := inv.low
  have order : user.env.space.heapBase ≤ user.env.space.heapBrk := inv.stacked.order
  have high : user.env.space.heapBrk ≤ kzero := inv.high
  rw [UInt64.lt_iff_toNat_lt, toNat_ofNat_brk high]
  change ¬ _ < 4096
  rw [pageSize4K] at low
  omega

lemma Inv.moved (inv : Inv user) (same : Same user.env next.env)
    (moved : next.env.space.heapBrk = brk) (page : brk % pageSize4K = 0) (high : brk ≤ kzero)
    (stacked : Stacked user.env.space.heapBase brk next.extents)
    (aligned : ∀ block ∈ next.blocks, block.1.toNat % block.2.align = 0) : Inv next := by
  subst moved
  exact ⟨same.base ▸ inv.low, page, high, same.base ▸ stacked, aligned⟩

lemma Inv.granted (inv : Inv user) (same : Same user.env next.env) {length : Nat}
    (positive : 0 < length)
    (pages : length % 4096 = 0) (brk : next.heapBrk = user.heapBrk + length)
    (high : next.heapBrk ≤ kzero)
    (given : next.extents.Perm (⟨user.heapBrk, length⟩ :: user.extents))
    (aligned : ∀ block ∈ next.blocks, block.1.toNat % block.2.align = 0) : Inv next := by
  refine inv.moved same brk ?_ (brk ▸ high) ((inv.stacked.push positive).perm given.symm) aligned
  have page := inv.page
  rw [pageSize4K] at page ⊢
  omega

lemma alloc_eq (layout : Layout) (brk : UInt64) (env : Env n) : alloc handlers layout brk env =
      (env.growHeap (ofNat layout.needed)).map fun (start, after) =>
        match start with
        | none => ((none, brk), after)
        | some va =>
          if ofNat va < pageSize then ((none, brk), after)
          else ((some (ofNat va), ofNat va + ofNat layout.needed), after) := by
  simp only [R9xStd.alloc, sys_alloc, handlers, Env.sysAlloc, map_map]
  congr 1
  funext grown
  obtain ⟨start, _⟩ := grown
  cases start <;> rfl

lemma allocPage_eq (env : Env n) : R9xStd.allocPage handlers env = env.allocHeapPage.map
    fun (page, after) =>
      match page with
      | none => (none, after)
      | some (va, _) =>
        if ofNat va < pageSize then (none, after) else (some (ofNat va, 0), after) := by
  simp only [R9xStd.allocPage, sys_allocPage, handlers, Env.sysAllocPage, map_map]
  congr 1
  funext grown
  obtain ⟨page, _⟩ := grown
  cases page <;> rfl

lemma dealloc_eq (ptr : UInt64) (layout : Layout) (brk : UInt64) (env : Env n) :
    dealloc handlers ptr layout brk env =
      if ptr + ofNat layout.needed = brk then some (ptr, env.shrinkHeap ptr)
      else some (brk, env) := by
  simp only [R9xStd.dealloc, sys_free, handlers, Env.sysFree, map_some]

lemma Inv.alloc (inv : Inv user) (guarded : user.Guarded (.alloc layout))
    (taken : user.step (.alloc layout) = some next) : Inv next := by
  obtain ⟨-, positive, pages, small⟩ := needed_pages layout
  have count : (ofNat layout.needed).toNat = layout.needed := by
    rw [toNat_ofNat']
    omega
  rw [User.step, alloc_eq, map_map] at taken
  obtain ⟨⟨start, _⟩, grows, rfl⟩ := map_eq_some_iff.mp taken
  cases growHeap_case grows with
  | refused same nothing brk =>
    rw [nothing]
    exact inv.moved same brk inv.page inv.high inv.stacked inv.aligned
  | granted same _ grown given brk =>
    rw [count] at grown
    obtain ⟨size, high⟩ := brkGrow_pages grown pages
    have start : (ofNat user.env.space.heapBrk).toNat = user.heapBrk := toNat_ofNat_brk inv.high
    rw [given]
    simp only [Function.comp_apply, if_neg (brk_not_code inv)]
    refine inv.granted same positive pages (brk.trans size) (brk.le.trans high) ?_ ?_
    · apply List.Perm.of_eq
      simp only [User.extents, map_some, Option.toList_some, List.cons_append,
        List.nil_append, List.map_cons, blockExtent, start]
    · intro block listed
      rcases List.mem_cons.mp listed with rfl | later
      · rw [start]
        exact guarded
      · exact inv.aligned block later

lemma Inv.allocPage (inv : Inv user) (taken : user.step .allocPage = some next) : Inv next := by
  rw [User.step, allocPage_eq, map_map] at taken
  obtain ⟨⟨page, _⟩, grows, rfl⟩ := map_eq_some_iff.mp taken
  cases page with
  | none =>
    cases allocHeapPage_case grows with
    | refused same _ brk => exact inv.moved same brk inv.page inv.high inv.stacked inv.aligned
    | granted _ _ _ given => cases given
  | some addresses =>
    cases allocHeapPage_case grows with
    | refused _ nothing => cases nothing
    | granted same _ grown given brk =>
      obtain ⟨size, high⟩ := brkGrow_pages grown rfl
      have start : (ofNat user.env.space.heapBrk).toNat = user.heapBrk := toNat_ofNat_brk inv.high
      have va : addresses.1 = user.env.space.heapBrk := Option.some.inj given
      simp only [Function.comp_apply, va, if_neg (brk_not_code inv)]
      refine inv.granted same (by decide) rfl (brk.trans size) (brk.le.trans high) ?_ inv.aligned
      simp only [User.extents, map_some, Option.toList_some, List.cons_append,
        List.nil_append, List.map_cons, pageExtent, start]
      exact List.perm_middle

lemma extents_erase (live : block ∈ user.blocks) : user.extents.Perm (blockExtent block ::
      ((user.blocks.erase block).map blockExtent ++ user.pages.map pageExtent)) := by
  have first := (List.perm_cons_erase live).map blockExtent
  exact first.append_right (user.pages.map pageExtent)

lemma watermark {ptr brk : UInt64} {top : Nat} (high : top ≤ kzero)
    (below : (blockExtent (ptr, layout)).stop ≤ top)
    (ends : ptr + ofNat layout.needed = brk) : ptr.toNat + layout.needed = brk.toNat := by
  have stop : ptr.toNat + layout.needed ≤ top := below
  have sum := congrArg UInt64.toNat ends
  rw [UInt64.toNat_add, toNat_ofNat'] at sum
  rw [kzero] at high
  omega

lemma Inv.dealloc (inv : Inv user) (guarded : user.Guarded (.dealloc block))
    (taken : user.step (.dealloc block) = some next) : Inv next := by
  obtain ⟨ptr, layout⟩ := block
  rw [User.step] at taken
  split at taken
  · rename_i live
    have stacked := inv.stacked.perm (extents_erase live)
    have aligned : ∀ other ∈ user.blocks.erase (ptr, layout), other.1.toNat % other.2.align = 0 :=
      fun other later => inv.aligned other (List.mem_of_mem_erase later)
    rw [dealloc_eq] at taken
    by_cases top : ptr + ofNat layout.needed = user.brk
    · rw [if_pos top] at taken
      cases taken
      obtain ⟨same, moved⟩ := shrinkHeap_case user.env ptr
      rcases moved with brk | ⟨brk, page⟩
      · exact inv.moved same brk inv.page inv.high stacked.forget aligned
      have topmost : (blockExtent (ptr, layout)).stop = user.heapBrk := by
        have ends := (stacked.within _ List.mem_cons_self).2
        have sum := watermark inv.high ends top
        exact sum.trans (guarded sum).symm
      have below : ptr.toNat ≤ user.heapBrk := by
        rw [← topmost]
        exact Nat.le_add_right _ _
      exact inv.moved same brk page (below.trans inv.high) (stacked.pop topmost) aligned
    rw [if_neg top] at taken
    cases taken
    exact ⟨inv.low, inv.page, inv.high, stacked.forget, aligned⟩
  · cases taken

lemma Inv.step (inv : Inv user) {request : Request} (guarded : user.Guarded request)
    (taken : user.step request = some next) : Inv next := by
  cases request with
  | alloc => exact inv.alloc guarded taken
  | dealloc => exact inv.dealloc guarded taken
  | allocPage => exact inv.allocPage taken

end

/-- In every run in which each alignment divides the kernel's break and no block is deallocated at a
watermark that the break has left, what a process has been given stays apart, aligned and below the
break. -/
theorem user_heap_sound {n : Nat} (user : User n) (fresh : user.Fresh) (requests : List Request)
    (met : Along User.step User.Guarded user requests) :
    Throughout User.step User.BlocksApart user requests :=
  throughout_of_along (fun _ _ _ inv guarded taken => inv.step guarded taken)
    (fun _ inv => inv.sound) fresh.inv met

/-! ## A process -/

def started : User 1 where
  env :=
  {
    table := fun _ => some ⟨.running, 0, .new 1, none⟩
    tpidr := some 0
    counter := 0
    nused := 0
    channels := fun _ => .new
    space := Machine.emptyProcess.space
    kernel := 100
    phys := Machine.emptyProcess.phys }
  brk := 0
  blocks := []
  pages := []

lemma started_fresh : started.Fresh := ⟨rfl, rfl, by decide, by decide, rfl, rfl⟩

def bytes (size : Nat) (fits : size ≤ 2 ^ 63 - 1) : Layout := ⟨size, 1, ⟨0, rfl⟩, fits⟩

def pageFirst : List Request :=
  [.allocPage, .alloc (bytes 5000 (by decide)), .dealloc (0x201000, bytes 5000 (by decide))]

/-- The process keeps what it has while it gives back the block that it allocated last. -/
theorem user_heap_sound_pageFirst : Throughout User.step User.BlocksApart started pageFirst ∧
      ((run User.step started pageFirst).map fun user => (user.extents, user.heapBrk)) =
        some ([⟨0x200000, 0x1000⟩], 0x201000) :=
  ⟨user_heap_sound started started_fresh pageFirst (by decide +kernel), by decide +kernel⟩

def pageAbove : List Request :=
  [.alloc (bytes 4096 (by decide)), .allocPage, .dealloc (0x200000, bytes 4096 (by decide)),
    .alloc (bytes 8192 (by decide))]

def twoPageAligned : List Request :=
  [.allocPage, .alloc ⟨8192, 8192, ⟨13, rfl⟩, by decide⟩]

/-- The release of a block below a page of `alloc_page` puts the break below the page; the next
block covers the page. A block to be aligned to two pages starts at the break. -/
theorem break_falls_below_page : started.Fresh ∧
    ((run User.step started (pageAbove.take 3)).map fun user => (user.extents, user.heapBrk)) =
      some ([⟨0x201000, 0x1000⟩], 0x200000) ∧
    ((run User.step started pageAbove).map fun user => (user.extents, user.heapBrk)) =
      some ([⟨0x200000, 0x2000⟩, ⟨0x201000, 0x1000⟩], 0x202000) ∧
    ((run User.step started twoPageAligned).map fun user =>
      user.blocks.map fun block => (block.1, block.2.align)) = some [(0x201000, 0x2000)] ∧
    ¬ Throughout User.step User.BlocksApart started pageAbove ∧
    ¬ Throughout User.step User.BlocksApart started twoPageAligned := by
  have overlap : ((run User.step started pageAbove).map fun user => (user.extents, user.heapBrk)) =
      some ([⟨0x200000, 0x2000⟩, ⟨0x201000, 0x1000⟩], 0x202000) := by decide +kernel
  have skewed : ((run User.step started twoPageAligned).map fun user =>
      user.blocks.map fun block => (block.1, block.2.align)) = some [(0x201000, 0x2000)] := by
    decide +kernel
  refine ⟨started_fresh, by decide +kernel, overlap, skewed, ?_, ?_⟩
  · intro sound
    obtain ⟨_, reached, given⟩ := map_eq_some_iff.mp overlap
    have apart := (sound.reached reached).apart
    rw [(Prod.mk.inj given).1] at apart
    exact absurd apart (by decide)
  · intro sound
    obtain ⟨final, reached, given⟩ := map_eq_some_iff.mp skewed
    have first : (0x201000, 0x2000) ∈ final.blocks.map fun block => (block.1, block.2.align) := by
      rw [given]
      exact List.mem_cons_self
    obtain ⟨block, listed, same⟩ := List.mem_map.mp first
    have aligned := (sound.reached reached).aligned block listed
    rw [(Prod.mk.inj same).1, (Prod.mk.inj same).2] at aligned
    exact absurd aligned (by decide)

end R9x.Verif.UserHeap
