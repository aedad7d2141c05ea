import R9x.Verif.MapCalls

/-!
# The steps of `map_to`

The memories that a call of `map_to` passes through, one after each descriptor that it stores and
each page that it clears.
-/

namespace R9x.Verif.PageTree

open Lib Aarch64.Vm

/-- A memory on the way, and the table that is linked in it and not cleared yet. -/
structure Moment where
  mem : Mem
  uncleared : Option PageNo

section

variable (ttbr : Ttbr) (pgtype : RootPageTableType) (va : VirtAddr)

def nextMutSteps (level : Level) (table : PageNo) (phys : Phys) : List Moment :=
  let index := vaIndex va level
  if level = .level0 ∧ index = recursiveSlot ∨ (phys.mem table index).valid = true then []
  else
    match phys.alloc with
    | (.error _, _) => []
    | (.ok page, phys) =>
      let phys := phys.set table index (tableEntry page)
      ⟨phys.mem, some page⟩ :: ((level.next.bind fun nextLevel =>
        resolveEntryMut ttbr pgtype va nextLevel phys.mem).map fun next =>
          ⟨(phys.clear next).mem, none⟩).toList

/-- The steps of the chain of `next_mut` calls. -/
def nextAllSteps : List Level → PageNo → Phys → List Moment
  | [], _, _ => []
  | level :: levels, table, phys =>
    nextMutSteps ttbr pgtype va level table phys ++
      match nextMut ttbr pgtype va level table phys with
      | some (.ok next, phys) => nextAllSteps levels next phys
      | _ => []

def mapToSteps (root : PageNo) (entry : Entry) (size : PageSize) (phys : Phys) : List Moment :=
  let live := ttbr.root pgtype
  let old := phys.mem live recursiveSlot
  let phys := phys.set live recursiveSlot (tableEntry root)
  ⟨phys.mem, none⟩ :: (nextAllSteps ttbr pgtype va size.tables root phys ++
    match nextAll ttbr pgtype va size.tables root phys with
    | none => []
    | some (.error _, phys) => [⟨(phys.set live recursiveSlot old).mem, none⟩]
    | some (.ok table, phys) =>
      let phys := phys.set table (vaIndex va size.level) (size.entry entry)
      let written := phys.mem table (vaIndex va size.level)
      ⟨phys.mem, none⟩ :: if written.valid && written.addr = (size.entry entry).addr then
        [⟨(phys.set live recursiveSlot old).mem, none⟩] else [])

/-- Every step shows each address as it was before the call or as it is after it, and no walk passes
through a table that is not cleared. -/
def Gradual (root : PageNo) (entry : Entry) (size : PageSize) (phys : Phys) : Prop :=
  ∀ moment ∈ mapToSteps ttbr pgtype va root entry size phys, ∀ other, vaIndex other .level0 ≠
    recursiveSlot →
    (walk moment.mem root other = walk phys.mem root other ∨
      ∃ result after, mapTo ttbr root entry va size pgtype phys = some (result, after) ∧
        walk moment.mem root other = walk after.mem root other) ∧
    ∀ page count, moment.uncleared = some page → count ≤ 3 →
      Radix.follow tableOf moment.mem root (pathTo other count) ≠ some page

end

/-- The search of a path ends at a descriptor that is not valid. -/
def missing (mem : Mem) (root : PageNo) (path : List Index) : Bool :=
  (Radix.look tableOf mem root path).any fun found => !found.2.valid

/-- A table that the call needs is missing, and the allocator has a page for it. -/
def Publishes (root : PageNo) (va : VirtAddr) (size : PageSize) (phys : Phys) : Prop :=
  vaIndex va .level0 ≠ recursiveSlot ∧ missing phys.mem root (pathTo va size.level.depth) = true ∧
    ∃ page supply, phys.supply = .ok page :: supply

variable {ttbr : Ttbr} {pgtype : RootPageTableType} {va : VirtAddr} {root table : PageNo}
  {level next last : Level} {phys after : Phys} {entry : Entry} {size : PageSize}

/-! ## The steps end where the call does -/

def lastMem (mem : Mem) (steps : List Moment) : Mem := steps.getLast?.elim mem Moment.mem

lemma lastMem_append (mem : Mem) (first second : List Moment) :
    lastMem mem (first ++ second) = lastMem (lastMem mem first) second := by
  rw [lastMem, lastMem, List.getLast?_append]
  cases second.getLast? with
  | none | some moment => rfl

variable {result : Except PageTableError PageNo}

lemma nextMut_last (returns : nextMut ttbr pgtype va level table phys = some (result, after)) :
    lastMem phys.mem (nextMutSteps ttbr pgtype va level table phys) = after.mem := by
  simp only [nextMut] at returns
  simp only [nextMutSteps]
  by_cases slot : level = .level0 ∧ vaIndex va level = recursiveSlot
  · rw [if_pos slot] at returns
    cases returns
    rw [if_pos (Or.inl slot)]
    rfl
  rw [if_neg slot] at returns
  by_cases valid : Entry.valid (phys.mem table (vaIndex va level)) = true
  · rw [if_pos (Or.inr valid)]
    split at returns
    · cases returns
      rfl
    obtain ⟨_, -, same⟩ := Option.map_eq_some_iff.mp returns
    cases same
    rfl
  rw [if_neg (not_or.mpr ⟨slot, valid⟩)]
  rw [Bool.not_eq_true] at valid
  rw [valid, Phys.alloc] at returns
  rw [Phys.alloc]
  cases answers : phys.supply with
  | nil =>
    rw [answers] at returns
    cases returns
    rfl
  | cons answer =>
    rw [answers] at returns
    cases answer with
    | error =>
      cases returns
      rfl
    | ok =>
      obtain ⟨_, resolved, same⟩ := Option.map_eq_some_iff.mp returns
      cases same
      simp only [resolved]
      rfl

variable {levels : List Level}

lemma nextAll_last (returns : nextAll ttbr pgtype va levels table phys = some (result, after)) :
    lastMem phys.mem (nextAllSteps ttbr pgtype va levels table phys) = after.mem := by
  induction levels generalizing table phys with
  | nil =>
    cases returns
    rfl
  | cons level _ ih =>
    rw [nextAll] at returns
    rw [nextAllSteps, lastMem_append]
    cases one : nextMut ttbr pgtype va level table phys with
    | none =>
      rw [one] at returns
      cases returns
    | some outcome =>
      obtain ⟨answer, _⟩ := outcome
      rw [one] at returns
      rw [nextMut_last one]
      cases answer with
      | error =>
        cases returns
        rfl
      | ok => exact ih returns

lemma mapTo_last {result : Except PageTableError Unit}
    (returns : mapTo ttbr root entry va size pgtype phys = some (result, after)) (mem : Mem) :
    lastMem mem (mapToSteps ttbr pgtype va root entry size phys) = after.mem := by
  rw [mapTo] at returns
  rw [mapToSteps, ← List.cons_append, lastMem_append]
  cases walked : nextAll ttbr pgtype va size.tables root
      (phys.set (ttbr.root pgtype) recursiveSlot (tableEntry root)) with
  | none =>
    simp only [walked] at returns
    cases returns
  | some outcome =>
    obtain ⟨answer, middle⟩ := outcome
    simp only [walked] at returns
    cases answer with
    | error =>
      cases returns
      rfl
    | ok =>
      dsimp only at returns
      split at returns
      · rename_i stuck
        cases returns
        simp only [if_pos stuck]
        rfl
      · cases returns

/-! ## The table that is not there -/

variable {mem : Mem} {index : Index}

lemma missing_found {child : PageNo} (path : List Index)
    (points : tableOf (mem table index) = some child) :
    missing mem table (index :: path) = missing mem child path := by
  cases path with
  | nil =>
    rw [tableOf, Option.ite_none_right_eq_some, Bool.and_eq_true_iff] at points
    simp [missing, Radix.look, points.1.1]
  | cons => rw [missing, missing, Radix.look, points]

lemma missing_stop (path : List Index) (stops : tableOf (mem table index) = none) :
    missing mem table (index :: path) = !(mem table index).valid := by
  rw [missing, Radix.look_stop fun _ => stops]
  rfl

def Exposes (root : PageNo) (va : VirtAddr) (steps : List Moment) : Prop :=
  ∃ moment ∈ steps, ∃ page count, moment.uncleared = some page ∧ count ≤ 3 ∧
    Radix.follow tableOf moment.mem root (pathTo va count) = some page

def Lacks (table : PageNo) (path : List Index) (phys : Phys) : Prop :=
  missing phys.mem table path = true ∧ ∃ page supply, phys.supply = .ok page :: supply

lemma exposes_linked {page : PageNo} {supply : List (Except PageAllocError PageNo)}
    (tree : Tree phys.mem root) (outside : vaIndex va .level0 ≠ recursiveSlot)
    (follows : level.next = some next) (here : tableAt phys.mem root (pathTo va level.depth) =
      some table)
    (invalid : (phys.mem table (vaIndex va level)).valid = false)
    (answers : phys.supply = .ok page :: supply) (rest : List Moment) :
    Exposes root va (nextMutSteps ttbr pgtype va level table phys ++ rest) := by
  have free : ¬ (level = .level0 ∧ vaIndex va level = recursiveSlot ∨
      (phys.mem table (vaIndex va level)).valid = true) := by
    rw [invalid]
    exact not_or.mpr ⟨not_refused outside, Bool.false_ne_true⟩
  refine ⟨⟨Radix.set phys.mem table (vaIndex va level) (tableEntry page), some page⟩, ?_, page,
    next.depth, rfl, by cases next <;> decide, ?_⟩
  · rw [nextMutSteps, if_neg free, Phys.alloc, answers]
    exact List.mem_append_left _ List.mem_cons_self
  · rw [pathTo_next follows, Radix.follow_append, tree.follow_set here (tree.agrees outside _) page]
    simp only [Option.bind_some, Radix.follow, Radix.set_same, tableOf_tableEntry]

lemma nextMutSteps_valid (valid : (phys.mem table (vaIndex va level)).valid = true) :
    nextMutSteps ttbr pgtype va level table phys = [] := if_pos (.inr valid)

lemma nextAllSteps_case (ready : Ready phys root (ttbr.root pgtype))
    (outside : vaIndex va .level0 ≠ recursiveSlot) (descends : Descends levels level last)
    (here : tableAt phys.mem root (pathTo va level.depth) = some table) :
    Lacks table (levels.map (vaIndex va)) phys ∧
        Exposes root va (nextAllSteps ttbr pgtype va levels table phys) ∨
      ¬ Lacks table (levels.map (vaIndex va)) phys ∧ nextAllSteps ttbr pgtype va levels table phys =
        [] := by
  induction levels generalizing level table with
  | nil => exact .inr ⟨fun lacks => (by cases lacks.1), rfl⟩
  | cons first _ ih =>
    obtain ⟨rfl, _, follows, later⟩ := descends
    rw [List.map_cons, Lacks, nextAllSteps]
    cases points : tableOf (phys.mem table (vaIndex va first)) with
    | some =>
      have one := nextMut_found outside follows points
        (ready.resolve_found outside here follows points)
      have valid : Entry.valid (phys.mem table (vaIndex va first)) = true := by
        rw [tableOf, Option.ite_none_right_eq_some, Bool.and_eq_true_iff] at points
        exact points.1.1
      rw [missing_found _ points, nextMutSteps_valid valid, one]
      exact ih later (ready.tree.tableAt_next outside follows here points)
    | none =>
      rw [missing_stop _ points]
      cases valid : Entry.valid (phys.mem table (vaIndex va first)) with
      | true =>
        rw [nextMutSteps_valid valid, nextMut_stopped outside valid points]
        exact .inr ⟨fun lacks => (by cases lacks.1), rfl⟩
      | false =>
        by_cases supplied : ∃ page supply, phys.supply = .ok page :: supply
        · obtain ⟨page, supply, answers⟩ := supplied
          exact .inl ⟨⟨rfl, page, supply, answers⟩, exposes_linked ready.tree outside follows here
            valid answers _⟩
        refine .inr ⟨fun lacks => supplied lacks.2, ?_⟩
        obtain ⟨err, refused⟩ : ∃ err, phys.alloc.1 = .error err := by
          rw [Phys.alloc]
          cases answers : phys.supply with
          | nil => exact ⟨_, rfl⟩
          | cons answer supply =>
            cases answer with
            | error err => exact ⟨err, rfl⟩
            | ok page => exact absurd ⟨page, supply, answers⟩ supplied
        have refused' : phys.alloc = (.error err, phys.alloc.2) := Prod.ext refused rfl
        have free : ¬ (first = .level0 ∧ vaIndex va first = recursiveSlot ∨
            (phys.mem table (vaIndex va first)).valid = true) := by
          rw [valid]
          exact not_or.mpr ⟨not_refused outside, Bool.false_ne_true⟩
        rw [nextMut_refused outside valid refused', nextMutSteps, if_neg free, refused']
        rfl

lemma nextAllSteps_refused (slot : vaIndex va .level0 = recursiveSlot) (phys : Phys) :
    nextAllSteps ttbr pgtype va size.tables root phys = [] := by
  have none : nextMutSteps ttbr pgtype va .level0 root phys = [] := if_pos (.inl ⟨rfl, slot⟩)
  have first : nextMut ttbr pgtype va .level0 root phys =
    some (.error .mappingRecursiveIndex, phys) := by
    rw [nextMut, if_pos ⟨rfl, slot⟩]
  cases size <;> simp only [PageSize.tables, nextAllSteps, none, first, List.append_nil]

/-! ## One call -/

lemma map_tables (va : VirtAddr) (size : PageSize) :
    size.tables.map (vaIndex va) = pathTo va size.level.depth := by
  cases size <;> rfl

lemma Callable.steps_case (callable : Callable phys root (ttbr.root pgtype)) (va : VirtAddr)
    (size : PageSize) :
    Publishes root va size phys ∧ Exposes root va (nextAllSteps ttbr pgtype va size.tables root
        (phys.set (ttbr.root pgtype) recursiveSlot (tableEntry root))) ∨
      ¬ Publishes root va size phys ∧ nextAllSteps ttbr pgtype va size.tables root
        (phys.set (ttbr.root pgtype) recursiveSlot (tableEntry root)) = [] := by
  by_cases slot : vaIndex va .level0 = recursiveSlot
  · exact .inr ⟨fun publishes => publishes.1 slot, nextAllSteps_refused slot _⟩
  have short : (pathTo va size.level.depth).length ≤ 4 :=
    Nat.le_succ_of_le (short_pathTo va size.level)
  have begins : ¬ [recursiveSlot] <+: pathTo va size.level.depth := fun starts =>
    indices_apart slot (starts.trans (List.take_prefix _ _))
  have same : Lacks root (size.tables.map (vaIndex va))
      (phys.set (ttbr.root pgtype) recursiveSlot (tableEntry root)) ↔
      Publishes root va size phys := by
    rw [Lacks, map_tables, missing, callable.open_agrees.look callable.tree short begins]
    exact ⟨fun lacks => ⟨slot, lacks⟩, fun publishes => publishes.2⟩
  rw [← same]
  exact nextAllSteps_case callable.opened slot (descends_tables size) rfl

/-- Every step of a call shows every address as before or as after the call, and leads no walk into
a table that is not cleared, exactly if the call publishes no table. -/
theorem gradual_iff (callable : Callable phys root (ttbr.root pgtype)) (valid : entry.valid = true)
    (block : entry.pageOrTable = false) :
    Gradual ttbr pgtype va root entry size phys ↔ ¬ Publishes root va size phys := by
  rcases callable.steps_case va size with ⟨publishes, exposes⟩ | ⟨silent, quiet⟩
  · refine ⟨fun gradual => ?_, fun silent => absurd publishes silent⟩
    obtain ⟨moment, member, page, count, uncleared, bound, reached⟩ := exposes
    have within : moment ∈ mapToSteps ttbr pgtype va root entry size phys :=
      List.mem_cons_of_mem _ (List.mem_append_left _ member)
    exact absurd reached ((gradual moment within va publishes.1).2 page count uncleared bound)
  refine ⟨fun _ => silent, fun _ moment member other elsewhere => ?_⟩
  have before := callable.open_agrees.walks callable.tree
  rw [mapToSteps, quiet, List.nil_append] at member
  rcases List.mem_cons.mp member with rfl | member
  · exact ⟨.inl (before other elsewhere), fun _ _ none => by cases none⟩
  by_cases slot : vaIndex va .level0 = recursiveSlot
  · rw [nextAll_refused slot] at member
    obtain rfl := List.mem_singleton.mp member
    exact ⟨.inr ⟨_, _, by rw [mapTo, nextAll_refused slot], rfl⟩, fun _ _ none => by cases none⟩
  obtain ⟨result, _, _, walked, grown, finds⟩ :=
    nextAll_spec callable.opened slot (descends_tables size) rfl
  rw [walked] at member
  cases result with
  | error =>
    obtain rfl := List.mem_singleton.mp member
    exact ⟨.inr ⟨_, _, by rw [mapTo, walked], rfl⟩, fun _ _ none => by cases none⟩
  | ok table =>
    have touched := (grown.written slot (finds table rfl) valid block).1
    have closed := (callable.close_agrees touched).walks touched.tree
    have returns := mapTo_ok valid walked
    rcases List.mem_cons.mp member with rfl | member
    · exact ⟨.inr ⟨_, _, returns, (closed other elsewhere).symm⟩, fun _ _ none => by cases none⟩
    split at member
    · obtain rfl := List.mem_singleton.mp member
      exact ⟨.inr ⟨_, _, returns, rfl⟩, fun _ _ none => by cases none⟩
    · cases member

/-- The first page of an empty address space needs tables. -/
theorem gradual_iff_firstPage :
    ¬ Gradual ⟨0, 0⟩ .user 0x1000 0 Call.firstPage.entry .page4K Call.firstPage.phys := by
  have callable : Callable Call.firstPage.phys 0 (Ttbr.root ⟨0, 0⟩ .user) :=
    Call.firstPage_admitted.callable (tree_empty rfl)
  rw [gradual_iff callable (by decide) (by decide), not_not]
  exact ⟨by decide, by decide +kernel, 1, _, rfl⟩

def stale : Phys :=
  initEmptyRootPageTable 0
    ⟨fun page _ => if page = 1 then Entry.rwUserData.withPhysAddr (pageAddr 7) else 0,
      [.ok 1, .ok 2, .ok 3]⟩

/-- An address that is mapped neither before nor after a call is mapped for EL0 on the way, by what
the page of a new table held. -/
theorem stale_table_walked : walk stale.mem 0 0x40000000 = none ∧
    (mapTo ⟨0, 0⟩ 0 Call.firstPage.entry 0x1000 .page4K .user stale).any
      (fun outcome => outcome.1 = .ok () ∧ walk outcome.2.mem 0 0x40000000 = none) = true ∧
    (mapToSteps ⟨0, 0⟩ .user 0x1000 0 Call.firstPage.entry .page4K stale).any (fun moment =>
      walk moment.mem 0 0x40000000 = some (.page1G, Entry.rwUserData.withPhysAddr (pageAddr 7))) =
        true := by
  refine ⟨?_, ?_, ?_⟩
  · decide +kernel
  · decide +kernel
  · decide +kernel

end R9x.Verif.PageTree
