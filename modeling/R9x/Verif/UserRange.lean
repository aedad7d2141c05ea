import R9x.Aarch64.UserAccess
import R9x.Verif.MapCalls

/-!
# Checked ranges of user memory

The software walk of `user_range_ok` ends at the same descriptor as the hardware's, whether or not
the address is in the recursive slot.
-/

namespace R9x.Verif.UserRange

open Lib Aarch64 Aarch64.Vm PageTree
open BitVec (ofNat toNat_ofNat)
open Radix (look)

/-! ## The software walk -/

section

variable {mem : Mem} {ttbr : Ttbr} {va : VirtAddr} {entry : Entry} {table : PageNo}

def validEntry (found : Nat × Entry) : Option Entry := if found.2.valid then some found.2 else none

lemma userLeafFrom_cons (tree : Tree mem ttbr.user) {level next : Level} {levels : List Level}
    {rest : List Index} (follows : level.next = some next)
    (leads : Radix.follow tableOf mem ttbr.user (pathTo va level.depth) = some table)
    (later : ∀ child, Radix.follow tableOf mem ttbr.user (pathTo va next.depth) = some child →
      userLeafFrom ttbr mem va levels child =
        (look tableOf mem child (vaIndex va next :: rest)).map validEntry) :
    userLeafFrom ttbr mem va (level :: levels) table =
      (look tableOf mem table (vaIndex va level :: vaIndex va next :: rest)).map validEntry := by
  have upper : level ≠ .level3 := by
    rintro rfl
    cases follows
  have isTable : ∀ entry : Entry, Entry.isTable entry level = Entry.pageOrTable entry := by
    simp [Entry.isTable, upper]
  rw [userLeafFrom, look]
  cases valid : Entry.valid (mem table (vaIndex va level)) with
  | false => simp [tableOf, validEntry, valid]
  | true =>
    cases flag : Entry.pageOrTable (mem table (vaIndex va level)) with
    | false => simp [tableOf, validEntry, valid, flag, isTable]
    | true =>
      have points : tableOf (mem table (vaIndex va level)) =
          some (Entry.addr (mem table (vaIndex va level))) := by
        rw [tableOf, valid, flag]
        rfl
      have short : (pathTo va level.depth).length ≤ 2 := by
        have depth := (depth_next follows).2
        rw [length_pathTo va (by omega)]
        exact depth
      have descriptor := tree.descriptor short leads points
      have slot : mem (ttbr.root .user) recursiveSlot = tableEntry ttbr.user := tree.self
      have resolved := resolve_table slot tree.self follows va leads descriptor
      have child : Radix.follow tableOf mem ttbr.user (pathTo va next.depth) =
          some (Entry.addr (mem table (vaIndex va level))) := by
        rw [pathTo_next follows, Radix.follow_append, leads]
        simp only [Option.bind_some, Radix.follow, points]
      simp only [isTable, flag, Bool.not_true, follows, Option.bind_some, resolved, points]
      exact later _ child

lemma userLeafEntry_eq (tree : Tree mem ttbr.user) : userLeafEntry ttbr mem va =
      (look tableOf mem ttbr.user (indices va)).map validEntry := by
  refine userLeafFrom_cons tree (show Level.level0.next = some .level1 from rfl) rfl
    fun one leads => ?_
  refine userLeafFrom_cons tree (show Level.level1.next = some .level2 from rfl) leads
    fun two leads => ?_
  exact userLeafFrom_cons tree (show Level.level2.next = some .level3 from rfl) leads fun _ _ => rfl

lemma userLeafEntry_some (tree : Tree mem ttbr.user) :
    userLeafEntry ttbr mem va = some (some entry) ↔ entry.valid = true ∧
      ∃ left, look tableOf mem ttbr.user (indices va) = some (left, entry) := by
  rw [userLeafEntry_eq tree, Option.map_eq_some_iff]
  constructor
  · rintro ⟨⟨left, _⟩, search, same⟩
    rw [validEntry, Option.ite_none_right_eq_some] at same
    obtain ⟨valid, same⟩ := same
    cases same
    exact ⟨valid, left, search⟩
  · rintro ⟨valid, _, search⟩
    exact ⟨_, search, if_pos valid⟩

end

/-! ## The words of a user tree -/

/-- The condition on a word of a tree that `map_to` built: at level 0 it points to a table, and at
level 3 it has the page flag. -/
def Leafy (level : Nat) (entry : Entry) : Prop :=
  entry.valid = true →
    (level = 0 → ∃ child, entry = tableEntry child) ∧ (level = 3 → entry.pageOrTable = true)

lemma lawful_leafy : Lawful Leafy where
  empty _ := fun valid => nomatch valid
  table level page upper := fun _ => ⟨fun _ => ⟨page, rfl⟩, fun last => by omega⟩

lemma leafy_entry (size : PageSize) (entry : Entry) :
    Leafy size.level.depth (size.entry entry) := by
  intro _
  cases size with
  | page4K =>
    have flag := Entry.pageOrTable_withPageOrTable entry true
    exact ⟨fun first => absurd first (by decide), fun _ => flag⟩
  | page2M | page1G =>
    exact ⟨fun first => absurd first (by decide), fun last => absurd last (by decide)⟩

/-- A tree that `map_to` built. -/
structure Built (mem : Mem) (root : PageNo) : Prop where
  tree : Tree mem root
  words : Words Leafy mem root

section

variable {mem : Mem} {root : PageNo}

lemma Built.step {call : Call} {next : Mem} (built : Built mem root)
    (admitted : Call.Admitted root mem call) (taken : Call.step root mem call = some next) :
    Built next root := by
  obtain ⟨_, after, _, returns, touched, -, keeps⟩ :=
    mapTo_spec (admitted.callable built.tree) call.va call.size admitted.valid admitted.block
  have same : Call.step root mem call = some after.mem := by
    rw [Call.step, Call.perform, returns]
    rfl
  rw [same] at taken
  cases taken
  have fits := leafy_entry call.size call.entry
  exact ⟨touched.tree, keeps Leafy lawful_leafy fits (admitted.agrees.words built.words)⟩

lemma built_run (empty : mem root = fun _ => 0) {calls : List Call} {reached : Mem}
    (admitted : Along (Call.step root) (Call.Admitted root)
      (initEmptyRootPageTable root ⟨mem, []⟩).mem calls)
    (runs : run (Call.step root) (initEmptyRootPageTable root ⟨mem, []⟩).mem calls = some reached) :
    Built reached root := by
  have keeps : ∀ mem call next, Built mem root → Call.Admitted root mem call →
      Call.step root mem call = some next → Built next root := fun _ _ _ => Built.step
  have start : Built (initEmptyRootPageTable root ⟨mem, []⟩).mem root :=
    ⟨tree_empty empty, words_empty lawful_leafy empty⟩
  exact run_invariant_along keeps start admitted runs

lemma Built.agrees {other : Mem} (built : Built mem root) (agrees : Agrees root mem other) :
    Built other root := ⟨agrees.tree built.tree, agrees.words built.words⟩

end

/-! ## One page -/

section

variable {mem : Mem} {ttbr : Ttbr} {va : VirtAddr} {entry : Entry}

lemma entryUserOk_iff (entry : Entry) (forWrite : Bool) :
    entryUserOk entry forWrite = true ↔ entry.accessPermission.user = true ∧
      (forWrite = true → entry.accessPermission = .allRw) := by
  rw [entryUserOk]
  cases entry.accessPermission <;> cases forWrite <;> simp [AccessPermission.user]

lemma leaf_of_upper {left : Nat} (valid : entry.valid = true) (upper : left ≤ 2)
    (page : left = 0 → entry.pageOrTable = true) :
    ∃ size, leaf (left, entry) = some (size, entry) := by
  obtain rfl | rfl | rfl : left = 0 ∨ left = 1 ∨ left = 2 := by omega
  · exact ⟨.page4K, by simp [leaf, valid, page rfl]⟩
  · exact ⟨.page2M, by simp [leaf, valid]⟩
  · exact ⟨.page1G, by simp [leaf, valid]⟩

/-- The walk of any address goes past level 0, and what it ends at outside the recursive slot is a
word of the tree. -/
lemma Built.looked {left : Nat} (built : Built mem ttbr.user) (valid : entry.valid = true)
    (search : look tableOf mem ttbr.user (indices va) = some (left, entry)) :
    left ≤ 2 ∧ (vaIndex va .level0 ≠ recursiveSlot → left = 0 → entry.pageOrTable = true) := by
  by_cases slot : vaIndex va .level0 = recursiveSlot
  · rw [indices, slot, look_slot (built.tree.self ▸ tableOf_tableEntry _) (by simp)] at search
    obtain ⟨before, _, _, -, -, -, length⟩ := Radix.look_cell search
    have three : 3 = before.length + 1 + left := length
    exact ⟨by omega, fun outside => absurd slot outside⟩
  have agree := agree_masked built.tree.unshared (show (indices va).length ≤ 4 from Nat.le_refl 4)
    (indices_apart slot)
  have seen := (Radix.look_eq agree).symm.trans search
  obtain ⟨before, index, table, begins, leads, rfl, length⟩ := Radix.look_cell seen
  have four : before.length + 1 + left = 4 := length.symm
  obtain ⟨first, last⟩ := built.words before table index (by omega) leads valid
  have lower : left ≠ 3 := by
    -- At level 0 a descriptor points to a table, and the search goes on there.
    rintro rfl
    obtain rfl : before = [] := List.eq_nil_of_length_eq_zero (by omega)
    cases leads
    obtain ⟨child, entry⟩ := first rfl
    have here : index = vaIndex va .level0 := (List.cons_prefix_cons.mp begins).1
    rw [indices, look, ← here, entry, tableOf_tableEntry] at seen
    obtain ⟨_, _, _, -, -, -, short⟩ := Radix.look_cell seen
    simp only [List.length_cons, List.length_nil] at short
    omega
  exact ⟨by omega, fun _ bottom => last (by omega)⟩

lemma Built.walk (built : Built mem ttbr.user) (outside : vaIndex va .level0 ≠ recursiveSlot)
    (found : userLeafEntry ttbr mem va = some (some entry)) :
    ∃ size, Vm.walk mem ttbr.user va = some (size, entry) := by
  obtain ⟨valid, left, search⟩ := (userLeafEntry_some built.tree).mp found
  obtain ⟨upper, page⟩ := built.looked valid search
  rw [Vm.walk, search, Option.bind_some]
  exact leaf_of_upper valid upper (page outside)

lemma Built.slot_refused (built : Built mem ttbr.user) (paged : Paged mem ttbr.user)
    (slot : vaIndex va .level0 = recursiveSlot)
    (found : userLeafEntry ttbr mem va = some (some entry)) (forWrite : Bool) :
    entryUserOk entry forWrite = false := by
  obtain ⟨valid, _, searched⟩ := (userLeafEntry_some built.tree).mp found
  rw [indices, slot, look_slot (built.tree.self ▸ tableOf_tableEntry _) (by simp)] at searched
  obtain ⟨_, rfl⟩ := look_table built.tree paged (by simp) searched valid
  rw [entryUserOk, accessPermission_tableEntry]

end

/-! ## Every byte of an accepted range -/

/-- EL0 may read a byte, and write it if asked: its address is one that is translated under the user
root, and the walk ends in a leaf that allows it. -/
structure Accessible (mem : Mem) (root : PageNo) (forWrite : Bool) (byte : Nat) : Prop where
  canonical : byte < 2 ^ 48
  leaf : ∃ size entry, walk mem root (ofNat 64 byte) = some (size, entry) ∧
    entry.valid = true ∧ entry.accessPermission.user = true ∧
    (forWrite = true → entry.accessPermission = .allRw)

/-- The descriptor that the walk of the low 48 bits of an address ends at is valid and grants EL0
the access. -/
def Granted (mem : Mem) (root : PageNo) (forWrite : Bool) (byte : Nat) : Prop :=
  ∃ left entry, look tableOf mem root (indices (ofNat 64 byte)) = some (left, entry) ∧
    entry.valid = true ∧ entryUserOk entry forWrite = true

/-- A range the check is sound for: it is empty, it reaches into the kernel half, or access to some
byte is not granted; or it lies below 48 bits and no walk ends at a block descriptor at level 3,
where the hardware takes it for no leaf. -/
def Checkable (mem : Mem) (root : PageNo) (va len : Nat) (forWrite : Bool) : Prop :=
  len = 0 ∨ kzero < va + len ∨
    (∃ byte, va ≤ byte ∧ byte < va + len ∧ ¬ Granted mem root forWrite byte) ∨
    va + len ≤ 2 ^ 48 ∧ ∀ byte, va ≤ byte → byte < va + len → ∀ entry,
      look tableOf mem root (indices (ofNat 64 byte)) = some (0, entry) → entry.pageOrTable = true

/-- A range that can be written without a store to the tables it is translated by. -/
structure OffTables (mem : Mem) (root : PageNo) (va len : Nat) : Prop where
  canonical : va + len ≤ 2 ^ 48
  below : Paged mem root ∨ va + len ≤ 511 * 2 ^ 39
  data : ∀ byte, va ≤ byte → byte < va + len → ∀ size entry,
    walk mem root (ofNat 64 byte) = some (size, entry) →
    ¬ InTree mem root (frame size entry (ofNat 64 byte))

section

variable {mem : Mem} {ttbr : Ttbr} {forWrite : Bool} {va len byte : Nat}

def PageOk (ttbr : Ttbr) (mem : Mem) (forWrite : Bool) (page : VirtAddr) : Prop :=
  ∃ entry, userLeafEntry ttbr mem page = some (some entry) ∧ entryUserOk entry forWrite = true

lemma pagesOk_iff {count : Nat} {page : VirtAddr} :
    pagesOk ttbr mem forWrite count page = some true ↔
      ∀ k < count, PageOk ttbr mem forWrite (page + ofNat 64 (k * pageSize4K)) := by
  induction count generalizing page with
  | zero => simp [pagesOk]
  | succ _ ih =>
    have first : page + ofNat 64 (0 * pageSize4K) = page := by simp
    have shifted : ∀ k, page + ofNat 64 ((k + 1) * pageSize4K) =
        page + ofNat 64 pageSize4K + ofNat 64 (k * pageSize4K) := by
      intro _
      rw [BitVec.add_assoc, ← BitVec.ofNat_add]
      rw [Nat.add_mul, Nat.one_mul, Nat.add_comm]
    rw [Nat.forall_lt_succ_left]
    simp only [shifted, first, ← ih]
    rw [pagesOk, PageOk]
    cases found : userLeafEntry ttbr mem page with
    | none => simp
    | some leaf =>
      cases leaf with
      | none => simp
      | some entry => cases allowed : entryUserOk entry forWrite <;> simp [allowed]

lemma userRangeOk_iff (some : 0 < len) :
    userRangeOk ttbr mem va len forWrite = .some true ↔ va + len < 2 ^ 64 ∧ va + len ≤ kzero ∧
      ∀ byte, va ≤ byte → byte < va + len →
        PageOk ttbr mem forWrite (ofNat 64 (byte / pageSize4K * pageSize4K)) := by
  have size : pageSize4K = 4096 := rfl
  have page : ∀ k, ofNat 64 (va / pageSize4K * pageSize4K) +
      ofNat 64 (k * pageSize4K) = ofNat 64 ((va / pageSize4K + k) * pageSize4K) := by
    intro _
    rw [← BitVec.ofNat_add, ← Nat.add_mul]
  by_cases small : va + len < 2 ^ 64
  swap
  · have overflows : checkedAdd va len = none := if_neg small
    simp only [userRangeOk, overflows, small, false_and, Option.some.injEq, Bool.false_eq_true]
  by_cases low : va + len ≤ kzero
  swap
  · simp only [userRangeOk, checkedAdd_of_lt small, gt_iff_lt, Nat.lt_of_not_le low, if_true, low,
      false_and, and_false, Option.some.injEq, Bool.false_eq_true]
  have high : ¬ va + len > kzero := by omega
  have filled : len ≠ 0 := by omega
  simp only [userRangeOk, checkedAdd_of_lt small, high, filled, if_false, pagesOk_iff, small, low,
    true_and, page]
  constructor
  · intro each byte above below
    have same : va / pageSize4K + (byte / pageSize4K - va / pageSize4K) = byte / pageSize4K := by
      rw [size]
      omega
    have checked := each (byte / pageSize4K - va / pageSize4K) (by rw [size]; omega)
    rwa [same] at checked
  · intro each k bound
    -- The first byte of the range in this page.
    have same : max va ((va / pageSize4K + k) * pageSize4K) / pageSize4K = va / pageSize4K + k := by
      rw [size]
      omega
    have checked := each (max va ((va / pageSize4K + k) * pageSize4K)) (by omega)
      (by rw [size] at bound ⊢; omega)
    rwa [same] at checked

lemma indices_pageStart (small : byte < 2 ^ 64) :
    indices (ofNat 64 (byte / pageSize4K * pageSize4K)) = indices (ofNat 64 byte) := by
  have size : pageSize4K = 4096 := rfl
  apply indices_page
  rw [toNat_ofNat, toNat_ofNat, size]
  omega

lemma not_slot_of_lt (below : byte < 511 * 2 ^ 39) :
    vaIndex (ofNat 64 byte) .level0 ≠ recursiveSlot := by
  intro slot
  have number := toNat_vaIndex (ofNat 64 byte) .level0
  rw [slot, toNat_ofNat, Nat.mod_eq_of_lt (by omega : byte < 2 ^ 64)] at number
  have last : recursiveSlot.toNat = 511 := rfl
  rw [last, Level.shift] at number
  omega

lemma Built.accessible (built : Built mem ttbr.user)
    (low : va + len ≤ 2 ^ 48) (blocks : Paged mem ttbr.user ∨ va + len ≤ 511 * 2 ^ 39)
    (accepted : userRangeOk ttbr mem va len forWrite = some true)
    (above : va ≤ byte) (below : byte < va + len) :
    Accessible mem ttbr.user forWrite byte ∧ vaIndex (ofNat 64 byte) .level0 ≠ recursiveSlot := by
  have small : byte < 2 ^ 64 := by omega
  have page := indices_pageStart small
  have index := (List.cons.inj page).1
  obtain ⟨entry, found, allowed⟩ := ((userRangeOk_iff (by omega)).mp accepted).2.2 byte above below
  have outside : vaIndex (ofNat 64 byte) .level0 ≠ recursiveSlot := by
    rcases blocks with paged | short
    · intro slot
      rw [← index] at slot
      rw [built.slot_refused paged slot found forWrite] at allowed
      cases allowed
    · exact not_slot_of_lt (by omega)
  have outside' := outside
  rw [← index] at outside'
  obtain ⟨size, walked⟩ := built.walk outside' found
  rw [Vm.walk, page] at walked
  obtain ⟨⟨left, cell⟩, searched, ends⟩ := Option.bind_eq_some_iff.mp walked
  obtain ⟨valid, rfl⟩ := leaf_some ends
  obtain ⟨user, writable⟩ := (entryUserOk_iff _ forWrite).mp allowed
  exact ⟨⟨by omega, size, _, walked, valid, user, writable⟩, outside⟩

lemma Built.accepts (built : Built mem ttbr.user) (some : 0 < len)
    (accessible : ∀ byte, va ≤ byte → byte < va + len → Accessible mem ttbr.user forWrite byte) :
    userRangeOk ttbr mem va len forWrite = .some true := by
  have last := (accessible (va + len - 1) (by omega) (by omega)).canonical
  have half : kzero = 0xffff800000000000 := rfl
  refine (userRangeOk_iff some).mpr ⟨by omega, by omega, fun byte above below => ?_⟩
  obtain ⟨canonical, size, entry, walked, valid, user, writable⟩ := accessible byte above below
  rw [Vm.walk, ← indices_pageStart (by omega)] at walked
  obtain ⟨⟨left, _⟩, searched, ends⟩ := Option.bind_eq_some_iff.mp walked
  obtain ⟨-, rfl⟩ := leaf_some ends
  exact ⟨entry, (userLeafEntry_some built.tree).mpr ⟨valid, left, searched⟩,
    (entryUserOk_iff _ forWrite).mpr ⟨user, writable⟩⟩

end

/-! ## The copies -/

section

variable {ttbr : Ttbr} {root : PageNo} {forWrite : Bool} {mem : Mem} {va : Nat}

lemma Accessible.userWalk {byte : Nat} (accessible : Accessible mem root forWrite byte) :
    ∃ size entry, userWalk mem root (ofNat 64 byte) = some (size, entry) ∧
      walk mem root (ofNat 64 byte) = some (size, entry) ∧
      (forWrite = true → entry.accessPermission = .allRw) := by
  obtain ⟨canonical, size, entry, walked, -, -, writable⟩ := accessible
  have fits : (ofNat 64 byte).toNat < 2 ^ 48 := by
    rw [toNat_ofNat, Nat.mod_eq_of_lt (by omega : byte < 2 ^ 64)]
    exact canonical
  refine ⟨size, entry, ?_, walked, writable⟩
  rw [Aarch64.userWalk, if_pos fits, walked]

lemma mapM_some {α β : Type} {f : α → Option β} {list : List α}
    (each : ∀ element ∈ list, ∃ value, f element = some value) :
    ∃ values, list.mapM f = some values := by
  induction list with
  | nil => exact ⟨[], rfl⟩
  | cons element _ ih =>
    obtain ⟨value, found⟩ := each element List.mem_cons_self
    obtain ⟨values, rest⟩ := ih fun other member => each other (List.mem_cons_of_mem _ member)
    refine ⟨value :: values, ?_⟩
    rw [List.mapM_cons, found, rest]
    rfl

lemma readUser_returns {len : Nat} (accepted : userRangeOk ttbr mem va len false = some true)
    (accessible : ∀ byte, va ≤ byte → byte < va + len → Accessible mem ttbr.user false byte) :
    ∃ bytes, readUser ttbr mem va len = some (some bytes) := by
  rw [readUser]
  split
  · exact ⟨[], rfl⟩
  have each : ∀ k ∈ List.range len, ∃ byte, loadByte ttbr mem (va + k) = some byte := by
    intro k member
    have bound := List.mem_range.mp member
    obtain ⟨size, entry, walked, -, -⟩ := (accessible (va + k) (by omega) (by omega)).userWalk
    rw [loadByte, walked]
    exact ⟨_, rfl⟩
  obtain ⟨bytes, read⟩ := mapM_some each
  refine ⟨bytes, ?_⟩
  rw [accepted]
  simp only [read, Option.map_some]

lemma byteAt_setByte (row : Index → Entry) {offset other : Nat} (small : offset < pageSize4K)
    (below : other < pageSize4K) (byte : Byte) :
    byteAt (setByte row offset byte) other = if other = offset then byte else byteAt row other := by
  have size : pageSize4K = 4096 := rfl
  have words : ofNat 9 (other / 8) = ofNat 9 (offset / 8) ↔ other / 8 = offset / 8 := by
    rw [← BitVec.toNat_inj, toNat_ofNat, toNat_ofNat, Nat.mod_eq_of_lt (by omega),
      Nat.mod_eq_of_lt (by omega)]
  unfold byteAt setByte
  by_cases word : other / 8 = offset / 8
  · rw [words.mpr word, Function.update_self]
    by_cases same : other = offset
    · rw [if_pos same, same, Bits.extract_setField _ _ _ (by omega)]
    · rw [if_neg same, Bits.extract_setField_other _ _ _ _ _ (by omega)]
  have apart : other ≠ offset := fun same => word (by rw [same])
  rw [if_neg apart, Function.update_of_ne (fun same => word (words.mp same))]

/-- Where a byte of user memory is: its page, and its offset there. -/
def place (mem : Mem) (root : PageNo) (va : Nat) : Option (PageNo × Nat) :=
  (userWalk mem root (ofNat 64 va)).map fun found =>
    (frame found.1 found.2 (ofNat 64 va), va % pageSize4K)

/-- Consecutive bytes of user memory have been written, and no others. -/
structure Stored (mem : Mem) (root : PageNo) (va : Nat) (bytes : List Byte) (before after : Phys) :
    Prop where
  kept : ∀ page offset, offset < pageSize4K →
    (∀ k < bytes.length, place mem root (va + k) ≠ some (page, offset)) →
    byteAt (after.mem page) offset = byteAt (before.mem page) offset
  written : bytes.length ≤ pageSize4K → ∀ (k : Nat) (bound : k < bytes.length) (page : PageNo)
    (offset : Nat), place mem root (va + k) = some (page, offset) →
    byteAt (after.mem page) offset = bytes[k]

lemma Stored.cons {byte : Byte} {rest : List Byte} {page : PageNo}
    {phys after : Phys} (here : place mem root va = some (page, va % pageSize4K))
    (stored : Stored mem root (va + 1) rest { phys with
      mem := Function.update phys.mem page (setByte (phys.mem page) (va % pageSize4K) byte) }
        after) :
    Stored mem root va (byte :: rest) phys after := by
  have small : va % pageSize4K < pageSize4K := Nat.mod_lt _ (by decide)
  have first : ∀ other offset, offset < pageSize4K →
      byteAt (Function.update phys.mem page (setByte (phys.mem page) (va % pageSize4K) byte) other)
        offset = if other = page ∧ offset = va % pageSize4K then byte else byteAt (phys.mem other)
          offset := by
    intro other _ below
    by_cases same : other = page
    · rw [same, Function.update_self, byteAt_setByte _ small below]
      simp only [true_and]
    · rw [Function.update_of_ne same, if_neg fun both => same both.1]
  have offsetOf : ∀ k other offset, place mem root (va + k) = some (other, offset) →
      offset = (va + k) % pageSize4K := by
    intro _ _ _ found
    obtain ⟨_, _, same⟩ := Option.map_eq_some_iff.mp found
    exact (Prod.mk.inj same).2.symm
  constructor
  · intro other offset below apart
    rw [stored.kept other offset below, first other offset below, if_neg]
    · rintro ⟨rfl, rfl⟩
      exact apart 0 (by simp) here
    · intro k bound found
      rw [Nat.add_assoc, Nat.add_comm 1] at found
      exact apart (k + 1) (by simpa using bound) found
  · intro short k bound other offset found
    rw [List.length_cons] at short bound
    cases k with
    | zero =>
      rw [Nat.add_zero, here] at found
      cases found
      rw [stored.kept page _ small, first page _ small, if_pos ⟨rfl, rfl⟩]
      · rfl
      · -- Later bytes have other offsets: the range is not longer than a page.
        intro k later again
        have offset := offsetOf (1 + k) page _ (by rw [← Nat.add_assoc]; exact again)
        have size : pageSize4K = 4096 := rfl
        rw [size] at offset short
        omega
    | succ k =>
      rw [Nat.add_comm k, ← Nat.add_assoc] at found
      exact stored.written (by omega) k (by omega) other offset found

lemma storeBytes_spec (tree : Tree mem ttbr.user) {bytes : List Byte}
    {phys : Phys} (agrees : Agrees ttbr.user mem phys.mem)
    (accessible : ∀ byte, va ≤ byte → byte < va + bytes.length →
      Accessible mem ttbr.user true byte ∧ vaIndex (ofNat 64 byte) .level0 ≠ recursiveSlot)
    (data : ∀ byte, va ≤ byte → byte < va + bytes.length → ∀ size entry,
      walk mem ttbr.user (ofNat 64 byte) = some (size, entry) →
      ¬ InTree mem ttbr.user (frame size entry (ofNat 64 byte))) :
    ∃ after, storeBytes ttbr va bytes phys = some after ∧ Agrees ttbr.user mem after.mem ∧
      Stored mem ttbr.user va bytes phys after := by
  induction bytes generalizing va phys with
  | nil =>
    refine ⟨phys, rfl, agrees, fun _ _ _ _ => rfl, ?_⟩
    intro _ k bound
    exact absurd bound (Nat.not_lt_zero k)
  | cons byte rest ih =>
    rw [List.length_cons] at accessible data
    obtain ⟨reached, outside⟩ := accessible va (by omega) (by omega)
    obtain ⟨size, entry, walked, plain, writable⟩ := reached.userWalk
    have foreign := data va (by omega) (by omega) size entry plain
    have here : place mem ttbr.user va = some (frame size entry (ofNat 64 va),
      va % pageSize4K) := by
      rw [place, walked]
      rfl
    have now : userWalk phys.mem ttbr.user (ofNat 64 va) = some (size, entry) := by
      rw [userWalk, agrees.walks tree _ outside]
      exact walked
    have allowed : entry.accessPermission.kernelWritable = true := by
      rw [writable rfl]
      rfl
    have foreign' : ¬ InTree phys.mem ttbr.user (frame size entry (ofNat 64 va)) := by
      rwa [agrees.inTree]
    have agrees' : Agrees ttbr.user mem { phys with
        mem := Function.update phys.mem (frame size entry (ofNat 64 va))
          (setByte (phys.mem (frame size entry (ofNat 64 va))) (va % pageSize4K) byte) }.mem :=
      agrees.trans (agrees_update _ foreign')
    obtain ⟨after, stores, agree, stored⟩ :=
      @ih (va + 1) _ agrees' (fun other above below => accessible other (by omega) (by omega))
        (fun other above below => data other (by omega) (by omega))
    refine ⟨after, ?_, agree, .cons here stored⟩
    rw [storeBytes, storeByte, now]
    simp only [allowed, if_true, Option.bind_some]
    exact stores

end

/-! ## Soundness of the check -/

section

variable {ttbr : Ttbr} {phys : Phys} {mem : Mem} {va len : Nat} {forWrite : Bool}

lemma pageOk_iff_granted {byte : Nat} (tree : Tree mem ttbr.user) (small : byte < 2 ^ 64) :
    PageOk ttbr mem forWrite (ofNat 64 (byte / pageSize4K * pageSize4K)) ↔
      Granted mem ttbr.user forWrite byte := by
  constructor
  · rintro ⟨entry, found, allowed⟩
    obtain ⟨valid, left, search⟩ := (userLeafEntry_some tree).mp found
    rw [indices_pageStart small] at search
    exact ⟨left, entry, search, valid, allowed⟩
  · rintro ⟨left, entry, search, valid, allowed⟩
    rw [← indices_pageStart small] at search
    exact ⟨entry, (userLeafEntry_some tree).mpr ⟨valid, left, search⟩, allowed⟩

lemma Built.accessible_of_granted {byte : Nat} (built : Built mem ttbr.user)
    (granted : Granted mem ttbr.user forWrite byte) (canonical : byte < 2 ^ 48)
    (page : ∀ entry, look tableOf mem ttbr.user (indices (ofNat 64 byte)) = some (0, entry) →
      entry.pageOrTable = true) : Accessible mem ttbr.user forWrite byte := by
  obtain ⟨left, entry, search, valid, allowed⟩ := granted
  obtain ⟨upper, -⟩ := built.looked valid search
  obtain ⟨size, ends⟩ := leaf_of_upper valid upper fun bottom => page entry (bottom ▸ search)
  obtain ⟨user, writable⟩ := (entryUserOk_iff entry forWrite).mp allowed
  exact ⟨canonical, size, entry, by rw [Vm.walk, search, Option.bind_some, ends], valid, user,
    writable⟩

lemma Accessible.page {byte : Nat} {root : PageNo} (accessible : Accessible mem root forWrite byte)
    {entry : Entry} (search : look tableOf mem root (indices (ofNat 64 byte)) = some (0, entry)) :
    entry.pageOrTable = true := by
  obtain ⟨size, _, walked, -⟩ := accessible.leaf
  rw [Vm.walk, search, Option.bind_some, Vm.leaf, Option.ite_none_right_eq_some, Bool.and_eq_true]
    at walked
  exact walked.1.2

/-- Every byte of an accepted range is accessible exactly if the check is sound for the range. -/
lemma Built.accessible_iff (built : Built mem ttbr.user) :
    (userRangeOk ttbr mem va len forWrite = some true →
      ∀ byte, va ≤ byte → byte < va + len → Accessible mem ttbr.user forWrite byte) ↔
      Checkable mem ttbr.user va len forWrite := by
  have half : kzero = 0xffff800000000000 := rfl
  constructor
  · intro sound
    by_cases empty : len = 0
    · exact .inl empty
    by_cases high : kzero < va + len
    · exact .inr (.inl high)
    by_cases refused : ∃ byte, va ≤ byte ∧ byte < va + len ∧ ¬ Granted mem ttbr.user forWrite byte
    · exact .inr (.inr (.inl refused))
    push Not at refused
    have accepted : userRangeOk ttbr mem va len forWrite = some true :=
      (userRangeOk_iff (by omega)).mpr ⟨by omega, by omega, fun byte above below =>
        (pageOk_iff_granted built.tree (by omega)).mpr (refused byte above below)⟩
    have accessible := sound accepted
    have last := (accessible (va + len - 1) (by omega) (by omega)).canonical
    exact .inr (.inr (.inr ⟨by omega, fun byte above below entry search =>
      (accessible byte above below).page search⟩))
  · intro checkable accepted byte above below
    obtain ⟨small, low, pages⟩ := (userRangeOk_iff (by omega)).mp accepted
    have granted : ∀ byte, va ≤ byte → byte < va + len → Granted mem ttbr.user forWrite byte :=
      fun byte above below => (pageOk_iff_granted built.tree (by omega)).mp (pages byte above below)
    rcases checkable with empty | high | ⟨other, above', below', refused⟩ | ⟨canonical, page⟩
    · omega
    · omega
    · exact absurd (granted other above' below') refused
    · exact built.accessible_of_granted (granted byte above below) (by omega)
        (page byte above below)

/-- What an accepted range promises: every byte is accessible to EL0, and a read of it does not
fault. -/
structure Safe (ttbr : Ttbr) (phys : Phys) (va len : Nat) (forWrite : Bool) : Prop where
  bytes : ∀ byte, va ≤ byte → byte < va + len → Accessible phys.mem ttbr.user forWrite byte
  read : forWrite = false → ∃ bytes, readUser ttbr phys.mem va len = some (some bytes)

lemma Built.safe_iff (built : Built phys.mem ttbr.user) :
    (userRangeOk ttbr phys.mem va len forWrite = some true → Safe ttbr phys va len forWrite) ↔
      Checkable phys.mem ttbr.user va len forWrite := by
  rw [← built.accessible_iff]
  constructor
  · exact fun safe accepted => (safe accepted).bytes
  · intro accessible accepted
    refine ⟨accessible accepted, fun reading => ?_⟩
    subst reading
    exact readUser_returns accepted (accessible accepted)

lemma Built.writes (built : Built phys.mem ttbr.user) {bytes : List Byte}
    (off : OffTables phys.mem ttbr.user va bytes.length)
    (accepted : userRangeOk ttbr phys.mem va bytes.length true = some true) :
    ∃ after, writeUser ttbr va bytes phys = some (some bytes.length, after) := by
  obtain ⟨after, stored, -⟩ := storeBytes_spec built.tree (fun _ _ => rfl)
    (fun _ above below => built.accessible off.canonical off.below accepted above below) off.data
  rw [writeUser]
  split
  · rename_i none
    exact ⟨phys, by rw [none]⟩
  refine ⟨after, ?_⟩
  rw [accepted]
  simp only [stored, Option.map_some]

end

lemma performed_any {call : Call} {root : PageNo} (wanted : Phys → Prop) [DecidablePred wanted]
    (performed : ((call.perform root).any fun outcome =>
      outcome.1.isOk && decide (wanted outcome.2)) = true) :
    ∃ phys, call.perform root = some (.ok (), phys) ∧ wanted phys := by
  obtain ⟨⟨result, phys⟩, returns, passes⟩ := (Option.any_eq_true _ _).mp performed
  obtain ⟨succeeded, tested⟩ := Bool.and_eq_true_iff.mp passes
  cases result with
  | error => cases succeeded
  | ok => exact ⟨phys, returns, of_decide_eq_true tested⟩

end R9x.Verif.UserRange
