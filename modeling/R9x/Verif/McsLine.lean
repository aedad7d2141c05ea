import R9x.Port.McsLock

/-!
# The line of an MCS lock

The calls between their swap and the end of their `unlock` form a line, in the order of the swaps.
-/

namespace R9x.Verif.McsLine

open Port.McsLock

variable {Node : Type} {history : History Node}

/-! ## Phases and places -/

def queued : Phase Node → Bool
  | .idle | .storeNext | .storeUnlocked | .swap => false
  | _ => true

/-- The call is between the return of `lock` and the end of its `unlock`. -/
def entered : Phase Node → Bool
  | .held | .loadNext | .compareExchange | .spinNext | .reloadNext | .storeReleased _ => true
  | _ => false

def waiting : Phase Node → Bool
  | .storeLocked _ | .storeSuccessor _ | .spinLocked => true
  | _ => false

lemma queued_of_waiting {phase : Phase Node} (waits : waiting phase = true) :
    queued phase = true := by
  cases phase with
  | storeLocked _ | storeSuccessor _ | spinLocked => rfl
  | _ => cases waits

lemma queued_of_entered {phase : Phase Node} (inside : entered phase = true) :
    queued phase = true := by
  cases phase with
  | held | loadNext | compareExchange | spinNext | reloadNext | storeReleased _ => rfl
  | _ => cases inside

def Place (history : History Node) (place : Nat) (node : Node) : Prop :=
  history.finished ≤ place ∧ ∃ predecessor, history.swaps[place]? = some (node, predecessor)

lemma Place.node_unique {place : Nat} {one two : Node}
    (here : Place history place one) (there : Place history place two) : one = two := by
  obtain ⟨-, _, swapped⟩ := here
  obtain ⟨-, _, swapped'⟩ := there
  exact (Prod.mk.inj (Option.some.inj (swapped.symm.trans swapped'))).1

lemma Place.inside {place : Nat} {node : Node} (here : Place history place node) :
    place < history.swaps.length := by
  obtain ⟨-, _, swapped⟩ := here
  exact (List.getElem?_eq_some_iff.mp swapped).1

def Leads (mcs : Mcs Node) (node : Node) : Prop :=
  (mcs.phase node = .spinLocked ∧ mcs.locked node = false) ∨ mcs.phase node = .returning ∨
    entered (mcs.phase node) = true

/-- The call waits for the one before it. -/
inductive Waits (mcs : Mcs Node) (previous node : Node) : Prop where
  | unmarked (phase : mcs.phase node = .storeLocked previous) (next : mcs.next previous = none)
  | marked (phase : mcs.phase node = .storeSuccessor previous) (next : mcs.next previous = none)
      (locked : mcs.locked node = true)
  | told (phase : mcs.phase node = .spinLocked) (next : mcs.next previous = some node)
      (locked : mcs.locked node = true)

lemma Waits.phase {mcs : Mcs Node} {previous node : Node} (waits : Waits mcs previous node) :
    waiting (mcs.phase node) = true := by
  cases waits with
  | unmarked at_ _ | marked at_ _ _ | told at_ _ _ =>
    rw [at_]
    rfl

lemma Waits.congr {mcs after : Mcs Node} {previous node : Node} (waits : Waits mcs previous node)
    (phase : after.phase node = mcs.phase node) (next : after.next previous = mcs.next previous)
    (locked : after.locked node = mcs.locked node) : Waits after previous node := by
  cases waits with
  | unmarked at_ none => exact .unmarked (phase.trans at_) (next.trans none)
  | marked at_ none flag => exact .marked (phase.trans at_) (next.trans none) (locked.trans flag)
  | told at_ some flag => exact .told (phase.trans at_) (next.trans some) (locked.trans flag)

/-- The calls form a line in the order of their swaps. -/
structure Line (mcs : Mcs Node) (history : History Node) : Prop where
  bound : history.finished ≤ history.swaps.length
  placed : ∀ node, queued (mcs.phase node) = true → Place history (history.ticket node) node
  stands : ∀ place node, Place history place node →
    queued (mcs.phase node) = true ∧ history.ticket node = place
  empty : history.finished = history.swaps.length → mcs.queue = none
  tail : ∀ place node, Place history place node → place + 1 = history.swaps.length →
    mcs.queue = some node
  first : ∀ node, Place history history.finished node → Leads mcs node
  waits : ∀ place previous node predecessor, Place history place previous →
    history.swaps[place + 1]? = some (node, predecessor) →
    predecessor = some previous ∧ Waits mcs previous node
  last : ∀ place node, Place history place node → place + 1 = history.swaps.length →
    mcs.next node = none
  fresh : ∀ node, mcs.phase node = .storeUnlocked ∨ mcs.phase node = .swap → mcs.next node = none
  linked : ∀ node, mcs.phase node = .reloadNext → mcs.next node ≠ none
  releasing : ∀ node successor, mcs.phase node = .storeReleased successor → mcs.next node =
    some successor

/-- What the `next` field of a call holds, by its phase. -/
structure Links (phase : Phase Node) (next : Option Node) : Prop where
  fresh : phase = .storeUnlocked ∨ phase = .swap → next = none
  linked : phase = .reloadNext → next ≠ none
  releasing : ∀ successor, phase = .storeReleased successor → next = some successor

def quiet : Phase Node → Bool
  | .storeUnlocked | .swap | .reloadNext | .storeReleased _ => false
  | _ => true

variable {next : Option Node}

lemma links_quiet {phase : Phase Node} (quiet : quiet phase = true) : Links phase next := by
  constructor
  · rintro (rfl | rfl) <;> cases quiet
  · rintro rfl
    cases quiet
  · rintro _ rfl
    cases quiet

lemma links_outside {phase : Phase Node} (outside : queued phase = false) (none : next = none) :
    Links phase next := by
  constructor
  · exact fun _ => none
  · rintro rfl
    cases outside
  · rintro _ rfl
    cases outside

lemma links_reload (some : next ≠ none) : Links .reloadNext next := by
  refine ⟨?_, fun _ => some, ?_⟩
  · rintro (released | released) <;> cases released
  · intro _ released
    cases released

lemma quiet_of_waiting {phase : Phase Node} (waits : waiting phase = true) :
    quiet phase = true := by
  cases phase with
  | storeLocked _ | storeSuccessor _ | spinLocked => rfl
  | _ => cases waits

namespace Line

variable {mcs : Mcs Node} {node : Node}

section

variable (line : Line mcs history)
include line

lemma links (node : Node) : Links (mcs.phase node) (mcs.next node) :=
  ⟨line.fresh node, line.linked node, line.releasing node⟩

lemma place_unique {one two : Nat} (here : Place history one node)
    (there : Place history two node) : one = two :=
  (line.stands one node here).2.symm.trans (line.stands two node there).2

lemma role (inLine : queued (mcs.phase node) = true) :
    (Place history history.finished node ∧ Leads mcs node) ∨
      ∃ place previous, Place history place previous ∧ Place history (place + 1) node ∧
        Waits mcs previous node := by
  have place := line.placed node inLine
  obtain ⟨after, predecessor, swapped⟩ := line.placed node inLine
  by_cases first : history.ticket node = history.finished
  · rw [first] at place
    exact Or.inl ⟨place, line.first node place⟩
  obtain ⟨before, ticket⟩ : ∃ before, history.ticket node = before + 1 :=
    ⟨history.ticket node - 1, by omega⟩
  rw [ticket] at swapped place
  have inside : before < history.swaps.length := by
    have bounded := (List.getElem?_eq_some_iff.mp swapped).1
    omega
  have previous : Place history before history.swaps[before].1 :=
    ⟨by omega, history.swaps[before].2, List.getElem?_eq_getElem inside⟩
  exact Or.inr ⟨before, _, previous, place,
    (line.waits before _ node predecessor previous swapped).2⟩

lemma leads (leading : mcs.phase node = .returning ∨ entered (mcs.phase node) = true) :
    Place history history.finished node := by
  have inLine : queued (mcs.phase node) = true := by
    rcases leading with returning | inside
    · rw [returning]
      rfl
    · exact queued_of_entered inside
  rcases line.role inLine with ⟨place, -⟩ | ⟨-, _, -, -, waits⟩
  · exact place
  have phase := waits.phase
  generalize mcs.phase node = at_ at leading phase
  cases at_ with
  | storeLocked _ | storeSuccessor _ | spinLocked => exact leading.elim nofun nofun
  | _ => cases phase

lemma leads_at {phase : Phase Node} (at_ : mcs.phase node = phase) (inside : entered phase = true) :
    Place history history.finished node := line.leads (.inr (at_ ▸ inside))

lemma alone (place : Place history history.finished node) (tail : mcs.queue = some node) :
    history.finished + 1 = history.swaps.length := by
  have inside := place.inside
  obtain ⟨last, whole⟩ : ∃ last, last + 1 = history.swaps.length :=
    ⟨history.swaps.length - 1, by omega⟩
  have final : Place history last history.swaps[last].1 :=
    ⟨by omega, history.swaps[last].2, List.getElem?_eq_getElem (by omega)⟩
  have same : history.swaps[last].1 = node :=
    (Option.some.inj (tail.symm.trans (line.tail last _ final whole))).symm
  rw [same] at final
  rw [line.place_unique place final]
  exact whole

end

variable {previous : Node} (line : Line mcs history)
include line

/-- A call that has swapped in behind another, and not yet told it, waits for it. -/
lemma behind (phase : mcs.phase node = .storeLocked previous ∨ mcs.phase node =
    .storeSuccessor previous) :
    ∃ place other, Place history place other ∧ Place history (place + 1) node ∧
      Waits mcs other node := by
  have waits : waiting (mcs.phase node) = true := by
    rcases phase with at_ | at_ <;> rw [at_] <;> rfl
  rcases line.role (queued_of_waiting waits) with ⟨-, leads⟩ | later
  · rcases phase with at_ | at_ <;> rw [Leads, at_] at leads <;>
      exact leads.elim nofun (fun later => later.elim nofun nofun)
  · exact later

lemma unmarked (phase : mcs.phase node = .storeLocked previous) :
    ∃ place, Place history place previous ∧ Place history (place + 1) node ∧
      mcs.next previous = none := by
  obtain ⟨place, _, before, here, waits⟩ := line.behind (.inl phase)
  cases waits with
  | unmarked at_ next =>
    obtain rfl := Phase.storeLocked.inj (phase.symm.trans at_)
    exact ⟨place, before, here, next⟩
  | marked at_ _ _ | told at_ _ _ => cases phase.symm.trans at_

lemma marked (phase : mcs.phase node = .storeSuccessor previous) :
    ∃ place, Place history place previous ∧ Place history (place + 1) node ∧
      mcs.next previous = none ∧ mcs.locked node = true := by
  obtain ⟨place, _, before, here, waits⟩ := line.behind (.inr phase)
  cases waits with
  | marked at_ next locked =>
    obtain rfl := Phase.storeSuccessor.inj (phase.symm.trans at_)
    exact ⟨place, before, here, next, locked⟩
  | unmarked at_ _ | told at_ _ _ => cases phase.symm.trans at_

lemma spins (phase : mcs.phase node = .spinLocked) (unlocked : mcs.locked node = false) :
    Place history history.finished node := by
  rcases line.role (show queued (mcs.phase node) = true by rw [phase]; rfl) with
    ⟨place, -⟩ | ⟨-, previous, -, -, waits⟩
  · exact place
  cases waits with
  | unmarked at_ _ | marked at_ _ _ => cases phase.symm.trans at_
  | told _ _ locked => cases unlocked.symm.trans locked

lemma successor (place : Place history history.finished node) {successor : Node}
    (next : mcs.next node = some successor) :
    Place history (history.finished + 1) successor ∧ mcs.phase successor = .spinLocked ∧
      history.swaps[history.finished + 1]? = some (successor, some node) := by
  have inside := place.inside
  have more : history.finished + 1 < history.swaps.length := by
    by_contra none
    have last := line.last _ node place (by omega)
    rw [last] at next
    cases next
  have swapped : history.swaps[history.finished + 1]? = some history.swaps[history.finished + 1] :=
    List.getElem?_eq_getElem more
  generalize history.swaps[history.finished + 1] = entry at swapped
  obtain ⟨call, predecessor⟩ := entry
  obtain ⟨rfl, waits⟩ := line.waits _ node call predecessor place swapped
  cases waits with
  | unmarked _ none | marked _ none _ =>
    rw [none] at next
    cases next
  | told phase some =>
    rw [next] at some
    cases some
    exact ⟨⟨Nat.le_succ _, _, swapped⟩, phase, swapped⟩

end Line

/-! ## Fields after a step -/

section

variable [DecidableEq Node] (mcs : Mcs Node) (node other : Node)

lemma goto_phase (phase : Phase Node) :
    (mcs.goto node phase).phase other = if other = node then phase else mcs.phase other :=
  Function.update_apply ..

lemma setNext_same (value : Option Node) : (mcs.setNext node value).next node = value :=
  Function.update_self ..

lemma setLocked_same (value : Bool) : (mcs.setLocked node value).locked node = value :=
  Function.update_self ..

variable {mcs node other} {phase : Phase Node}

lemma goto_same : (mcs.goto node phase).phase node = phase := Function.update_self ..

lemma goto_other (apart : other ≠ node) : (mcs.goto node phase).phase other = mcs.phase other :=
  Function.update_of_ne apart ..

lemma setNext_other {value : Option Node} (apart : other ≠ node) :
    (mcs.setNext node value).next other = mcs.next other := Function.update_of_ne apart ..

lemma setLocked_other {value : Bool} (apart : other ≠ node) :
    (mcs.setLocked node value).locked other = mcs.locked other := Function.update_of_ne apart ..

end

/-! ## One step keeps the line -/

namespace Line

variable [DecidableEq Node] {mcs : Mcs Node} {node : Node} {after : Mcs Node}

lemma apart (line : Line mcs history) (outside : queued (mcs.phase node) = false)
    (queue : after.queue = mcs.queue) (next : ∀ other, other ≠ node → after.next other =
      mcs.next other)
    (locked : ∀ other, other ≠ node → after.locked other = mcs.locked other)
    (phase : ∀ other, other ≠ node → after.phase other = mcs.phase other)
    (still : queued (after.phase node) = false)
    (fits : Links (after.phase node) (after.next node)) :
    Line after history := by
  have other : ∀ place other, Place history place other → other ≠ node := by
    rintro place other stands rfl
    rw [(line.stands place other stands).1] at outside
    cases outside
  have links : ∀ call, Links (after.phase call) (after.next call) := by
    intro call
    by_cases same : call = node
    · rw [same]
      exact fits
    rw [phase call same, next call same]
    exact line.links call
  refine ⟨line.bound, ?_, ?_, ?_, ?_, ?_, ?_, ?_, fun call => (links call).fresh,
    fun call => (links call).linked, fun call => (links call).releasing⟩
  · intro call inLine
    have apart : call ≠ node := by
      rintro rfl
      rw [still] at inLine
      cases inLine
    rw [phase call apart] at inLine
    exact line.placed call inLine
  · intro place call stands
    rw [phase call (other place call stands)]
    exact line.stands place call stands
  · rw [queue]
    exact line.empty
  · rw [queue]
    exact line.tail
  · intro call stands
    have apart := other _ call stands
    rw [Leads, phase call apart, locked call apart]
    exact line.first call stands
  · intro place previous call predecessor stands swapped
    obtain ⟨named, waits⟩ := line.waits place previous call predecessor stands swapped
    have before := other place previous stands
    have apart := other (place + 1) call ⟨Nat.le_succ_of_le stands.1, predecessor, swapped⟩
    exact ⟨named, waits.congr (phase call apart) (next previous before) (locked call apart)⟩
  · intro place call stands final
    rw [next call (other place call stands)]
    exact line.last place call stands final

variable {phase : Phase Node}

lemma links_goto (line : Line mcs history) {moved : Mcs Node} (phases : moved.phase = mcs.phase)
    (fits : Links phase (mcs.next node)) (call : Node) :
    Links ((moved.goto node phase).phase call) (mcs.next call) := by
  rw [goto_phase, phases]
  split
  · rename_i same
    rw [same]
    exact fits
  · exact line.links call

lemma lead_moves (line : Line mcs history) (place : Place history history.finished node)
    (leading : phase = .returning ∨ entered phase = true) (fits : Links phase (mcs.next node)) :
    Line (mcs.goto node phase) history := by
  have inLine : queued phase = true := by
    rcases leading with returning | inside
    · rw [returning]
      rfl
    · exact queued_of_entered inside
  have links := line.links_goto rfl fits
  refine ⟨line.bound, ?_, ?_, line.empty, line.tail, ?_, ?_, line.last, fun call =>
    (links call).fresh,
    fun call => (links call).linked, fun call => (links call).releasing⟩
  · intro call inLine'
    rw [goto_phase] at inLine'
    split at inLine'
    · rename_i same
      rw [same, (line.stands _ node place).2]
      exact place
    · exact line.placed call inLine'
  · intro place' call stands
    rw [goto_phase]
    split
    · exact ⟨inLine, (line.stands place' call stands).2⟩
    · exact line.stands place' call stands
  · intro _ stands
    right
    rw [goto_phase, if_pos (stands.node_unique place)]
    exact leading
  · intro place' previous call predecessor stands swapped
    obtain ⟨named, waits⟩ := line.waits place' previous call predecessor stands swapped
    have apart : call ≠ node := by
      rintro rfl
      have same := line.place_unique place ⟨Nat.le_succ_of_le stands.1, predecessor, swapped⟩
      have before := stands.1
      omega
    exact ⟨named, waits.congr (goto_other apart) rfl rfl⟩

variable {place : Nat} (line : Line mcs history)
include line

/-- A waiting call moves on, and may tell the one before it. -/
lemma wait_moves {previous : Node} (before : Place history place previous)
    (here : Place history (place + 1) node) (queue : after.queue = mcs.queue)
    (next : ∀ other, other ≠ previous → after.next other = mcs.next other)
    (told : after.next previous = mcs.next previous ∨ mcs.next previous = none ∧
      after.next previous ≠ none)
    (locked : ∀ other, other ≠ node → after.locked other = mcs.locked other)
    (phase : ∀ other, other ≠ node → after.phase other = mcs.phase other)
    (waits : Waits after previous node) : Line after history := by
  have inLine := queued_of_waiting waits.phase
  have links : ∀ call, Links (after.phase call) (after.next call) := by
    intro call
    by_cases same : call = node
    · rw [same]
      exact links_quiet (quiet_of_waiting waits.phase)
    rw [phase call same]
    have fits := line.links call
    by_cases known : call = previous
    · subst known
      rcases told with kept | ⟨none, some⟩
      · rw [kept]
        exact fits
      -- The one before it stands in the line, and is not about to release.
      have stands := (line.stands place call before).1
      refine ⟨?_, fun _ => some, fun successor at_ => ?_⟩
      · rintro (at_ | at_) <;> rw [at_] at stands <;> cases stands
      · have releasing := fits.releasing successor at_
        rw [none] at releasing
        cases releasing
    rw [next call known]
    exact fits
  refine ⟨line.bound, ?_, ?_, ?_, ?_, ?_, ?_, ?_, fun call => (links call).fresh,
    fun call => (links call).linked, fun call => (links call).releasing⟩
  · intro call inLine'
    by_cases same : call = node
    · rw [same, (line.stands _ node here).2]
      exact here
    rw [phase call same] at inLine'
    exact line.placed call inLine'
  · intro place' call stands
    by_cases same : call = node
    · subst same
      exact ⟨inLine, (line.stands place' call stands).2⟩
    rw [phase call same]
    exact line.stands place' call stands
  · rw [queue]
    exact line.empty
  · rw [queue]
    exact line.tail
  · intro call stands
    have apart : call ≠ node := by
      rintro rfl
      have same := line.place_unique stands here
      have bound := before.1
      omega
    rw [Leads, phase call apart, locked call apart]
    exact line.first call stands
  · intro place' previous' call predecessor stands swapped
    obtain ⟨named, waits'⟩ := line.waits place' previous' call predecessor stands swapped
    have there : Place history (place' + 1) call :=
      ⟨Nat.le_succ_of_le stands.1, predecessor, swapped⟩
    refine ⟨named, ?_⟩
    by_cases same : call = node
    · subst same
      have place'' : place' = place := Nat.succ.inj (line.place_unique there here)
      subst place''
      rw [stands.node_unique before]
      exact waits
    have apart : previous' ≠ previous := by
      rintro rfl
      have place'' := line.place_unique stands before
      subst place''
      exact same (there.node_unique here)
    exact waits'.congr (phase call same) (next previous' apart) (locked call same)
  · intro place' call stands final
    have apart : call ≠ previous := by
      rintro rfl
      have same := line.place_unique stands before
      have inside := here.inside
      omega
    rw [next call apart]
    exact line.last place' call stands final

lemma place_swapped {call : Node} {predecessor : Option Node} :
    Place (history.add (some (.swapped node predecessor))) place call ↔
      Place history place call ∨ place = history.swaps.length ∧ call = node := by
  have bound := line.bound
  simp only [Place, History.add]
  by_cases inside : place < history.swaps.length
  · rw [List.getElem?_append_left inside]
    constructor
    · exact Or.inl
    · rintro (old | ⟨last, -⟩)
      · exact old
      · omega
  by_cases last : place = history.swaps.length
  · subst last
    rw [List.getElem?_concat_length, List.getElem?_eq_none (Nat.le_refl _)]
    constructor
    · rintro ⟨-, _, same⟩
      exact Or.inr ⟨rfl, (Prod.mk.inj (Option.some.inj same)).1.symm⟩
    · rintro (⟨-, other, none⟩ | ⟨-, rfl⟩)
      · cases none
      · exact ⟨bound, predecessor, rfl⟩
  have outside : (history.swaps ++ [(node, predecessor)])[place]? = none := by
    apply List.getElem?_eq_none
    rw [List.length_append, List.length_singleton]
    omega
  have outside' : history.swaps[place]? = none := List.getElem?_eq_none (by omega)
  rw [outside, outside']
  constructor
  · rintro ⟨-, _, none⟩
    cases none
  · rintro (⟨-, other, none⟩ | ⟨same, -⟩)
    · cases none
    · exact absurd same last

/-- A call joins the line with its swap. -/
lemma swaps (swapping : mcs.phase node = .swap) (joins : (mcs.queue = none ∧ phase = .returning) ∨
      ∃ previous, mcs.queue = some previous ∧ phase = .storeLocked previous) :
    Line ({ mcs with queue := some node }.goto node phase)
      (history.add (some (.swapped node mcs.queue))) := by
  have inLine : queued phase = true ∧ quiet phase = true := by
    rcases joins with ⟨-, rfl⟩ | ⟨_, -, rfl⟩
    · exact ⟨rfl, rfl⟩
    · exact ⟨rfl, rfl⟩
  have bound := line.bound
  have other : ∀ place call, Place history place call → call ≠ node := by
    rintro place call stands rfl
    have stands' := (line.stands place call stands).1
    rw [swapping] at stands'
    cases stands'
  have size : (history.add (some (.swapped node mcs.queue))).swaps.length =
    history.swaps.length + 1 :=
    List.length_append
  have ticket : ∀ call, (history.add (some (.swapped node mcs.queue))).ticket call =
      if call = node then history.swaps.length else history.ticket call :=
    fun call => Function.update_apply ..
  have kept : ∀ call, call ≠ node →
      ({ mcs with queue := some node }.goto node phase).phase call = mcs.phase call :=
    fun _ => goto_other
  have moved : ({ mcs with queue := some node }.goto node phase).phase node = phase := goto_same
  have links : ∀ call, Links (({ mcs with queue := some node }.goto node phase).phase call)
      (mcs.next call) := line.links_goto rfl (links_quiet inLine.2)
  refine ⟨?_, ?_, ?_, ?_, ?_, ?_, ?_, ?_, fun call => (links call).fresh,
    fun call => (links call).linked, fun call => (links call).releasing⟩
  · rw [size]
    exact Nat.le_succ_of_le bound
  · intro call inLine'
    rw [ticket]
    split
    · rename_i same
      exact line.place_swapped.mpr (Or.inr ⟨rfl, same⟩)
    rename_i apart
    rw [kept call apart] at inLine'
    exact line.place_swapped.mpr (Or.inl (line.placed call inLine'))
  · intro place call stands
    rw [ticket]
    rcases line.place_swapped.mp stands with old | ⟨rfl, rfl⟩
    · rw [kept call (other place call old), if_neg (other place call old)]
      exact line.stands place call old
    rw [moved, if_pos rfl]
    exact ⟨inLine.1, rfl⟩
  · intro none
    change history.finished = _ at none
    omega
  · intro place call stands last
    rcases line.place_swapped.mp stands with old | ⟨-, rfl⟩
    · have inside := old.inside
      omega
    · rfl
  · intro call stands
    rcases line.place_swapped.mp stands with old | ⟨whole, rfl⟩
    · have leads := line.first call old
      rw [Leads, kept call (other _ call old)]
      exact leads
    have none := line.empty whole
    rcases joins with ⟨-, returning⟩ | ⟨_, some, -⟩
    · right
      left
      rw [moved, returning]
    rw [none] at some
    cases some
  · intro place previous call predecessor stands swapped
    by_cases inside : place + 1 < history.swaps.length
    · rcases line.place_swapped.mp stands with old | ⟨last, -⟩
      · change (history.swaps ++ _)[place + 1]? = _ at swapped
        rw [List.getElem?_append_left inside] at swapped
        obtain ⟨named, waits⟩ := line.waits place previous call predecessor old swapped
        have apart := other (place + 1) call ⟨Nat.le_succ_of_le old.1, predecessor, swapped⟩
        exact ⟨named, waits.congr (kept call apart) rfl rfl⟩
      · omega
    have bounded := (List.getElem?_eq_some_iff.mp swapped).1
    have last : place + 1 = history.swaps.length := by omega
    change (history.swaps ++ _)[place + 1]? = _ at swapped
    rw [last, List.getElem?_concat_length] at swapped
    cases swapped
    rcases line.place_swapped.mp stands with old | ⟨past, -⟩
    · have tail := line.tail place previous old last
      rcases joins with ⟨none, -⟩ | ⟨_, some, rfl⟩
      · rw [none] at tail
        cases tail
      rw [tail] at some
      cases some
      exact ⟨tail, .unmarked moved (line.last place previous old last)⟩
    · omega
  · intro place call stands last
    rcases line.place_swapped.mp stands with old | ⟨-, rfl⟩
    · have inside := old.inside
      omega
    · exact line.fresh call (Or.inr swapping)

lemma vacates (place : Place history history.finished node) (tail : mcs.queue = some node) :
    Line ({ mcs with queue := none }.goto node .idle) (history.add (some (.vacated node))) := by
  have inside := place.inside
  have alone := line.alone place tail
  have gone : ∀ place' call, ¬ Place (history.add (some (.vacated node))) place' call := by
    rintro place' call ⟨after, predecessor, swapped⟩
    have bounded := (List.getElem?_eq_some_iff.mp swapped).1
    change history.finished + 1 ≤ place' at after
    change place' < history.swaps.length at bounded
    omega
  have moved : ∀ call, ({ mcs with queue := none }.goto node .idle).phase call ≠ .idle →
      call ≠ node ∧ ({ mcs with queue := none }.goto node .idle).phase call = mcs.phase call := by
    intro call busy
    rw [goto_phase] at busy ⊢
    split at busy
    · exact absurd rfl busy
    rename_i apart
    exact ⟨apart, if_neg apart⟩
  have links : ∀ call, Links (({ mcs with queue := none }.goto node .idle).phase call)
      (mcs.next call) := line.links_goto rfl (links_quiet rfl)
  refine ⟨?_, ?_, ?_, fun _ => rfl, ?_, ?_, ?_, ?_, fun call => (links call).fresh,
    fun call => (links call).linked, fun call => (links call).releasing⟩
  · exact inside
  · intro call inLine
    obtain ⟨apart, kept⟩ := moved call (by rintro idle; rw [idle] at inLine; cases inLine)
    rw [kept] at inLine
    have stands := line.placed call inLine
    have bounded := stands.inside
    have after := stands.1
    have ticket : history.ticket call = history.finished := by omega
    rw [ticket] at stands
    exact absurd (stands.node_unique place) apart
  · exact fun place' call stands => absurd stands (gone place' call)
  · exact fun place' call stands => absurd stands (gone place' call)
  · exact fun call stands => absurd stands (gone _ call)
  · exact fun place' previous _ _ stands => absurd stands (gone place' previous)
  · exact fun place' call stands => absurd stands (gone place' call)

/-- The first call of the line hands the lock to the next one. -/
lemma releases (place : Place history history.finished node) {successor : Node}
    (next : mcs.next node = some successor) :
    Line ((mcs.setLocked successor false).goto node .idle)
      (history.add (some (.released node successor))) := by
  obtain ⟨there, spins, -⟩ := line.successor place next
  have more := there.inside
  have old : ∀ place' call, Place (history.add (some (.released node successor))) place' call →
      Place history place' call ∧ history.finished + 1 ≤ place' := by
    rintro _ _ ⟨after, predecessor, swapped⟩
    exact ⟨⟨Nat.le_of_succ_le after, predecessor, swapped⟩, after⟩
  have other : ∀ place' call, Place history place' call → history.finished + 1 ≤ place' →
    call ≠ node := by
    rintro place' call stands after rfl
    have same := line.place_unique stands place
    omega
  have kept : ∀ call, call ≠ node →
      ((mcs.setLocked successor false).goto node .idle).phase call = mcs.phase call := by
    intro _ apart
    rw [goto_other apart]
    rfl
  have moved : ∀ call, ((mcs.setLocked successor false).goto node .idle).phase call ≠ .idle →
      call ≠ node := by
    rintro _ busy rfl
    rw [goto_same] at busy
    exact busy rfl
  have links : ∀ call, Links (((mcs.setLocked successor false).goto node .idle).phase call)
      (mcs.next call) := line.links_goto rfl (links_quiet rfl)
  refine ⟨?_, ?_, ?_, ?_, ?_, ?_, ?_, ?_, fun call => (links call).fresh,
    fun call => (links call).linked, fun call => (links call).releasing⟩
  · exact Nat.le_of_lt more
  · intro call inLine
    have apart := moved call (by rintro idle; rw [idle] at inLine; cases inLine)
    rw [kept call apart] at inLine
    obtain ⟨after, predecessor, swapped⟩ := line.placed call inLine
    refine ⟨?_, predecessor, swapped⟩
    change history.finished + 1 ≤ history.ticket call
    by_contra early
    have ticket : history.ticket call = history.finished := by omega
    rw [ticket] at swapped
    exact apart (Place.node_unique ⟨Nat.le_refl _, predecessor, swapped⟩ place)
  · intro place' call stands
    obtain ⟨stands, after⟩ := old place' call stands
    rw [kept call (other place' call stands after)]
    exact line.stands place' call stands
  · intro none
    change history.finished + 1 = history.swaps.length at none
    omega
  · intro place' call stands last
    exact line.tail place' call (old place' call stands).1 last
  · intro call stands
    obtain ⟨stands, after⟩ := old _ call stands
    have same : call = successor := stands.node_unique there
    subst same
    left
    constructor
    · rw [kept call (other _ call stands after)]
      exact spins
    · exact setLocked_same mcs call false
  · intro place' previous call predecessor stands swapped
    obtain ⟨stands, after⟩ := old place' previous stands
    obtain ⟨named, waits⟩ := line.waits place' previous call predecessor stands swapped
    have behind : Place history (place' + 1) call :=
      ⟨Nat.le_succ_of_le stands.1, predecessor, swapped⟩
    have apart : call ≠ successor := by
      rintro rfl
      have same := line.place_unique behind there
      omega
    exact ⟨named, waits.congr (kept call (other _ call behind (by omega))) rfl
      (setLocked_other apart)⟩
  · intro place' call stands last
    exact line.last place' call (old place' call stands).1 last

/-- One access keeps the line. -/
lemma advance {spurious : Bool} {event : Option (Event Node)}
    (taken : mcs.advance node spurious = some (after, event)) : Line after (history.add event) := by
  rw [Mcs.advance] at taken
  generalize at_ : mcs.phase node = phase at taken
  cases phase with
  | idle | held =>
    cases taken
  | storeNext =>
    cases taken
    refine line.apart (show queued (mcs.phase node) = false by rw [at_]; rfl) rfl
      (fun _ => setNext_other) (fun _ _ => rfl) (fun _ => goto_other) ?_ ?_
    · rw [goto_same]
      rfl
    · rw [goto_same]
      exact links_outside rfl (setNext_same mcs node none)
  | storeUnlocked =>
    cases taken
    refine line.apart (show queued (mcs.phase node) = false by rw [at_]; rfl) rfl (fun _ _ => rfl)
      (fun _ => setLocked_other) (fun _ => goto_other) ?_ ?_
    · rw [goto_same]
      rfl
    · rw [goto_same]
      exact links_outside rfl (line.fresh node (Or.inl at_))
  | swap =>
    cases taken
    apply line.swaps at_
    cases mcs.queue with
    | none => exact Or.inl ⟨rfl, rfl⟩
    | some previous => exact Or.inr ⟨previous, rfl, rfl⟩
  | storeLocked =>
    cases taken
    obtain ⟨_, before, here, next⟩ := line.unmarked at_
    refine line.wait_moves before here rfl (fun _ _ => rfl) (Or.inl rfl)
      (fun _ => setLocked_other) (fun _ => goto_other) ?_
    exact .marked goto_same next (setLocked_same mcs node true)
  | storeSuccessor previous =>
    cases taken
    obtain ⟨_, before, here, next, locked⟩ := line.marked at_
    have told : ((mcs.setNext previous (some node)).goto node .spinLocked).next previous =
      some node :=
      setNext_same mcs previous _
    refine line.wait_moves before here rfl (fun _ => setNext_other)
      (Or.inr ⟨next, by rw [told]; exact nofun⟩) (fun _ _ => rfl) (fun _ => goto_other) ?_
    exact .told goto_same told locked
  | spinLocked =>
    cases taken
    split
    · exact line
    rename_i unlocked
    exact line.lead_moves (line.spins at_ (Bool.not_eq_true _ ▸ unlocked)) (Or.inl rfl)
      (links_quiet rfl)
  | returning =>
    cases taken
    have moved : Line (mcs.goto node .held) history :=
      line.lead_moves (line.leads (Or.inl at_)) (Or.inr rfl) (links_quiet rfl)
    exact ⟨moved.bound, moved.placed, moved.stands, moved.empty, moved.tail, moved.first,
      moved.waits,
      moved.last, moved.fresh, moved.linked, moved.releasing⟩
  | loadNext =>
    have place := line.leads_at at_ rfl
    cases taken
    split
    · exact line.lead_moves place (Or.inr rfl) (links_quiet rfl)
    rename_i some
    exact line.lead_moves place (Or.inr rfl) (links_reload some)
  | compareExchange =>
    have place := line.leads_at at_ rfl
    dsimp only at taken
    split at taken
    · rename_i exchanged
      cases taken
      exact line.vacates place exchanged.1
    cases taken
    exact line.lead_moves place (Or.inr rfl) (links_quiet rfl)
  | spinNext =>
    have place := line.leads_at at_ rfl
    cases taken
    split
    · exact line
    rename_i some
    exact line.lead_moves place (Or.inr rfl) (links_reload some)
  | reloadNext =>
    have place := line.leads_at at_ rfl
    dsimp only at taken
    split at taken
    · cases taken
    rename_i next
    cases taken
    refine line.lead_moves place (Or.inr rfl) ⟨?_, ?_, ?_⟩
    · rintro (released | released) <;> cases released
    · intro released
      cases released
    · intro _ same
      rw [next, Phase.storeReleased.inj same]
  | storeReleased successor =>
    have place := line.leads_at at_ rfl
    cases taken
    exact line.releases place (line.releasing node successor at_)

end Line

end R9x.Verif.McsLine
