import R9x.Verif.McsFifo

/-!
# Waiting in `unlock`

`unlock` takes a failed `compare_exchange_weak` as the sign that another call has swapped itself
behind the node, and waits for it to show up in `next`.
-/

namespace R9x.Verif.McsUnlock

open Lib Port.McsLock McsLine McsFifo

variable {Core Node : Type}

/-- The call is in `unlock`. -/
def unlocking : Phase Node → Bool
  | .loadNext | .compareExchange | .spinNext | .reloadNext | .storeReleased _ => true
  | _ => false

/-! ## What a failed exchange says -/

variable {mcs : Mcs Node} {history : History Node} {node : Node} {phase : Phase Node}

lemma entered_of_unlocking (within : unlocking phase = true) : entered phase = true := by
  cases phase with
  | loadNext | compareExchange | spinNext | reloadNext | storeReleased _ => rfl
  | _ => cases within

lemma swapped_behind (line : Line mcs history) (place : Place history history.finished node)
    (more : mcs.queue ≠ some node) :
    ∃ other, history.swaps[history.ticket node + 1]? = some (other, some node) := by
  have inside := place.inside
  rw [(line.stands _ node place).2]
  by_cases last : history.finished + 1 = history.swaps.length
  · exact absurd (line.tail _ node place last) more
  have swapped := List.getElem?_eq_getElem (show history.finished + 1 <
    history.swaps.length by omega)
  obtain ⟨named, -⟩ := line.waits _ node _ _ place swapped
  exact ⟨_, swapped.trans (congrArg some (Prod.ext rfl named))⟩

lemma not_swapped_behind (line : Line mcs history) (place : Place history history.finished node)
    (tail : mcs.queue = some node) : history.swaps[history.ticket node + 1]? = none := by
  rw [(line.stands _ node place).2, line.alone place tail]
  exact List.getElem?_eq_none (Nat.le_refl _)

/-! ## Runs -/

variable [DecidableEq Core] [DecidableEq Node]

/-- `unlock` waits only for a call that has swapped itself behind the node, and finishes with the
lock free if there is none. -/
structure Prompt (system : System Core Node) : Prop where
  behind : ∀ node, system.mcs.phase node = .spinNext →
    ∃ other, system.history.swaps[system.history.ticket node + 1]? = some (other, some node)
  finishes : ∀ core node, system.call core = some node → unlocking (system.mcs.phase node) = true →
    system.mcs.queue = some node → ∃ count final,
      run System.step system (List.replicate count (core, .access false)) = some final ∧
        final.call core = none ∧ final.mcs.queue = none

/-- The step is no weak exchange that fails although the node is the last of the queue. -/
def NotSpurious (system : System Core Node) (label : Core × Action Node) : Prop :=
  label.2 = .access true → ∀ node, system.call label.1 = some node →
    system.mcs.phase node = .compareExchange → system.mcs.queue ≠ some node

def Behind (mcs : Mcs Node) : Prop := ∀ node, mcs.phase node = .spinNext → mcs.queue ≠ some node

variable {system next : System Core Node} {after : Mcs Node} {core : Core}

lemma Behind.goto (behind : Behind mcs) {moved : Mcs Node} (phases : moved.phase = mcs.phase)
    (queue : moved.queue = mcs.queue ∨ moved.queue = none ∨ moved.queue = some node)
    (fits : phase = .spinNext → moved.queue ≠ some node) : Behind (moved.goto node phase) := by
  intro other spins
  rw [goto_phase] at spins
  change moved.queue ≠ some other
  split at spins
  · rename_i same
    rw [same]
    exact fits spins
  rename_i apart
  rw [phases] at spins
  rcases queue with kept | none | joined
  · rw [kept]
    exact behind other spins
  · rw [none]
    rintro ⟨⟩
  rw [joined]
  exact fun same => apart (Option.some.inj same).symm

lemma Behind.advance (behind : Behind mcs) {spurious : Bool} {event : Option (Event Node)}
    (steady : spurious = true → mcs.phase node = .compareExchange → mcs.queue ≠ some node)
    (taken : mcs.advance node spurious = some (after, event)) : Behind after := by
  rw [Mcs.advance] at taken
  generalize at_ : mcs.phase node = phase at taken
  cases phase with
  | idle | held =>
    cases taken
  | storeNext | storeUnlocked | storeLocked _ | storeSuccessor _ | returning | storeReleased _ =>
    cases taken
    exact behind.goto rfl (.inl rfl) (by rintro ⟨⟩)
  | swap =>
    cases taken
    refine behind.goto rfl (.inr (.inr rfl)) ?_
    cases mcs.queue with
    | none | some _ => rintro ⟨⟩
  | spinLocked | spinNext =>
    cases taken
    split
    · exact behind
    · exact behind.goto rfl (.inl rfl) (by rintro ⟨⟩)
  | loadNext =>
    cases taken
    refine behind.goto rfl (.inl rfl) ?_
    split
    · rintro ⟨⟩
    · rintro ⟨⟩
  | compareExchange =>
    dsimp only at taken
    split at taken
    · cases taken
      exact behind.goto rfl (.inr (.inl rfl)) (by rintro ⟨⟩)
    rename_i failed
    cases taken
    refine behind.goto rfl (.inl rfl) fun _ last => ?_
    cases spurious with
    | true => exact steady rfl at_ last
    | false => exact failed ⟨last, rfl⟩
  | reloadNext =>
    dsimp only at taken
    split at taken
    · cases taken
    cases taken
    exact behind.goto rfl (.inl rfl) (by rintro ⟨⟩)

variable {label : Core × Action Node}

lemma Behind.step (behind : Behind system.mcs) (steady : NotSpurious system label)
    (taken : system.step label = some next) : Behind next.mcs := by
  rw [System.step] at taken
  split at taken
  · split at taken
    · cases taken
      exact behind.goto rfl (.inl rfl) (by rintro ⟨⟩)
    · cases taken
  · split at taken
    · cases taken
      exact behind.goto rfl (.inl rfl) (by rintro ⟨⟩)
    · cases taken
  · rename_i node action calls
    obtain ⟨⟨_, _⟩, accessed, rfl⟩ := Option.map_eq_some_iff.mp taken
    exact behind.advance (fun weak => steady (weak ▸ action) node calls) accessed
  · cases taken

/-- The exchange of a call that is the last of the queue ends its `unlock`. -/
lemma exchange_ends (calls : system.call core = some node)
    (at_ : system.mcs.phase node = .compareExchange) (tail : system.mcs.queue = some node) :
    ∃ final, system.step (core, .access false) = some final ∧ final.call core = none ∧
      final.mcs.queue = none := by
  have done : system.mcs.advance node false =
      some ({ system.mcs with queue := none }.goto node .idle, some (.vacated node)) := by
    rw [Mcs.advance, at_]
    exact if_pos ⟨tail, rfl⟩
  have idle : ({ system.mcs with queue := none }.goto node .idle).phase node = .idle := goto_same
  refine ⟨_, by simp only [System.step, calls, done, Option.map_some]; rfl, ?_, rfl⟩
  rw [if_pos idle]
  exact Function.update_self ..

lemma finishes_of_behind (inv : Inv system) (behind : Behind system.mcs)
    (calls : system.call core = some node) (within : unlocking (system.mcs.phase node) = true)
    (tail : system.mcs.queue = some node) : ∃ count final,
      run System.step system (List.replicate count (core, .access false)) = some final ∧
        final.call core = none ∧ final.mcs.queue = none := by
  have place := inv.line.leads (.inr (entered_of_unlocking within))
  have last := inv.line.last _ node place (inv.line.alone place tail)
  cases at_ : system.mcs.phase node with
  | compareExchange =>
    obtain ⟨final, taken, ended⟩ := exchange_ends calls at_ tail
    exact ⟨1, final, by simp [run, taken], ended⟩
  | loadNext =>
    have loads : system.mcs.advance node false =
      some (system.mcs.goto node .compareExchange, none) := by
      rw [Mcs.advance, at_, last]
      rfl
    have moved : (system.mcs.goto node .compareExchange).phase node = .compareExchange := by
      rw [goto_phase, if_pos rfl]
    have first : system.step (core, .access false) =
        some { system with mcs := system.mcs.goto node .compareExchange } := by
      simp [System.step, calls, loads, moved, History.add]
    have second : ∃ final, System.step { system with mcs := system.mcs.goto node .compareExchange }
        (core, .access false) = some final ∧ final.call core = none ∧ final.mcs.queue = none :=
      exchange_ends calls moved tail
    obtain ⟨final, taken, ended⟩ := second
    exact ⟨2, final, by simp [run, first, taken], ended⟩
  | spinNext => exact absurd tail (behind node at_)
  | reloadNext => exact absurd last (inv.line.linked node at_)
  | storeReleased successor => cases last.symm.trans (inv.line.releasing node successor at_)
  | _ =>
    rw [at_] at within
    cases within

lemma prompt_of_behind (inv : Inv system) (behind : Behind system.mcs) : Prompt system := by
  refine ⟨fun node spins => ?_, fun core node => finishes_of_behind inv behind⟩
  exact swapped_behind inv.line (inv.line.leads_at spins rfl) (behind node spins)

lemma steady_of_prompt (inv : Inv system) (taken : system.step label = some next)
    (prompt : Prompt next) : NotSpurious system label := by
  obtain ⟨_, _⟩ := label
  rintro rfl node calls at_ tail
  have fails : system.mcs.advance node true = some (system.mcs.goto node .spinNext, none) := by
    rw [Mcs.advance, at_]
    exact if_neg (by simp)
  have moved : (system.mcs.goto node .spinNext).phase node = .spinNext := goto_same
  have result : next = { system with mcs := system.mcs.goto node .spinNext } := by
    simpa [System.step, calls, fails, moved, History.add] using taken.symm
  subst result
  obtain ⟨_, swapped⟩ := prompt.behind node moved
  have place := inv.line.leads_at at_ rfl
  cases swapped.symm.trans (not_swapped_behind inv.line place tail)

/-- In every interleaving of any number of cores: `unlock` waits for `next` only if another call has
swapped itself behind the node, and finishes otherwise, exactly if no weak exchange fails on the
last node of the queue. -/
theorem unlock_prompt_iff (nodesNext : Node → Option Node) (nodesLocked : Node → Bool)
    (labels : List (Core × Action Node)) :
    Throughout System.step Prompt (System.start nodesNext nodesLocked : System Core Node) labels ↔
      Along System.step NotSpurious (System.start nodesNext nodesLocked : System Core Node)
        labels := by
  have keeps : ∀ (system : System Core Node) label next, Inv system ∧ Behind system.mcs →
      NotSpurious system label → system.step label = some next → Inv next ∧ Behind next.mcs :=
    fun _ label _ inv steady taken => ⟨step_inv label inv.1 taken, inv.2.step steady taken⟩
  refine throughout_iff_along keeps (fun _ inv => prompt_of_behind inv.1 inv.2)
    (fun _ _ _ inv => steady_of_prompt inv.1) ⟨start_inv nodesNext nodesLocked, fun _ spins => ?_⟩
  cases spins

/-- A core alone takes the lock and releases it, and its weak exchange fails once: it waits for a
successor however often it looks again. -/
theorem unlock_alone_waits : ∃ system : System Unit Unit,
    run System.step (System.start (fun _ => none) fun _ => false) ([((), .lock ())] ++
      List.replicate 4 ((), .access false) ++ [((), .unlock), ((), .access false),
        ((), .access true)]) =
        some system ∧ system.mcs.queue = some () ∧ system.history.swaps = [((), none)] ∧
    ∀ count, (run System.step system (List.replicate count ((), .access false))).map
      (fun system => (system.call (), system.mcs.phase ())) = some (some (), .spinNext) := by
  refine ⟨_, rfl, rfl, rfl, fun count => ?_⟩
  induction count with
  | zero => rfl
  | succ _ ih =>
    rw [← ih]
    rfl

end R9x.Verif.McsUnlock
