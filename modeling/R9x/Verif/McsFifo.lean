import R9x.Lib.Run
import R9x.Verif.McsLine

/-!
# The order of the MCS lock

The swap on the tail gives each call a ticket.
-/

namespace R9x.Verif.McsFifo

open Lib Port.McsLock McsLine
open Function (update update_apply)

variable {Core Node : Type}

/-! ## The history -/

/-- The swap with this ticket found a call before it. -/
def Contended (history : History Node) (ticket : Nat) : Prop :=
  ∃ node predecessor, history.swaps[ticket]? = some (node, some predecessor)

/-- What the history says about the line. -/
structure Logged (mcs : Mcs Node) (history : History Node) : Prop where
  quiet : (∀ node, entered (mcs.phase node) = false) → history.granted = List.range history.finished
  busy : ∀ node, entered (mcs.phase node) = true → history.granted =
    List.range (history.finished + 1)
  releases : ∀ one two, (one, two) ∈ history.released ↔
    two = one + 1 ∧ two ≤ history.finished ∧ Contended history two
  once : (history.released.map Prod.snd).Nodup
  begins : ¬ Contended history 0

namespace Logged

variable {mcs after : Mcs Node} {history : History Node} {node : Node}

lemma same (logged : Logged mcs history)
    (inside : ∀ other, entered (after.phase other) = entered (mcs.phase other)) :
    Logged after history := by
  refine ⟨?_, ?_, logged.releases, logged.once, logged.begins⟩
  · intro none
    exact logged.quiet fun other => (inside other).symm.trans (none other)
  · intro other within
    exact logged.busy other ((inside other).symm.trans within)

lemma none_entered (line : Line mcs history) (place : Place history history.finished node)
    (outside : entered (mcs.phase node) = false) (other : Node) :
    entered (mcs.phase other) = false := by
  by_contra within
  rw [Bool.not_eq_false] at within
  have there := line.leads (Or.inr within)
  rw [there.node_unique place, outside] at within
  cases within

lemma left (logged : Logged mcs history) (line : Line mcs history)
    (place : Place history history.finished node) (within : entered (mcs.phase node) = true)
    {released : List (Nat × Nat)} (idle : entered (after.phase node) = false)
    (kept : ∀ other, other ≠ node → after.phase other = mcs.phase other)
    (releases : ∀ one two, (one, two) ∈ released ↔
      two = one + 1 ∧ two ≤ history.finished + 1 ∧ Contended history two)
    (once : (released.map Prod.snd).Nodup) :
    Logged after { history with released := released, finished := history.finished + 1 } := by
  have none : ∀ other, entered (after.phase other) = false := by
    intro other
    by_cases same : other = node
    · rw [same]
      exact idle
    rw [kept other same]
    by_contra inside
    rw [Bool.not_eq_false] at inside
    exact same ((line.leads (Or.inr inside)).node_unique place)
  refine ⟨fun _ => logged.busy node within, ?_, releases, once, logged.begins⟩
  intro other inside
  rw [none other] at inside
  cases inside

end Logged

section

variable [DecidableEq Node] {mcs after : Mcs Node} {history : History Node} {node : Node}

lemma contended_swapped (line : Line mcs history) {ticket : Nat}
    (early : ticket ≤ history.finished) :
    Contended (history.add (some (.swapped node mcs.queue))) ticket ↔ Contended history ticket := by
  have bound := line.bound
  rw [Contended, Contended]
  change (∃ call predecessor, (history.swaps ++ [(node, mcs.queue)])[ticket]? =
    some (call, some predecessor)) ↔ _
  by_cases inside : ticket < history.swaps.length
  · rw [List.getElem?_append_left inside]
  have whole : ticket = history.swaps.length := by omega
  have none := line.empty (by omega)
  rw [whole, List.getElem?_concat_length, List.getElem?_eq_none (Nat.le_refl _), none]
  constructor
  · rintro ⟨_, _, swapped⟩
    cases (Prod.mk.inj (Option.some.inj swapped)).2
  · rintro ⟨_, _, swapped⟩
    cases swapped

lemma Logged.swapped (logged : Logged mcs history) (line : Line mcs history)
    (inside : ∀ other, entered (after.phase other) = entered (mcs.phase other)) :
    Logged after (history.add (some (.swapped node mcs.queue))) := by
  have same := logged.same inside
  refine ⟨same.quiet, same.busy, ?_, logged.once, ?_⟩
  · intro one two
    rw [show (history.add (some (.swapped node mcs.queue))).released = history.released from rfl,
      logged.releases one two]
    constructor
    · rintro ⟨next, early, contended⟩
      exact ⟨next, early, (contended_swapped line early).mpr contended⟩
    · rintro ⟨next, early, contended⟩
      exact ⟨next, early, (contended_swapped line early).mp contended⟩
  · intro contended
    exact logged.begins ((contended_swapped line (Nat.zero_le _)).mp contended)

lemma Logged.granted (logged : Logged mcs history) (line : Line mcs history)
    (returning : mcs.phase node = .returning) :
    Logged (mcs.goto node .held) (history.add (some (.granted node))) := by
  have place := line.leads (Or.inl returning)
  have none := Logged.none_entered line place (by rw [returning]; rfl)
  have all : (history.add (some (.granted node))).granted = List.range (history.finished + 1) := by
    change history.granted ++ [history.ticket node] = _
    rw [logged.quiet none, (line.stands _ node place).2, List.range_succ]
  refine ⟨?_, fun _ _ => all, logged.releases, logged.once, logged.begins⟩
  intro outside
  have held := outside node
  rw [goto_phase, if_pos rfl] at held
  cases held

lemma entered_goto {moved : Mcs Node} {old phase : Phase Node} (before : mcs.phase node = old)
    (phases : moved.phase = mcs.phase) (same : entered phase = entered old) (other : Node) :
    entered ((moved.goto node phase).phase other) = entered (mcs.phase other) := by
  rw [goto_phase, phases]
  split
  · rename_i here
    rw [here, before]
    exact same
  · rfl

lemma Logged.released (logged : Logged mcs history) (line : Line mcs history) {successor : Node}
    (releasing : mcs.phase node = .storeReleased successor) :
    Logged ((mcs.setLocked successor false).goto node .idle)
      (history.add (some (.released node successor))) := by
  have within : entered (mcs.phase node) = true := by
    rw [releasing]
    rfl
  have place := line.leads (Or.inr within)
  obtain ⟨there, -, swapped⟩ := line.successor place (line.releasing node successor releasing)
  have tickets : (history.ticket node, history.ticket successor) =
      (history.finished, history.finished + 1) := by
    rw [(line.stands _ node place).2, (line.stands _ successor there).2]
  change Logged _ { history with
    released := history.released ++ [(history.ticket node, history.ticket successor)],
    finished := history.finished + 1 }
  rw [tickets]
  refine logged.left line place within ?_ (fun other apart => ?_) ?_ ?_
  · rw [goto_phase, if_pos rfl]
    rfl
  · rw [goto_phase, if_neg apart]
    rfl
  · intro one two
    rw [List.mem_append, logged.releases, List.mem_singleton, Prod.mk.injEq]
    constructor
    · rintro (⟨next, early, contended⟩ | ⟨rfl, rfl⟩)
      · exact ⟨next, Nat.le_succ_of_le early, contended⟩
      · exact ⟨rfl, Nat.le_refl _, successor, node, swapped⟩
    · rintro ⟨next, early, contended⟩
      by_cases last : two = history.finished + 1
      · exact Or.inr ⟨by omega, last⟩
      · exact Or.inl ⟨next, by omega, contended⟩
  · rw [List.map_append, List.map_singleton, List.nodup_append]
    refine ⟨logged.once, List.pairwise_singleton _ _, ?_⟩
    intro earlier member ticket now
    obtain ⟨⟨one, two⟩, listed, rfl⟩ := List.mem_map.mp member
    have early := ((logged.releases one two).mp listed).2.1
    have here : ticket = history.finished + 1 := List.mem_singleton.mp now
    omega

lemma Logged.vacated (logged : Logged mcs history) (line : Line mcs history)
    (exchanging : mcs.phase node = .compareExchange) (tail : mcs.queue = some node) :
    Logged ({ mcs with queue := none }.goto node .idle) (history.add (some (.vacated node))) := by
  have within : entered (mcs.phase node) = true := by
    rw [exchanging]
    rfl
  have place := line.leads (Or.inr within)
  have alone := line.alone place tail
  refine logged.left line place within ?_ (fun other apart => ?_) ?_ logged.once
  · rw [goto_phase, if_pos rfl]
    rfl
  · rw [goto_phase, if_neg apart]
  · intro one two
    rw [logged.releases]
    constructor
    · rintro ⟨next, early, contended⟩
      exact ⟨next, Nat.le_succ_of_le early, contended⟩
    · rintro ⟨next, early, contended⟩
      refine ⟨next, ?_, contended⟩
      obtain ⟨call, predecessor, swapped⟩ := contended
      have bounded := (List.getElem?_eq_some_iff.mp swapped).1
      omega

variable {spurious : Bool} {event : Option (Event Node)}

/-- One access keeps the history. -/
lemma Logged.advance (logged : Logged mcs history) (line : Line mcs history)
    (taken : mcs.advance node spurious = some (after, event)) :
    Logged after (history.add event) := by
  rw [Mcs.advance] at taken
  generalize at_ : mcs.phase node = phase at taken
  cases phase with
  | idle | held =>
    cases taken
  | storeNext | storeUnlocked | storeLocked _ | storeSuccessor _ =>
    cases taken
    exact logged.same (entered_goto at_ rfl rfl)
  | swap =>
    cases taken
    refine logged.swapped line (entered_goto at_ rfl ?_)
    cases mcs.queue with
    | none | some _ => rfl
  | spinLocked | spinNext =>
    cases taken
    split
    · exact logged
    · exact logged.same (entered_goto at_ rfl rfl)
  | returning =>
    cases taken
    exact logged.granted line at_
  | loadNext =>
    cases taken
    refine logged.same (entered_goto at_ rfl ?_)
    split
    · rfl
    · rfl
  | compareExchange =>
    dsimp only at taken
    split at taken
    · rename_i exchanged
      cases taken
      exact logged.vacated line at_ exchanged.1
    cases taken
    exact logged.same (entered_goto at_ rfl rfl)
  | reloadNext =>
    dsimp only at taken
    split at taken
    · cases taken
    cases taken
    exact logged.same (entered_goto at_ rfl rfl)
  | storeReleased =>
    cases taken
    exact logged.released line at_

lemma advance_other (taken : mcs.advance node spurious = some (after, event))
    {other : Node} (apart : other ≠ node) : after.phase other = mcs.phase other := by
  have kept : ∀ (moved : Mcs Node) (phase : Phase Node), moved.phase = mcs.phase →
      (moved.goto node phase).phase other = mcs.phase other := by
    intro _ _ phases
    rw [goto_phase, if_neg apart, phases]
  rw [Mcs.advance] at taken
  split at taken
  case h_1 | h_9 => cases taken
  case h_7 | h_12 =>
    cases taken
    split
    · rfl
    · exact kept _ _ rfl
  case h_11 =>
    split at taken
    · cases taken
      exact kept _ _ rfl
    cases taken
    exact kept _ _ rfl
  case h_13 =>
    split at taken
    · cases taken
    cases taken
    exact kept _ _ rfl
  all_goals
    cases taken
    exact kept _ _ rfl

end

/-! ## Cores -/

/-- What holds in every state of the cores. -/
structure Inv (system : System Core Node) : Prop where
  line : Line system.mcs system.history
  logged : Logged system.mcs system.history
  used : ∀ core node, system.call core = some node → system.mcs.phase node ≠ .idle
  own : ∀ one two node, system.call one = some node → system.call two = some node → one = two

lemma start_inv (next : Node → Option Node) (locked : Node → Bool) :
    Inv (System.start next locked : System Core Node) := by
  have empty : ∀ place node, ¬ Place (System.start next locked : System Core Node).history
    place node := by
    rintro _ _ ⟨-, _, swapped⟩
    cases swapped
  refine ⟨⟨Nat.le_refl _, nofun, ?_, fun _ => rfl, ?_, ?_, ?_, ?_, ?_, nofun, nofun⟩,
    ⟨?_, nofun, ?_, ?_, ?_⟩,
    nofun, nofun⟩
  · exact fun place node stands => absurd stands (empty place node)
  · exact fun place node stands => absurd stands (empty place node)
  · exact fun node stands => absurd stands (empty _ node)
  · exact fun place previous _ _ stands => absurd stands (empty place previous)
  · exact fun place node stands => absurd stands (empty place node)
  · exact fun node fresh => fresh.elim nofun nofun
  · exact fun _ => rfl
  · intro _ _
    constructor
    · exact nofun
    · rintro ⟨-, -, _, _, swapped⟩
      cases swapped
  · exact List.nodup_nil
  · rintro ⟨_, _, swapped⟩
    cases swapped

/-- What the lock guarantees, in terms of the tickets that the swaps give out. -/
structure TicketOrder (system : System Core Node) : Prop where
  exclusive : ∀ one two first second, system.call one = some first → system.call two = some second →
    entered (system.mcs.phase first) = true → entered (system.mcs.phase second) = true → one = two
  order : system.history.granted = List.range system.history.granted.length ∧
    system.history.granted.length ≤ system.history.swaps.length
  released : ∀ one two, (one, two) ∈ system.history.released → two = one + 1 ∧
    Contended system.history two
  once : (system.history.released.map Prod.snd).Nodup
  awaited : ∀ ticket ∈ system.history.granted, Contended system.history ticket →
    ∃ before, ticket = before + 1 ∧ (before, ticket) ∈ system.history.released
  followed : ∀ node, system.mcs.phase node = .reloadNext → system.mcs.next node ≠ none

lemma Inv.sound {system : System Core Node} (inv : Inv system) : TicketOrder system := by
  have grants : ∃ count, system.history.granted = List.range count ∧
      count ≤ system.history.finished + 1 ∧ count ≤ system.history.swaps.length := by
    by_cases quiet : ∀ node, entered (system.mcs.phase node) = false
    · exact ⟨_, inv.logged.quiet quiet, Nat.le_succ _, inv.line.bound⟩
    obtain ⟨node, within⟩ := not_forall.mp quiet
    rw [Bool.not_eq_false] at within
    have place := inv.line.leads (Or.inr within)
    exact ⟨_, inv.logged.busy node within, Nat.le_refl _, place.inside⟩
  obtain ⟨count, all, few, bounded⟩ := grants
  have size : system.history.granted.length = count := by
    rw [all, List.length_range]
  refine ⟨?_, ⟨by rw [size, all], by rw [size]; exact bounded⟩, ?_, inv.logged.once, ?_,
    inv.line.linked⟩
  · intro one two first _ calls calls' within within'
    have same := (inv.line.leads (Or.inr within)).node_unique (inv.line.leads (Or.inr within'))
    rw [← same] at calls'
    exact inv.own one two first calls calls'
  · intro one two listed
    obtain ⟨next, -, contended⟩ := (inv.logged.releases one two).mp listed
    exact ⟨next, contended⟩
  · intro ticket granted contended
    rw [all, List.mem_range] at granted
    have positive : ticket ≠ 0 := by
      rintro rfl
      exact inv.logged.begins contended
    obtain ⟨before, rfl⟩ : ∃ before, ticket = before + 1 := ⟨ticket - 1, by omega⟩
    exact ⟨before, rfl, (inv.logged.releases before _).mpr ⟨rfl, by omega, contended⟩⟩

section

variable [DecidableEq Node] {system next : System Core Node} {core : Core} {node : Node}

lemma Inv.unlock (inv : Inv system) (held : system.mcs.phase node = .held) :
    Inv { system with mcs := system.mcs.goto node .loadNext } := by
  refine ⟨?_, inv.logged.same (entered_goto held rfl rfl), ?_, inv.own⟩
  · have place := inv.line.leads
      (Or.inr (show entered (system.mcs.phase node) = true by rw [held]; rfl))
    exact inv.line.lead_moves place (Or.inr rfl) (links_quiet rfl)
  · intro other call same
    rw [goto_phase]
    split
    · exact nofun
    · exact inv.used other call same

variable [DecidableEq Core]

lemma Inv.lock (inv : Inv system) (free : system.mcs.phase node = .idle) :
    Inv { system with
      mcs := system.mcs.goto node .storeNext, call := update system.call core (some node) } := by
  have kept : ∀ other, other ≠ node → (system.mcs.goto node .storeNext).phase other =
      system.mcs.phase other := by
    intro _ apart
    rw [goto_phase, if_neg apart]
  have started : (system.mcs.goto node .storeNext).phase node = .storeNext := by
    rw [goto_phase, if_pos rfl]
  have apart : ∀ other, system.call other ≠ some node :=
    fun other same => inv.used other node same free
  refine ⟨?_, inv.logged.same (entered_goto free rfl rfl), ?_, ?_⟩
  · refine inv.line.apart (show queued (system.mcs.phase node) = false by rw [free]; rfl) rfl
      (fun _ _ => rfl) (fun _ _ => rfl) kept ?_ ?_
    · rw [started]
      rfl
    · rw [started]
      exact links_quiet rfl
  · intro other held same
    change update system.call core (some node) other = some held at same
    rw [update_apply] at same
    split at same
    · cases same
      rw [started]
      exact nofun
    have differ : held ≠ node := by
      rintro rfl
      exact apart other same
    rw [kept held differ]
    exact inv.used other held same
  · intro one two held first second
    change update system.call core (some node) one = some held at first
    change update system.call core (some node) two = some held at second
    rw [update_apply] at first second
    split at first
    · rename_i here
      split at second
      · rename_i there
        rw [here, there]
      rw [← first] at second
      exact absurd second (apart two)
    split at second
    · rw [← second] at first
      exact absurd first (apart one)
    · exact inv.own one two held first second

lemma Inv.access (inv : Inv system) (calls : system.call core = some node) {spurious : Bool}
    {after : Mcs Node} {event : Option (Event Node)}
    (taken : system.mcs.advance node spurious = some (after, event)) :
    Inv { mcs := after,
          call := if after.phase node = .idle then update system.call core none else system.call,
          history := system.history.add event } := by
  have others : ∀ other call, other ≠ core → system.call other = some call →
    after.phase call ≠ .idle := by
    intro other call apart same
    have differ : call ≠ node := by
      rintro rfl
      exact apart (inv.own other core call same calls)
    rw [advance_other taken differ]
    exact inv.used other call same
  refine ⟨inv.line.advance taken, inv.logged.advance inv.line taken, ?_, ?_⟩
  · intro other call same
    dsimp only at same
    split at same
    · rw [update_apply] at same
      split at same
      · cases same
      rename_i apart
      exact others other call apart same
    rename_i busy
    by_cases here : other = core
    · rw [here, calls] at same
      rw [← Option.some.inj same]
      exact busy
    · exact others other call here same
  · intro one two call first second
    dsimp only at first second
    split at first
    · rename_i idle
      rw [if_pos idle] at second
      rw [update_apply] at first second
      split at first
      · cases first
      split at second
      · cases second
      · exact inv.own one two call first second
    rename_i busy
    rw [if_neg busy] at second
    exact inv.own one two call first second

lemma step_inv (label : Core × Action Node) (inv : Inv system)
    (taken : system.step label = some next) : Inv next := by
  rw [System.step] at taken
  split at taken
  · split at taken
    · rename_i free
      cases taken
      exact inv.lock free
    · cases taken
  · split at taken
    · rename_i held
      cases taken
      exact inv.unlock held
    · cases taken
  · rename_i calls
    obtain ⟨⟨_, _⟩, accessed, rfl⟩ := Option.map_eq_some_iff.mp taken
    exact inv.access calls accessed
  · cases taken

/-- In every interleaving of the calls of any number of cores, the lock is held by one core at a
time, is granted in the order of the swaps, and each waiting call is released by the call before it.
-/
theorem mcs_lock_sound (nodesNext : Node → Option Node) (nodesLocked : Node → Bool)
    (labels : List (Core × Action Node)) :
    Throughout System.step TicketOrder (System.start nodesNext nodesLocked : System Core Node)
      labels :=
  throughout_of_invariant (fun _ label _ inv taken => step_inv label inv taken)
    (fun _ inv => inv.sound)
    (start_inv nodesNext nodesLocked) labels

end

/-- Core 0 takes the lock, core 1 swaps behind it and waits, and core 0 hands the lock to it. -/
example : (run System.step (System.start (fun _ => none) (fun _ => true) : System (Fin 2) (Fin 2))
    ([(0, .lock 0)] ++ List.replicate 4 (0, .access false) ++ [(1, .lock 1)] ++
      List.replicate 6 (1, .access false) ++ [(0, .unlock)] ++ List.replicate 3
        (0, .access false) ++
      List.replicate 2 (1, .access false))).any (fun system =>
        system.history.granted = [0, 1] ∧ system.history.released = [(0, 1)] ∧
          system.call 0 = none ∧
          system.mcs.phase 1 = .held) := by
  decide +kernel

end R9x.Verif.McsFifo
